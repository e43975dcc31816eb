import NordicEsb.Lib.RunningMax
import NordicEsb.App.Box
import Mathlib.Algebra.Order.BigOperators.Group.List
import Mathlib.Algebra.Order.Group.Nat

/-!
# Channel Selection

`do_channel_list_generation` measures every channel of a region many times and keeps, while it
measures, the largest sum any channel has reached so far. `RSSISAMPLE` is the signal strength
in negative dBm, so a large sum stands for a quiet channel.

- The samples are an argument: sample `samples` of channel `k` in region `i`.
- The local `selected_ch` is not initialised; its first value is an argument too.

**Main result** (`doChannelListGeneration_quietest`): if every region has a sample that is not
zero, the channel stored for a region is one of its channels and has the largest total of all,
and no 16-bit sum wraps.
-/

namespace NordicEsb

namespace Box

/-! ## §1 The code -/

/-- `MAXIMUM_CHANNELS_PER_REGION` -/
abbrev maximumChannelsPerRegion : ℕ := 10
/-- `MAXIMUM_RSSI_SAMPLES` -/
abbrev maximumRssiSamples : ℕ := 256

/-- The channels of a region. -/
abbrev RegionChannels := FixedArray maximumChannelsPerRegion UInt8

/-- `REGION1_CHANNEL_LIST` -/
def region1ChannelList : RegionChannels := .load (.replicate _ 0) [1, 3, 4, 5, 6, 7, 8, 9, 10, 12]
/-- `REGION3_CHANNEL_LIST` -/
def region3ChannelList : RegionChannels :=
  .load (.replicate _ 0) [32, 35, 36, 39, 41, 42, 44, 46, 50, 52]
/-- `REGION5_CHANNEL_LIST` -/
def region5ChannelList : RegionChannels :=
  .load (.replicate _ 0) [67, 68, 69, 70, 71, 72, 73, 74, 77, 78]

/-- `gca_available_chlist` for the second scheme. -/
def gcaAvailableChlist : FixedArray maximumChannelListSize RegionChannels :=
  .load (.replicate _ (.replicate _ 0)) [region1ChannelList, region3ChannelList, region5ChannelList]

/-- The local variables of `do_channel_list_generation`. -/
structure Sampling where
  rssi : FixedArray maximumChannelsPerRegion UInt16
  highestRssi : UInt16
  selectedCh : UInt8

/-- The variables at the beginning of a region. -/
def Sampling.start (selectedCh : UInt8) : Sampling := ⟨.replicate _ 0, 0, selectedCh⟩

/-- The body of the innermost loop: channel `k` is measured once. -/
def sampleChannel (channels : RegionChannels) (k : ℕ) (sample : UInt8) (s : Sampling) : Sampling :=
  let s := { s with rssi := s.rssi.set k (s.rssi.get k + sample.toUInt16) }
  if s.highestRssi < s.rssi.get k then
    { s with highestRssi := s.rssi.get k, selectedCh := channels.get k }
  else s

/-- The loop over the channels of a region. -/
def sampleRound (channels : RegionChannels) (row : ℕ → UInt8) (s : Sampling) : Sampling :=
  (List.range maximumChannelsPerRegion).foldl (fun s k => sampleChannel channels k (row k) s) s

/-- The loop over the samples. -/
def sampleRegion (channels : RegionChannels) (table : ℕ → ℕ → UInt8) (selectedCh : UInt8) :
    Sampling :=
  (List.range maximumRssiSamples).foldl (fun s samples => sampleRound channels (table samples) s)
    (.start selectedCh)

/-- The loop over the regions: what is stored, and the local `selected_ch`. -/
def generateRegion (rssiSample : ℕ → ℕ → ℕ → UInt8) (p : ChannelList × UInt8) (i : ℕ) :
    ChannelList × UInt8 :=
  let s := sampleRegion (gcaAvailableChlist.get i) (rssiSample i) p.2
  (p.1.set i s.selectedCh, s.selectedCh)

/-- `do_channel_list_generation`: the new `g_ds.chlist`. -/
def doChannelListGeneration (rssiSample : ℕ → ℕ → ℕ → UInt8) (selectedCh : UInt8)
    (chlist : ChannelList) : ChannelList :=
  ((List.range maximumChannelListSize).foldl (generateRegion rssiSample) (chlist, selectedCh)).1

/-! ## §2 Totals -/

/-- The total of channel `k` over all rounds. -/
def total (table : ℕ → ℕ → UInt8) (k : ℕ) : ℕ :=
  ((List.range maximumRssiSamples).map fun samples => (table samples k).toNat).sum

/-- The measurements of a region in the order in which they are made: round and channel. -/
def measurements : List (ℕ × ℕ) :=
  (List.range maximumRssiSamples).flatMap fun samples =>
    (List.range maximumChannelsPerRegion).map fun k => (samples, k)

/-- A measurement as a contribution to the sum of its channel. -/
def contributions (table : ℕ → ℕ → UInt8) (l : List (ℕ × ℕ)) : List (ℕ × ℕ) :=
  l.map fun p => (p.2, (table p.1 p.2).toNat)

/-- The variables after some measurements. -/
def sampleAll (channels : RegionChannels) (table : ℕ → ℕ → UInt8) (s : Sampling)
    (l : List (ℕ × ℕ)) : Sampling :=
  l.foldl (fun s p => sampleChannel channels p.2 (table p.1 p.2) s) s

/-- The two nested loops make the measurements one after the other. -/
theorem sampleRegion_eq (channels : RegionChannels) (table : ℕ → ℕ → UInt8) (selectedCh : UInt8) :
    sampleRegion channels table selectedCh =
      sampleAll channels table (.start selectedCh) measurements := by
  unfold sampleRegion sampleAll measurements sampleRound
  rw [List.foldl_flatMap]
  simp only [List.foldl_map]

/-- All measurements together contribute the total of each channel. -/
theorem contribution_measurements (table : ℕ → ℕ → UInt8) {k : ℕ}
    (hk : k < maximumChannelsPerRegion) :
    RunningMax.contribution k (contributions table measurements) = total table k := by
  unfold contributions measurements total
  rw [List.map_flatMap, RunningMax.contribution_flatMap]
  congr 1
  apply List.map_congr_left
  intro samples _
  rw [List.map_map]
  exact RunningMax.contribution_map List.nodup_range (List.mem_range.mpr hk)
    fun k => (table samples k).toNat

/-- A total fits 16 bits. -/
theorem total_lt (table : ℕ → ℕ → UInt8) (k : ℕ) : total table k < 2 ^ 16 := by
  have hle : total table k ≤ maximumRssiSamples * 255 := by
    unfold total
    have hsum := List.sum_le_card_nsmul
      ((List.range maximumRssiSamples).map fun samples => (table samples k).toNat) 255 (by
        intro x hx
        obtain ⟨samples, -, rfl⟩ := List.mem_map.mp hx
        exact Nat.le_of_lt_succ (UInt8.toNat_lt _))
    rwa [List.length_map, List.length_range, Nat.nsmul_eq_mul] at hsum
  exact lt_of_le_of_lt hle (by decide)

/-! ## §3 The loop keeps the running maximum -/

/-- The variables hold the running sums, the highest of them and the channel of the leader. -/
structure Sampling.Tracks (channels : RegionChannels) (selectedCh : UInt8) (s : Sampling)
    (r : RunningMax ℕ ℕ) : Prop where
  sums : ∀ k < maximumChannelsPerRegion, (s.rssi.get k).toNat = r.sums k
  highest : s.highestRssi.toNat = r.highest
  selected : s.selectedCh = (r.leader.map channels.get).getD selectedCh

theorem tracks_start (channels : RegionChannels) (selectedCh : UInt8) :
    Sampling.Tracks channels selectedCh (.start selectedCh) RunningMax.start where
  sums k _ := by
    have hzero : (Sampling.start selectedCh).rssi.get k = 0 :=
      FixedArray.get_replicate (n := maximumChannelsPerRegion) (α := UInt16) k
    rw [hzero]
    rfl
  highest := rfl
  selected := rfl

/-- **One measurement** of a channel whose sum does not wrap. -/
theorem Sampling.Tracks.sampleChannel {channels : RegionChannels} {selectedCh : UInt8} {s : Sampling}
    {r : RunningMax ℕ ℕ} (h : Sampling.Tracks channels selectedCh s r) {k : ℕ}
    (hk : k < maximumChannelsPerRegion) {sample : UInt8}
    (hfits : (s.rssi.get k).toNat + sample.toNat < 2 ^ 16) :
    Sampling.Tracks channels selectedCh (sampleChannel channels k sample s) (r.add k sample.toNat) := by
  obtain ⟨sum, hsum⟩ : ∃ sum, sum = s.rssi.get k + sample.toUInt16 := ⟨_, rfl⟩
  have hnat : sum.toNat = r.sums k + sample.toNat := by
    rw [hsum, UInt16.toNat_add, UInt8.toNat_toUInt16, Nat.mod_eq_of_lt hfits, h.sums k hk]
  have hget : (s.rssi.set k sum).get k = sum := FixedArray.get_set_self _ _ hk
  have hlt : s.highestRssi < sum ↔ r.highest < r.sums k + sample.toNat := by
    rw [UInt16.lt_iff_toNat_lt, h.highest, hnat]
  have hsums : ∀ j < maximumChannelsPerRegion,
      ((s.rssi.set k sum).get j).toNat = (r.add k sample.toNat).sums j := by
    intro j hj
    dsimp only [RunningMax.add]
    by_cases hjk : j = k
    · subst hjk
      rw [hget, Function.update_self, hnat]
    · rw [FixedArray.get_set_ne _ _ hjk, Function.update_of_ne hjk]
      exact h.sums j hj
  unfold Box.sampleChannel
  dsimp only
  rw [← hsum, hget]
  by_cases hover : r.highest < r.sums k + sample.toNat
  · rw [if_pos (hlt.mpr hover)]
    refine ⟨hsums, ?_, ?_⟩
    · simp [RunningMax.add, hover, hnat]
    · simp [RunningMax.add, hover]
  · rw [if_neg fun hs => hover (hlt.mp hs)]
    refine ⟨hsums, ?_, ?_⟩
    · simpa [RunningMax.add, hover] using h.highest
    · simpa [RunningMax.add, hover] using h.selected

/-- The sum a measurement adds to stays below 2^16: the partial sums never exceed the totals. -/
theorem partial_lt (table : ℕ → ℕ → UInt8) {before after : List (ℕ × ℕ)} {p : ℕ × ℕ}
    (hsplit : before ++ p :: after = measurements) (hk : p.2 < maximumChannelsPerRegion) :
    RunningMax.contribution p.2 (contributions table before) + (table p.1 p.2).toNat < 2 ^ 16 := by
  have htotal := contribution_measurements table hk
  rw [← hsplit] at htotal
  unfold contributions at htotal ⊢
  rw [List.map_append, RunningMax.contribution_append, List.map_cons,
    RunningMax.contribution_cons, if_pos rfl] at htotal
  have hlt := total_lt table p.2
  omega

theorem mem_measurements {p : ℕ × ℕ} (h : p ∈ measurements) : p.2 < maximumChannelsPerRegion := by
  obtain ⟨samples, -, hp⟩ := List.mem_flatMap.mp h
  obtain ⟨k, hk, rfl⟩ := List.mem_map.mp hp
  exact List.mem_range.mp hk

/-- **Every prefix of the loop** holds the running sums of its measurements. -/
theorem tracks_sampleAll (channels : RegionChannels) (table : ℕ → ℕ → UInt8) (selectedCh : UInt8)
    {before after : List (ℕ × ℕ)} (hsplit : before ++ after = measurements) :
    Sampling.Tracks channels selectedCh (sampleAll channels table (.start selectedCh) before)
      (RunningMax.start.run (contributions table before)) := by
  induction before using List.reverseRecOn generalizing after with
  | nil => exact tracks_start channels selectedCh
  | append_singleton before p ih =>
    rw [List.append_assoc, List.singleton_append] at hsplit
    have hbefore := ih hsplit
    have hk : p.2 < maximumChannelsPerRegion := mem_measurements (by simp [← hsplit])
    have hsum := hbefore.sums p.2 hk
    rw [RunningMax.sums_run] at hsum
    have hpartial := partial_lt table hsplit hk
    have hfits : ((sampleAll channels table (.start selectedCh) before).rssi.get p.2).toNat +
        (table p.1 p.2).toNat < 2 ^ 16 := by
      rw [hsum]
      simpa [RunningMax.start] using hpartial
    have hstep := hbefore.sampleChannel hk hfits
    have hcode : sampleAll channels table (.start selectedCh) (before ++ [p]) =
        sampleChannel channels p.2 (table p.1 p.2)
          (sampleAll channels table (.start selectedCh) before) := by
      simp [sampleAll]
    have hrun : RunningMax.start.run (contributions table (before ++ [p])) =
        (RunningMax.start.run (contributions table before)).add p.2 (table p.1 p.2).toNat := by
      simp [contributions, RunningMax.run_append]
    rw [hcode, hrun]
    exact hstep

/-- **No 16-bit sum wraps**: the addition before each measurement stays below 2^16. -/
theorem sampleAll_fits (channels : RegionChannels) (table : ℕ → ℕ → UInt8) (selectedCh : UInt8)
    {before after : List (ℕ × ℕ)} {p : ℕ × ℕ} (hsplit : before ++ p :: after = measurements) :
    ((sampleAll channels table (.start selectedCh) before).rssi.get p.2).toNat +
      (table p.1 p.2).toNat < 2 ^ 16 := by
  have hk : p.2 < maximumChannelsPerRegion := mem_measurements (by simp [← hsplit])
  have hsum := (tracks_sampleAll channels table selectedCh hsplit).sums p.2 hk
  rw [RunningMax.sums_run] at hsum
  rw [hsum]
  simpa [RunningMax.start] using partial_lt table hsplit hk

/-- The region has a sample that is not zero. -/
def Sampled (table : ℕ → ℕ → UInt8) : Prop :=
  ∃ samples < maximumRssiSamples, ∃ k < maximumChannelsPerRegion, table samples k ≠ 0

theorem exists_total_ne_zero {table : ℕ → ℕ → UInt8} (h : Sampled table) :
    ∃ k < maximumChannelsPerRegion, total table k ≠ 0 := by
  obtain ⟨samples, hsamples, k, hk, hne⟩ := h
  refine ⟨k, hk, fun hzero => hne ?_⟩
  have hall := List.sum_eq_zero_iff_forall_eq_nat.mp hzero _ (List.mem_map.mpr
    ⟨samples, List.mem_range.mpr hsamples, rfl⟩)
  exact UInt8.toNat_inj.mp hall

/-- A channel of the region has the largest total. -/
def Quietest (channels : RegionChannels) (table : ℕ → ℕ → UInt8) (ch : UInt8) : Prop :=
  ∃ k < maximumChannelsPerRegion, ch = channels.get k ∧
    ∀ j < maximumChannelsPerRegion, total table j ≤ total table k

/-- **One region**: what is selected in the end is a quietest channel. -/
theorem sampleRegion_quietest (channels : RegionChannels) {table : ℕ → ℕ → UInt8}
    (h : Sampled table) (selectedCh : UInt8) :
    Quietest channels table (sampleRegion channels table selectedCh).selectedCh := by
  obtain ⟨k, hk, hne⟩ := exists_total_ne_zero h
  rw [← contribution_measurements table hk] at hne
  obtain ⟨j, hj, hmax⟩ := RunningMax.leader_run hne
  have htracks := tracks_sampleAll channels table selectedCh
    (List.append_nil measurements : measurements ++ [] = measurements)
  have hselected := htracks.selected
  rw [hj] at hselected
  -- the leader is a channel of the region: the others have no contribution
  have hj' : j < maximumChannelsPerRegion := by
    by_contra hge
    have hnone : RunningMax.contribution j (contributions table measurements) = 0 := by
      unfold RunningMax.contribution
      have hempty : (contributions table measurements).filter (fun p => p.1 = j) = [] := by
        rw [List.filter_eq_nil_iff]
        intro p hp
        obtain ⟨q, hq, rfl⟩ := List.mem_map.mp hp
        have hlt := mem_measurements hq
        rw [decide_eq_true_eq]
        show ¬ q.2 = j
        omega
      rw [hempty]
      rfl
    have hle := hmax k
    rw [hnone] at hle
    exact hne (Nat.le_zero.mp hle)
  refine ⟨j, hj', ?_, fun i hi => ?_⟩
  · rw [sampleRegion_eq, hselected]
    rfl
  · rw [← contribution_measurements table hi, ← contribution_measurements table hj']
    exact hmax i

/-! ## §4 All regions -/

theorem generateRegion_get (rssiSample : ℕ → ℕ → ℕ → UInt8) (p : ChannelList × UInt8) {i j : ℕ}
    (hi : i < maximumChannelListSize) : (generateRegion rssiSample p i).1.get j =
      if j = i then (sampleRegion (gcaAvailableChlist.get i) (rssiSample i) p.2).selectedCh
      else p.1.get j :=
  FixedArray.get_set _ _ _ _ hi

/-- What is stored for a region stays stored. -/
theorem generate_quietest {rssiSample : ℕ → ℕ → ℕ → UInt8}
    (h : ∀ i < maximumChannelListSize, Sampled (rssiSample i)) (p : ChannelList × UInt8) {n : ℕ}
    (hn : n ≤ maximumChannelListSize) : ∀ i < n, Quietest (gcaAvailableChlist.get i) (rssiSample i)
      (((List.range n).foldl (generateRegion rssiSample) p).1.get i) := by
  induction n with
  | zero => exact fun i hi => absurd hi (by omega)
  | succ n ih =>
    intro i hi
    rw [List.range_succ, List.foldl_append, List.foldl_cons, List.foldl_nil,
      generateRegion_get rssiSample _ (by omega)]
    by_cases hin : i = n
    · subst hin
      rw [if_pos rfl]
      exact sampleRegion_quietest _ (h i (by omega)) _
    · rw [if_neg hin]
      exact ih (by omega) i (by omega)

/-- **The quietest channel of every region** is stored, and no sum wraps on the way. -/
theorem doChannelListGeneration_quietest (rssiSample : ℕ → ℕ → ℕ → UInt8) (selectedCh : UInt8)
    (chlist : ChannelList) (h : ∀ i < maximumChannelListSize, Sampled (rssiSample i)) :
    (∀ i < maximumChannelListSize, Quietest (gcaAvailableChlist.get i) (rssiSample i)
      ((doChannelListGeneration rssiSample selectedCh chlist).get i)) ∧
      ∀ i < maximumChannelListSize, ∀ selectedCh before p after,
        before ++ p :: after = measurements →
          ((sampleAll (gcaAvailableChlist.get i) (rssiSample i) (.start selectedCh) before).rssi.get
            p.2).toNat + (rssiSample i p.1 p.2).toNat < 2 ^ 16 :=
  ⟨generate_quietest h (chlist, selectedCh) le_rfl,
    fun i _ selectedCh _ _ _ hsplit => sampleAll_fits (gcaAvailableChlist.get i) (rssiSample i)
      selectedCh hsplit⟩

/-- Samples that are all equal. -/
theorem doChannelListGeneration_even :
    (∀ i < maximumChannelListSize, Quietest (gcaAvailableChlist.get i) (fun _ _ => 90)
      ((doChannelListGeneration (fun _ _ _ => 90) 0 defaultPairingChannelList).get i)) ∧
      ∀ i < maximumChannelListSize, ∀ selectedCh before p after,
        before ++ p :: after = measurements →
          ((sampleAll (gcaAvailableChlist.get i) (fun _ _ => 90) (.start selectedCh) before).rssi.get
            p.2).toNat + (90 : UInt8).toNat < 2 ^ 16 :=
  doChannelListGeneration_quietest (fun _ _ _ => 90) 0 defaultPairingChannelList
    fun _ _ => ⟨0, by decide, 0, by decide, by decide⟩

end Box

end NordicEsb
