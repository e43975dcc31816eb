import NordicEsb.Esb.Pid
import Mathlib.Logic.Function.Iterate

/-!
# The Acknowledgment Window

After a packet that wants an acknowledgment, `on_radio_disabled_tx` programs the system timer:
`CC[0]` closes the window, and `CC[1]` is the point where the next attempt starts. `CC[0]` comes
from the bitrate, `CC[1]` from `retransmit_delay`, and `nrf_esb_init` compares neither.

- `WindowTimer`: the timer while the window is open. The PPI disables the radio on `COMPARE[0]`,
  and the shortcuts clear and stop the timer on `COMPARE[1]`.
- `WindowSound`: the two compare values are in order, `CC[1]` does not wrap, the window closes
  before the timer stops, and a missed acknowledgment takes the module out of the window.

**Main result** (`windowSound_iff`): with the configuration `cfg`, this holds exactly if
`retransmit_delay` exceeds the time-out of the bitrate by more than 130 microseconds.
-/

namespace NordicEsb

namespace Esb

/-! ## §1 The timer in the window -/

/-- `NRF_ESB_SYS_TIMER` in the window: a 16-bit count of microseconds, and whether the radio has
    been disabled by `COMPARE[0]`. -/
structure WindowTimer where
  count : ℕ
  running : Bool
  radioDisabled : Bool
deriving DecidableEq, Repr

/-- The timer is started when the radio is ready. -/
def WindowTimer.opened : WindowTimer := ⟨0, true, false⟩

/-- One microsecond with the compare values `cc`. -/
def WindowTimer.tick (cc : SysTimer) (w : WindowTimer) : WindowTimer :=
  if w.running then
    let count := (w.count + 1) % 2 ^ 16
    -- COMPARE[0] triggers TASKS_DISABLE of the radio; COMPARE[1] clears and stops the timer
    { count := if count = cc.cc1.toNat % 2 ^ 16 then 0 else count
      running := count != cc.cc1.toNat % 2 ^ 16
      radioDisabled := w.radioDisabled || count == cc.cc0.toNat % 2 ^ 16 }
  else w

/-- The timer `n` microseconds after the window has opened. -/
def WindowTimer.after (cc : SysTimer) (n : ℕ) : WindowTimer := (tick cc)^[n] opened

/-- The window closes while the timer runs: before the retransmit point. -/
def closesInTime (cc : SysTimer) : Prop :=
  ∃ n, (WindowTimer.after cc n).radioDisabled = true ∧ (WindowTimer.after cc n).running = true

/-- The module `n` microseconds after the window has opened, if no packet comes. -/
def missedAfter (s : Esb) (n : ℕ) : Esb :=
  if (WindowTimer.after s.sysTimer n).radioDisabled then radioIrqHandler .silent s else s

/-- **The window is sound** in the state `on_radio_disabled_tx` leaves. -/
structure WindowSound (cfg : NrfEsbConfig) (s : Esb) : Prop where
  opens : 0 < s.sysTimer.cc0.toNat
  ordered : s.sysTimer.cc0.toNat < s.sysTimer.cc1.toNat
  fits : s.sysTimer.cc1.toNat < 2 ^ 16
  noWrap : s.sysTimer.cc1.toNat + 130 = cfg.retransmitDelay.toNat
  closes : closesInTime s.sysTimer
  leaves : ∃ n, (missedAfter s n).mainstate ≠ .ptxRxAck

namespace WindowTimer

theorem after_succ (cc : SysTimer) (n : ℕ) : after cc (n + 1) = tick cc (after cc n) :=
  Function.iterate_succ_apply' _ _ _

/-- Before the retransmit point the timer counts, and the radio is disabled from `CC[0]` on. -/
theorem after_of_lt {cc : SysTimer} (hpos : 0 < cc.cc0.toNat) (hfits : cc.cc1.toNat < 2 ^ 16)
    (hfits' : cc.cc0.toNat < 2 ^ 16) {n : ℕ} (hn : n < cc.cc1.toNat) :
    after cc n = ⟨n, true, decide (cc.cc0.toNat ≤ n)⟩ := by
  induction n with
  | zero =>
    have hopen : ¬ cc.cc0.toNat ≤ 0 := by omega
    rw [decide_eq_false hopen]
    rfl
  | succ n ih =>
    have hcount : (n + 1) % 2 ^ 16 = n + 1 := Nat.mod_eq_of_lt (by omega)
    have hcc1 : cc.cc1.toNat % 2 ^ 16 = cc.cc1.toNat := Nat.mod_eq_of_lt hfits
    have hcc0 : cc.cc0.toNat % 2 ^ 16 = cc.cc0.toNat := Nat.mod_eq_of_lt hfits'
    have hne : n + 1 ≠ cc.cc1.toNat := by omega
    rw [after_succ, ih (by omega)]
    unfold tick
    simp only [if_true, hcount, hcc1, hcc0, if_neg hne]
    congr 1
    · simpa using hne
    · rw [Bool.eq_iff_iff]
      simp only [Bool.or_eq_true, decide_eq_true_eq, beq_iff_eq]
      omega

/-- If the retransmit point comes first, the timer stops there and the radio is never disabled. -/
theorem radioDisabled_after_of_lt {cc : SysTimer} (hpos : 0 < cc.cc1.toNat)
    (hlt : cc.cc1.toNat < cc.cc0.toNat) (hfits : cc.cc0.toNat < 2 ^ 16) (n : ℕ) :
    (after cc n).radioDisabled = false := by
  have hcc1 : cc.cc1.toNat % 2 ^ 16 = cc.cc1.toNat := Nat.mod_eq_of_lt (by omega)
  have hcc0 : cc.cc0.toNat % 2 ^ 16 = cc.cc0.toNat := Nat.mod_eq_of_lt hfits
  -- up to the last microsecond before the point the timer counts
  have hbefore : after cc (cc.cc1.toNat - 1) = ⟨cc.cc1.toNat - 1, true, false⟩ := by
    rw [after_of_lt (by omega) (by omega) hfits (by omega)]
    have hclosed : ¬ cc.cc0.toNat ≤ cc.cc1.toNat - 1 := by omega
    rw [decide_eq_false hclosed]
  have hstop : ∀ k, after cc (cc.cc1.toNat + k) = ⟨0, false, false⟩ := by
    intro k
    induction k with
    | zero =>
      have hsucc : cc.cc1.toNat - 1 + 1 = cc.cc1.toNat := by omega
      have hne : ¬ cc.cc1.toNat = cc.cc0.toNat := by omega
      rw [Nat.add_zero, ← hsucc, after_succ, hbefore]
      unfold tick
      simp only [if_true, hsucc, hcc1, hcc0, bne_self_eq_false, Bool.false_or]
      simpa using hne
    | succ k ih =>
      rw [← Nat.add_assoc, after_succ, ih]
      rfl
  by_cases hn : n < cc.cc1.toNat
  · rw [after_of_lt (by omega) (by omega) hfits hn]
    exact decide_eq_false (by omega)
  · obtain ⟨k, rfl⟩ := Nat.exists_eq_add_of_le (not_lt.mp hn)
    rw [hstop k]

theorem closesInTime_of_lt {cc : SysTimer} (hpos : 0 < cc.cc0.toNat)
    (hlt : cc.cc0.toNat < cc.cc1.toNat) (hfits : cc.cc1.toNat < 2 ^ 16) : closesInTime cc := by
  have hafter := after_of_lt hpos hfits (by omega) hlt
  exact ⟨cc.cc0.toNat, by simp [hafter]⟩

end WindowTimer

/-! ## §2 The configuration in use -/

/-- The calls that leave the configuration in use alone. -/
def keepsConfig : EsbCall → Bool
  | .init (some _) => false
  | _ => true

/-- The time-outs of a configuration are in use. -/
structure Uses (cfg : NrfEsbConfig) (s : Esb) : Prop where
  timeout : s.waitForAckTimeoutUs = waitForAckTimeout cfg.bitrate
  delay : s.configLocal.retransmitDelay = cfg.retransmitDelay

theorem uses_init (cfg : NrfEsbConfig) (s : Esb) : Uses cfg (nrfEsbInit (some cfg) s).2 :=
  ⟨rfl, rfl⟩

theorem callOnRadioDisabled_waitForAckTimeoutUs (s : Esb) :
    (callOnRadioDisabled s).waitForAckTimeoutUs = s.waitForAckTimeoutUs := by
  unfold callOnRadioDisabled
  cases s.onRadioDisabled with
  | none => rfl
  | some handler =>
    cases handler with
    | tx | rxAck => rfl
    | txNoack =>
      dsimp only
      unfold onRadioDisabledTxNoack
      dsimp only
      split <;> rfl
    | txWaitForAck =>
      dsimp only
      unfold onRadioDisabledTxWaitForAck
      dsimp only
      split
      · unfold onAckReceived
        dsimp only
        split <;> split <;> rfl
      · unfold onAckMissed
        dsimp only
        split <;> rfl
    | rx =>
      dsimp only
      rw [onRadioDisabledRx_eq]
      unfold acknowledge prepareAck prepareAckDpl
      cases s
      repeat' split
      all_goals rfl

/-- **Only `nrf_esb_init` changes the time-outs.** -/
theorem Uses.exec {cfg : NrfEsbConfig} {s : Esb} (h : Uses cfg s) {c : EsbCall}
    (hc : keepsConfig c = true) : Uses cfg (s.exec c) := by
  have hkeep : ∀ s' : Esb, s'.waitForAckTimeoutUs = s.waitForAckTimeoutUs →
      s'.configLocal.retransmitDelay = s.configLocal.retransmitDelay → Uses cfg s' :=
    fun s' ht hd => ⟨ht.trans h.timeout, hd.trans h.delay⟩
  cases c with
  | init pConfig =>
    cases pConfig with
    | none => exact h
    | some cfg => cases hc
  | radioIrq ev =>
    obtain ⟨r, b, hlatch⟩ := latch_eq ev s
    apply hkeep
    · show (radioIrqHandler ev s).waitForAckTimeoutUs = _
      have htimeout := callOnRadioDisabled_waitForAckTimeoutUs (ev.latch s)
      rw [radioIrqHandler_eq]
      split
      · rw [htimeout, hlatch]
      · rw [hlatch]
    · show (radioIrqHandler ev s).configLocal.retransmitDelay = _
      rw [(radioIrqHandler_frame ev s).2]
  | disable => exact hkeep _ rfl rfl
  | evtIrq =>
    apply hkeep
    all_goals
      simp only [Esb.exec, Esb.call, esbEvtIrqHandler]
      repeat' split
      all_goals rfl
  | readRxPayload pPayload =>
    apply hkeep
    all_goals
      simp only [Esb.exec, Esb.call, nrfEsbReadRxPayload]
      repeat' split
      all_goals simp_all
  | _ =>
    apply hkeep
    all_goals
      simp only [Esb.exec, Esb.call, nrfEsbWritePayload, nrfEsbSuspend, nrfEsbStartTx,
        nrfEsbStartRx, nrfEsbStopRx, nrfEsbFlushTx, nrfEsbPopTx, nrfEsbFlushRx,
        nrfEsbSetAddressLength, nrfEsbSetBaseAddress0, nrfEsbSetBaseAddress1, nrfEsbSetPrefixes,
        nrfEsbUpdatePrefix, nrfEsbEnablePipes, nrfEsbSetRfChannel, nrfEsbSetTxPower]
      repeat' split
      all_goals rfl

theorem Uses.run {cfg : NrfEsbConfig} {s : Esb} (h : Uses cfg s) {calls : List EsbCall}
    (hcalls : ∀ c ∈ calls, keepsConfig c = true) : Uses cfg (calls.foldl Esb.exec s) := by
  induction calls generalizing s with
  | nil => exact h
  | cons c calls ih =>
    have hnext := h.exec (hcalls c (by simp))
    exact ih hnext fun c' hc' => hcalls c' (by simp [hc'])

/-! ## §3 Opening the window -/

/-- What the timer is programmed with. -/
def windowTimer (cfg : NrfEsbConfig) : SysTimer where
  cc0 := waitForAckTimeout cfg.bitrate
  cc1 := cfg.retransmitDelay.toUInt32 - 130

/-- The module with an open window: the packet is out, and its answer is awaited. -/
structure Opened (cfg : NrfEsbConfig) (s : Esb) : Prop where
  timer : s.sysTimer = windowTimer cfg
  mainstate : s.mainstate = .ptxRxAck
  handler : s.onRadioDisabled = some .txWaitForAck
  intensetDisabled : s.radio.intensetDisabled = true

/-- The radio interrupt at the end of a packet that wants an acknowledgment. -/
theorem Uses.opened {cfg : NrfEsbConfig} {s : Esb} (h : Uses cfg s) (ev : RadioEvent)
    (hhandler : s.onRadioDisabled = some .tx) (hi : s.radio.intensetDisabled = true) :
    Opened cfg (radioIrqHandler ev s) := by
  have hirq : radioIrqHandler ev s = onRadioDisabledTx (ev.latch s) := by
    rw [radioIrqHandler_eq, latch_intensetDisabled, if_pos hi]
    unfold callOnRadioDisabled
    rw [latch_onRadioDisabled, hhandler]
  obtain ⟨r, b, hlatch⟩ := latch_eq ev s
  rw [hirq]
  refine ⟨?_, rfl, rfl, ?_⟩
  · show (⟨(ev.latch s).waitForAckTimeoutUs,
      (ev.latch s).configLocal.retransmitDelay.toUInt32 - 130⟩ : SysTimer) = _
    rw [hlatch, h.timeout, h.delay]
    rfl
  · show (ev.latch s).radio.intensetDisabled = true
    rw [latch_intensetDisabled, hi]

/-- When the window closes on a missed acknowledgment, the module starts over or rests. -/
theorem Opened.missed {cfg : NrfEsbConfig} {s : Esb} (h : Opened cfg s) :
    (radioIrqHandler .silent s).mainstate ≠ .ptxRxAck := by
  have hirq : radioIrqHandler .silent s = onRadioDisabledTxWaitForAck (RadioEvent.silent.latch s) := by
    rw [radioIrqHandler_eq, latch_intensetDisabled, if_pos h.intensetDisabled]
    unfold callOnRadioDisabled
    rw [latch_onRadioDisabled, h.handler]
  rw [hirq]
  show (onAckMissed _).mainstate ≠ .ptxRxAck
  unfold onAckMissed
  dsimp only
  split
  · exact NrfEsbMainstate.noConfusion
  · exact NrfEsbMainstate.noConfusion

theorem waitForAckTimeout_bounds (bitrate : NrfEsbBitrate) :
    0 < (waitForAckTimeout bitrate).toNat ∧ (waitForAckTimeout bitrate).toNat ≤ 250 := by
  cases bitrate <;> decide

theorem retransmitDelay_toNat (cfg : NrfEsbConfig) :
    cfg.retransmitDelay.toUInt32.toNat = cfg.retransmitDelay.toNat ∧
      cfg.retransmitDelay.toNat < 2 ^ 16 :=
  ⟨UInt16.toNat_toUInt32 _, UInt16.toNat_lt _⟩

/-- The subtraction in `CC[1]` as numbers. -/
theorem windowTimer_cc1 {cfg : NrfEsbConfig} (h : 130 ≤ cfg.retransmitDelay.toNat) :
    (windowTimer cfg).cc1.toNat = cfg.retransmitDelay.toNat - 130 := by
  obtain ⟨hdelay, -⟩ := retransmitDelay_toNat cfg
  show (cfg.retransmitDelay.toUInt32 - 130).toNat = _
  rw [UInt32.toNat_sub_of_le, hdelay]
  · rfl
  · rw [UInt32.le_iff_toNat_le, hdelay]
    exact h

theorem Opened.sound_iff {cfg : NrfEsbConfig} {s : Esb} (h : Opened cfg s) :
    WindowSound cfg s ↔
      (waitForAckTimeout cfg.bitrate).toNat + 130 < cfg.retransmitDelay.toNat := by
  obtain ⟨hpos, -⟩ := waitForAckTimeout_bounds cfg.bitrate
  have hcc0 : s.sysTimer.cc0.toNat = (waitForAckTimeout cfg.bitrate).toNat := by
    rw [h.timer]
    rfl
  constructor
  · intro hsound
    have hordered := hsound.ordered
    have hwrap := hsound.noWrap
    omega
  · intro hlt
    have hcc1 : s.sysTimer.cc1.toNat = cfg.retransmitDelay.toNat - 130 := by
      rw [h.timer]
      exact windowTimer_cc1 (by omega)
    have hdelay := (retransmitDelay_toNat cfg).2
    have hcloses : closesInTime s.sysTimer :=
      WindowTimer.closesInTime_of_lt (by omega) (by omega) (by omega)
    obtain ⟨n, hn, hrun⟩ := hcloses
    refine ⟨by omega, by omega, by omega, by omega, ⟨n, hn, hrun⟩, n, ?_⟩
    unfold missedAfter
    rw [if_pos hn]
    exact h.missed

/-- **The window is sound** exactly if the retransmit delay leaves room for it: for every
    configuration, every earlier state and all calls since `nrf_esb_init`. -/
theorem windowSound_iff (cfg : NrfEsbConfig) (s₀ : Esb) (calls : List EsbCall)
    (hcalls : ∀ c ∈ calls, keepsConfig c = true) (ev : RadioEvent)
    (hhandler : (calls.foldl Esb.exec (nrfEsbInit (some cfg) s₀).2).onRadioDisabled = some .tx)
    (hi : (calls.foldl Esb.exec (nrfEsbInit (some cfg) s₀).2).radio.intensetDisabled = true) :
    WindowSound cfg (radioIrqHandler ev (calls.foldl Esb.exec (nrfEsbInit (some cfg) s₀).2)) ↔
      (waitForAckTimeout cfg.bitrate).toNat + 130 < cfg.retransmitDelay.toNat :=
  (((uses_init cfg s₀).run hcalls).opened ev hhandler hi).sound_iff

/-- The default configuration, after one payload was written. -/
theorem windowSound_default :
    WindowSound nrfEsbDefaultConfig (radioIrqHandler .silent
      ([EsbCall.writePayload (some (.ofBytes 0 0 [1]))].foldl Esb.exec
        (nrfEsbInit (some nrfEsbDefaultConfig) Esb.reset).2)) :=
  (windowSound_iff nrfEsbDefaultConfig Esb.reset [.writePayload (some (.ofBytes 0 0 [1]))]
    (by simp [keepsConfig]) .silent (by decide +kernel) (by decide +kernel)).mpr (by decide)

/-- The default configuration at the lowest bitrate. -/
def slowConfig : NrfEsbConfig := { nrfEsbDefaultConfig with bitrate := .bitrate250Kbps }

/-- The module that waits for the acknowledgment of its first payload at the lowest bitrate. -/
def slowWaiting : Esb :=
  radioIrqHandler .silent ([EsbCall.writePayload (some (.ofBytes 0 0 [1]))].foldl Esb.exec
    (nrfEsbInit (some slowConfig) Esb.reset).2)

/-- **The default delay at the lowest bitrate**: the timer stops before the window closes, and
    without a packet the module waits forever. -/
theorem not_windowSound_slow :
    ¬ WindowSound slowConfig slowWaiting ∧ ∀ n, (missedAfter slowWaiting n).mainstate = .ptxRxAck := by
  have hcc : slowWaiting.sysTimer.cc0.toNat = 250 ∧ slowWaiting.sysTimer.cc1.toNat = 120 := by
    decide +kernel
  constructor
  · intro hsound
    have hordered := hsound.ordered
    omega
  · intro n
    unfold missedAfter
    rw [WindowTimer.radioDisabled_after_of_lt (by omega) (by omega) (by omega) n]
    decide +kernel

end Esb

end NordicEsb
