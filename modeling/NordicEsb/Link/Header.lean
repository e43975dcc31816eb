import NordicEsb.Link.Packet

/-!
# The PID in the Packet Header

`start_tx_transaction` writes the PID of a payload into the packet header: under DPL into the
second byte, next to the acknowledgment bit, and under the fixed-length protocol into the first
byte. `on_radio_disabled_rx` reads it from the second byte under both protocols.

**Main result** (`pidRoundTrip_iff`): the PID survives exactly under DPL, or if it is 0, and two
payloads with different PIDs are told apart whatever their CRCs are exactly under DPL.
-/

namespace NordicEsb

/-! ## §1 The round trip -/

/-- The payload as `nrf_esb_write_payload` queues it: with the next PID of its pipe. -/
def queuedPayload (s : Esb) (p : NrfEsbPayload) : NrfEsbPayload :=
  { p with pid := nextPid s p.pipe }

/-- The receiver `r`, under the protocol of the transmitter `t`, holds the two header bytes of
    the packet that `start_tx_transaction` builds in `t`. -/
structure HoldsHeader (t r : Esb) : Prop where
  protocol : r.configLocal.protocol = t.configLocal.protocol
  byte0 : r.rxPayloadBuffer.byte0 = (startTxTransaction t).txPayloadBuffer.byte0
  byte1 : r.rxPayloadBuffer.byte1 = (startTxTransaction t).txPayloadBuffer.byte1

/-- What `on_radio_disabled_rx` makes of the PID of a packet it handles. -/
structure TakesPid (r : Esb) (pid : UInt8) : Prop where
  extracted : receivedPid r = pid
  stored : ((onRadioDisabledRx r).rxPipeInfo.get r.radio.rxmatch.val).pid = pid
  reported : storesRx r = true → ∃ e, (onRadioDisabledRx r).rxFifo = r.rxFifo.push e ∧ e.pid = pid

/-- **Round trip**: whenever a transmitter with configuration `cfg` sends the payload `p` and a
    receiver handles a packet with the same header bytes, the receiver takes the PID of `p`. -/
def RoundTrip (cfg : NrfEsbConfig) (p : NrfEsbPayload) : Prop :=
  ∀ t r : Esb, t.configLocal = cfg → t.txFifo.head = p → HoldsHeader t r → acceptsRx r = true →
    TakesPid r p.pid

/-- **Telling two payloads apart**: the receiver has handled the packet of `p`, and the next
    packet on its pipe is the one of `p'`. It is not taken for a retransmission. -/
def TellsApart (cfg : NrfEsbConfig) (p p' : NrfEsbPayload) : Prop :=
  ∀ t t' r r' : Esb, t.configLocal = cfg → t.txFifo.head = p → HoldsHeader t r →
    acceptsRx r = true → t'.configLocal = cfg → t'.txFifo.head = p' → HoldsHeader t' r' →
    matchedPipeInfo r' = (onRadioDisabledRx r).rxPipeInfo.get r.radio.rxmatch.val →
    retransmitPayload r' = false

/-! ## §2 Both layouts -/

/-- The PID a receiver extracts from the header of `p`. -/
def headerPid (cfg : NrfEsbConfig) (p : NrfEsbPayload) : UInt8 :=
  match cfg.protocol with
  | .esbDpl => p.pid
  | .esb => 0

/-- `nrf_esb_write_payload` queues a payload that it accepts in this form. -/
theorem enqueuePayload_txFifo (s : Esb) (p : NrfEsbPayload) :
    (enqueuePayload p s).txFifo = s.txFifo.push (queuedPayload s p) := rfl

theorem queuedPayload_pid_lt (s : Esb) (p : NrfEsbPayload) : (queuedPayload s p).pid.toNat < 4 := by
  have hmod : (queuedPayload s p).pid.toNat = (s.pids.get p.pipe.toNat + 1).toNat % 4 := rfl
  omega

/-- **The second byte** carries the PID under DPL, and nothing otherwise. -/
theorem receivedPid_of_header {t r : Esb} (h : HoldsHeader t r) (hpid : t.txFifo.head.pid.toNat < 4) :
    receivedPid r = headerPid t.configLocal t.txFifo.head := by
  unfold receivedPid headerPid
  rw [h.byte1, startTxTransaction_txPayloadBuffer]
  unfold txPacket
  cases t.configLocal.protocol with
  | esb =>
    show (0 : UInt8) >>> 1 = 0
    decide
  | esbDpl => exact (pid_shift hpid (by split <;> simp)).1

/-- What is stored and reported is what was extracted. -/
theorem takesPid_iff {r : Esb} (hacc : acceptsRx r = true) (pid : UInt8) :
    TakesPid r pid ↔ receivedPid r = pid := by
  constructor
  · exact fun h => h.extracted
  · rintro rfl
    refine ⟨rfl, ?_, fun hst => ?_⟩
    · rw [onRadioDisabledRx_rxPipeInfo, if_pos hacc, FixedArray.get_set_self _ _ (rxmatch_lt r)]
    · rw [onRadioDisabledRx_rxFifo, if_pos hst]
      exact ⟨_, rfl, rfl⟩

/-- The pipe remembers the PID extracted last. -/
theorem pipePid_of_accepts {r : Esb} (hacc : acceptsRx r = true) :
    (onRadioDisabledRx r).rxPipeInfo.get r.radio.rxmatch.val =
      { crc := r.radio.rxcrc, pid := receivedPid r, ackPayload := ackPayloadAfter r } := by
  rw [onRadioDisabledRx_rxPipeInfo, if_pos hacc, FixedArray.get_set_self _ _ (rxmatch_lt r)]

/-! ## §3 A transmitter and a receiver -/

/-- A transmitter with configuration `cfg` and the payload `p` at its head. -/
def sending (cfg : NrfEsbConfig) (p : NrfEsbPayload) : Esb :=
  { Esb.reset with configLocal := cfg, txFifo := { Esb.reset.txFifo with slots := .replicate _ p } }

theorem sending_head (cfg : NrfEsbConfig) (p : NrfEsbPayload) :
    (sending cfg p).txFifo.head = p := rfl

/-- A receiver with an empty RX FIFO that has received the packet of `t`; `pipes` is what it
    remembers of its pipes. -/
def receiving (t : Esb) (pipes : FixedArray nrfEsbPipeCount PipeInfo) : Esb :=
  { Esb.reset with
    configLocal := { t.configLocal with mode := .prx }
    rxPipeInfo := pipes
    rxPayloadBuffer := (startTxTransaction t).txPayloadBuffer
    radio := { Esb.reset.radio with crcstatus := true } }

theorem receiving_holdsHeader (t : Esb) (pipes : FixedArray nrfEsbPipeCount PipeInfo) :
    HoldsHeader t (receiving t pipes) := ⟨rfl, rfl, rfl⟩

theorem receiving_accepts (t : Esb) (pipes : FixedArray nrfEsbPipeCount PipeInfo) :
    acceptsRx (receiving t pipes) = true := rfl

/-! ## §4 When the PID survives -/

theorem headerRoundTrip_iff (cfg : NrfEsbConfig) {p : NrfEsbPayload} (hpid : p.pid.toNat < 4) :
    RoundTrip cfg p ↔ cfg.protocol = .esbDpl ∨ p.pid = 0 := by
  have hheader : (headerPid cfg p = p.pid) ↔ cfg.protocol = .esbDpl ∨ p.pid = 0 := by
    unfold headerPid
    cases cfg.protocol with
    | esb => simp [eq_comm]
    | esbDpl => simp
  rw [← hheader]
  constructor
  · intro h
    -- the transmitter and the receiver of the section above
    have htakes := h (sending cfg p) (receiving (sending cfg p) default) rfl (sending_head cfg p)
      (receiving_holdsHeader _ _) (receiving_accepts _ _)
    have hpid' : (sending cfg p).txFifo.head.pid.toNat < 4 := by rwa [sending_head]
    have hextracted := receivedPid_of_header (receiving_holdsHeader (sending cfg p) default) hpid'
    rw [sending_head] at hextracted
    exact hextracted.symm.trans htakes.extracted
  · rintro heq t r rfl rfl hheld hacc
    rw [takesPid_iff hacc, receivedPid_of_header hheld hpid, heq]

theorem tellsApart_iff (cfg : NrfEsbConfig) {p p' : NrfEsbPayload} (hpid : p.pid.toNat < 4)
    (hpid' : p'.pid.toNat < 4) (hne : p.pid ≠ p'.pid) :
    TellsApart cfg p p' ↔ cfg.protocol = .esbDpl := by
  constructor
  · intro h
    by_contra hesb
    have hzero : ∀ q, headerPid cfg q = 0 := by
      intro q
      unfold headerPid
      cases hproto : cfg.protocol with
      | esb => rfl
      | esbDpl => exact absurd hproto hesb
    -- two packets with one CRC
    obtain ⟨r, hr⟩ : ∃ r, r = receiving (sending cfg p) default := ⟨_, rfl⟩
    have hapart := h (sending cfg p) (sending cfg p') r
      (receiving (sending cfg p') (onRadioDisabledRx r).rxPipeInfo) rfl (sending_head cfg p)
      (hr ▸ receiving_holdsHeader _ _) (hr ▸ receiving_accepts _ _) rfl (sending_head cfg p')
      (receiving_holdsHeader _ _) (by rw [hr]; rfl)
    have hinfo : matchedPipeInfo (receiving (sending cfg p') (onRadioDisabledRx r).rxPipeInfo) =
        (onRadioDisabledRx r).rxPipeInfo.get r.radio.rxmatch.val := by
      rw [hr]
      rfl
    have hfirst : receivedPid r = 0 := by
      rw [hr, receivedPid_of_header (receiving_holdsHeader _ _) (by rwa [sending_head]),
        ← hzero p, sending_head]
      rfl
    have hsecond : receivedPid (receiving (sending cfg p') (onRadioDisabledRx r).rxPipeInfo) = 0 := by
      rw [receivedPid_of_header (receiving_holdsHeader _ _) (by rwa [sending_head]), ← hzero p',
        sending_head]
      rfl
    rw [retransmitPayload, hinfo, pipePid_of_accepts (hr ▸ receiving_accepts _ _), hfirst,
      hsecond] at hapart
    rw [hr] at hapart
    exact absurd hapart (by simp [receiving])
  · rintro hdpl t t' r r' hcfg rfl hheld hacc hcfg' rfl hheld' hinfo
    have hheader : ∀ q, headerPid cfg q = q.pid := by
      intro q
      unfold headerPid
      rw [hdpl]
    have hfirst := receivedPid_of_header hheld hpid
    have hsecond := receivedPid_of_header hheld' hpid'
    rw [hcfg, hheader] at hfirst
    rw [hcfg', hheader] at hsecond
    rw [retransmitPayload, hinfo, pipePid_of_accepts hacc, hfirst, hsecond]
    simp [Ne.symm hne]

/-- **PID header round trip**: for every payload that is queued, with whatever PID its pipe has
    come to. -/
theorem pidRoundTrip_iff (cfg : NrfEsbConfig) (s s' : Esb) (p p' : NrfEsbPayload) :
    (RoundTrip cfg (queuedPayload s p) ↔
        cfg.protocol = .esbDpl ∨ (queuedPayload s p).pid = 0) ∧
      ((queuedPayload s p).pid ≠ (queuedPayload s' p').pid →
        (TellsApart cfg (queuedPayload s p) (queuedPayload s' p') ↔ cfg.protocol = .esbDpl)) :=
  ⟨headerRoundTrip_iff cfg (queuedPayload_pid_lt s p), fun hne =>
    tellsApart_iff cfg (queuedPayload_pid_lt s p) (queuedPayload_pid_lt s' p') hne⟩

/-! ## §5 The first two payloads of a pipe -/

/-- `NRF_ESB_LEGACY_CONFIG` -/
def nrfEsbLegacyConfig : NrfEsbConfig :=
  { nrfEsbDefaultConfig with
    protocol := .esb
    crc := .crc8Bit
    retransmitDelay := 600
    retransmitCount := 3 }

/-- The first payload that a transmitter queues. -/
def firstPayload (cfg : NrfEsbConfig) : NrfEsbPayload :=
  queuedPayload (initialised cfg) (.ofBytes 0 0 [1])

/-- The second one. -/
def secondPayload (cfg : NrfEsbConfig) : NrfEsbPayload :=
  queuedPayload (nrfEsbWritePayload (some (.ofBytes 0 0 [1])) (initialised cfg)).2 (.ofBytes 0 0 [2])

/-- The first payload of a pipe has PID 1 and the second one PID 2. -/
theorem pidRoundTrip_firstTwo :
    (firstPayload nrfEsbDefaultConfig).pid ≠ (secondPayload nrfEsbDefaultConfig).pid ∧
      (TellsApart nrfEsbDefaultConfig (firstPayload nrfEsbDefaultConfig)
        (secondPayload nrfEsbDefaultConfig) ↔ nrfEsbDefaultConfig.protocol = .esbDpl) :=
  have hne : (firstPayload nrfEsbDefaultConfig).pid ≠ (secondPayload nrfEsbDefaultConfig).pid := by
    decide
  ⟨hne, (pidRoundTrip_iff nrfEsbDefaultConfig _ _ _ _).2 hne⟩

/-- Under the fixed-length protocol neither half holds of the first two payloads of a pipe. -/
theorem not_pidRoundTrip_legacy :
    ¬ RoundTrip nrfEsbLegacyConfig (firstPayload nrfEsbLegacyConfig) ∧
      ¬ TellsApart nrfEsbLegacyConfig (firstPayload nrfEsbLegacyConfig)
        (secondPayload nrfEsbLegacyConfig) := by
  constructor
  · rw [firstPayload, headerRoundTrip_iff _ (queuedPayload_pid_lt _ _)]
    decide
  · rw [firstPayload, secondPayload,
      tellsApart_iff _ (queuedPayload_pid_lt _ _) (queuedPayload_pid_lt _ _) (by decide)]
    decide

end NordicEsb
