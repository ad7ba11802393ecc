/-
Links told by their answers.

The driver knows its link by what it asks of it and what it is answered.  So
two links that give the same answers are the same to it, also where one of
them is no link at all but a record of the answers of another: what the driver
does over the record, it does over every link that answers as recorded.

* `Tells` — two links answer alike, until the first is lost;
* `Together` and its lemmas — the driver over the one and over the other, up to
  `use_together`;
* `Interaction`, `interact` — a question with its answer, and a link that
  gives it;
* `Tape` — a record of interactions, played back;
* `use_follows` — what the driver makes of a record, it makes of every link
  that follows the record;
* `use_about` — the registers it asks for.
-/
import RadioHead.Views
import RadioHead.Lib.Run

open Run Wire

/-- Links in relation `R` answer alike about the registers `regs` and stay in
relation, until the first of them is lost for good. -/
structure Tells {σ τ : Type} [HostLink σ] [HostLink τ] (regs : List UInt8) (lost : σ → Prop)
    (R : σ → τ → Prop) : Prop where
  lost_uartAvailable : ∀ {s}, lost s → lost (HostLink.uartAvailable s).2
  lost_uartRead : ∀ {s}, lost s → lost (HostLink.uartRead s).2
  lost_read : ∀ {s} reg, lost s → lost (HostLink.read reg s).2
  lost_write : ∀ {s} reg val, lost s → lost (HostLink.write reg val s)
  lost_burstRead : ∀ {s} reg len, lost s → lost (HostLink.burstRead reg len s).2
  lost_burstWrite : ∀ {s} reg data, lost s → lost (HostLink.burstWrite reg data s)
  uartAvailable : ∀ {s t}, R s t → lost (HostLink.uartAvailable s).2 ∨
    (HostLink.uartAvailable t).1 = (HostLink.uartAvailable s).1 ∧
      R (HostLink.uartAvailable s).2 (HostLink.uartAvailable t).2
  uartRead : ∀ {s t}, R s t → lost (HostLink.uartRead s).2 ∨
    (HostLink.uartRead t).1 = (HostLink.uartRead s).1 ∧
      R (HostLink.uartRead s).2 (HostLink.uartRead t).2
  read : ∀ {s t} reg, reg ∈ regs → R s t → lost (HostLink.read reg s).2 ∨
    (HostLink.read reg t).1 = (HostLink.read reg s).1 ∧
      R (HostLink.read reg s).2 (HostLink.read reg t).2
  write : ∀ {s t} reg val, reg ∈ regs → R s t → lost (HostLink.write reg val s) ∨
    R (HostLink.write reg val s) (HostLink.write reg val t)
  burstRead : ∀ {s t} reg len, reg ∈ regs → R s t → lost (HostLink.burstRead reg len s).2 ∨
    (HostLink.burstRead reg len t).1 = (HostLink.burstRead reg len s).1 ∧
      R (HostLink.burstRead reg len s).2 (HostLink.burstRead reg len t).2
  burstWrite : ∀ {s t} reg data, reg ∈ regs → R s t → lost (HostLink.burstWrite reg data s) ∨
    R (HostLink.burstWrite reg data s) (HostLink.burstWrite reg data t)

namespace RF95

section Parts

variable {σ : Type} [HostLink σ]

/-- The registers that the driver works with once it is configured. -/
def workRegs : List UInt8 :=
  [Reg.fifo, Reg.opMode, Reg.fifoAddrPtr, Reg.fifoRxCurrentAddr, Reg.irqFlags, Reg.rxNbBytes,
    Reg.pktRssiValue, Reg.payloadLength, Reg.dioMapping1]

/-- `fetchPacket` up to the RSSI of the packet. -/
def fetched (d : RF95 σ) : RF95 σ :=
  let (len, d) := d.read Reg.rxNbBytes
  let (addr, d) := d.read Reg.fifoRxCurrentAddr
  { (d.write Reg.fifoAddrPtr addr).burstRead Reg.fifo len with bufLen := len }.write
    Reg.irqFlags 0xff

theorem fetchPacket_eq (d : RF95 σ) : d.fetchPacket =
    { (d.fetched.read Reg.pktRssiValue).2 with
      lastRssi := (d.fetched.read Reg.pktRssiValue).1 - 137 } := rfl

/-- What `handleInterrupt` does about the IRQ flags. -/
def act (d : RF95 σ) (irqFlags : UInt8) : RF95 σ :=
  if d.mode = .rx ∧ irqFlags &&& (rxTimeout ||| payloadCrcError) ≠ 0 then
    { d with rxBad := d.rxBad + 1 }
  else if d.mode = .rx ∧ irqFlags &&& rxDone ≠ 0 then d.handlePacket
  else if d.mode = .tx ∧ irqFlags &&& txDone ≠ 0 then
    { d with txGood := d.txGood + 1 }.setModeIdle
  else d

theorem handleInterrupt_eq (d : RF95 σ) : d.handleInterrupt =
    ((d.read Reg.irqFlags).2.act (d.read Reg.irqFlags).1).write Reg.irqFlags 0xff := rfl

/-- `init` after the radio has answered. -/
def configure (d : RF95 σ) : RF95 σ :=
  (((((d.write Reg.fifoTxBaseAddr 0).write Reg.fifoRxBaseAddr 0).setModeIdle.setModemConfig
    .bw125Cr45Sf128).2.setPreambleLength 8).setFrequency 868000000).setTxPower 13 false

theorem init_eq (d : RF95 σ) : d.init =
    if ((d.write Reg.opMode (modeSleep ||| longRangeMode)).read Reg.opMode).1
        ≠ modeSleep ||| longRangeMode then
      (false, (((d.write Reg.opMode (modeSleep ||| longRangeMode)).read Reg.opMode).2.read
        Reg.opMode).2)
    else (true, ((d.write Reg.opMode (modeSleep ||| longRangeMode)).read Reg.opMode).2.configure) :=
  rfl

end Parts

section Together

variable {σ τ : Type} [HostLink σ] [HostLink τ] {regs : List UInt8} {lost : σ → Prop}
  {R : σ → τ → Prop} {d : RF95 σ} {d' : RF95 τ}

/-- A link that is lost stays lost, whatever the driver does. -/
theorem lost_stable (hR : Tells regs lost R) : Stable fun d : RF95 σ => lost d.link where
  uartAvailable h := hR.lost_uartAvailable h
  uartRead h := hR.lost_uartRead h
  read reg h := hR.lost_read reg h
  write reg val _ _ h := hR.lost_write reg val h
  burstRead len h := hR.lost_burstRead _ len h
  burstWrite data h := hR.lost_burstWrite _ data h
  members _ _ h := h
  setModeIdle {d} h := by
    rw [RF95.setModeIdle]
    split_ifs
    · exact hR.lost_write _ _ h
    · exact h
  sleep {d} h := by
    rw [RF95.sleep]
    split_ifs
    · exact hR.lost_write _ _ h
    · exact h
  setModeRx {d} h := by
    rw [RF95.setModeRx]
    split_ifs
    · exact hR.lost_write _ _ (hR.lost_write _ _ h)
    · exact h
  setModeTx {d} h := by
    rw [RF95.setModeTx]
    split_ifs
    · exact hR.lost_write _ _ (hR.lost_write _ _ h)
    · exact h

theorem act_lost (hR : Tells regs lost R) (irqFlags : UInt8) (h : lost d.link) :
    lost (d.act irqFlags).link := by
  rw [act]
  split_ifs
  · exact h
  · exact (lost_stable hR).handlePacket h
  · exact (lost_stable hR).setModeIdle h
  · exact h

theorem configure_lost (hR : Tells regs lost R) (h : lost d.link) : lost d.configure.link := by
  have hw : ∀ {d : RF95 σ} {reg val : UInt8}, lost d.link → lost (d.write reg val).link :=
    fun hl => hR.lost_write _ _ hl
  have hbases : lost ((d.write Reg.fifoTxBaseAddr 0).write Reg.fifoRxBaseAddr 0).link := hw (hw h)
  have hidle := (lost_stable hR).setModeIdle hbases
  exact hw (hw (hw (hw (hw (hw (hw (hw (hw (hw hidle)))))))))

theorem set_lost (hR : Tells regs lost R) (q : Setting) (h : lost d.link) :
    lost (d.set q).link := by
  have hw : ∀ {d : RF95 σ} {reg val : UInt8}, lost d.link → lost (d.write reg val).link :=
    fun hl => hR.lost_write _ _ hl
  cases q with
  | txPower power useRFO =>
    rw [set, setTxPower]
    dsimp only
    split_ifs
    · exact hw h
    · exact hw (hw h)
    · exact hw (hw h)
  | frequency centre => exact hw (hw (hw h))
  | modemConfig index => exact hw (hw (hw h))
  | modemRegisters config => exact hw (hw (hw h))
  | preambleLength bytes => exact hw (hw h)
  | _ => exact h

theorem serve_lost (hR : Tells regs lost R) {q : Request} {o : Outcome} {e : RF95 σ}
    (hq : d.serve q = some (o, e)) (h : lost d.link) : lost e.link := by
  have hs := lost_stable hR
  cases q with
  | setting s =>
    obtain ⟨-, rfl⟩ := Prod.mk.inj (Option.some.inj hq)
    exact set_lost hR s h
  | operation op =>
    have hp : d.perform op = some e := by
      rw [← serve_operation, hq]
      rfl
    cases op with
    | init => exact Option.some.inj hp ▸ hs.init (fun hl => hR.lost_write _ _ hl) h
    | available => exact Option.some.inj hp ▸ hs.available h
    | recv dest => exact Option.some.inj hp ▸ hs.recv h dest
    | send rounds data =>
      obtain ⟨r, hr, rfl⟩ := Option.map_eq_some_iff.mp hp
      exact hs.send hr h
    | waitPacketSent rounds => exact hs.waitPacketSent hp h
    | sleep => exact Option.some.inj hp ▸ hs.sleep h
    | setModeIdle => exact Option.some.inj hp ▸ hs.setModeIdle h
    | setModeRx => exact Option.some.inj hp ▸ hs.setModeRx h
    | setModeTx => exact Option.some.inj hp ▸ hs.setModeTx h

/-- The driver is the same over both links, or the first is lost. -/
def Together (lost : σ → Prop) (R : σ → τ → Prop) (d : RF95 σ) (d' : RF95 τ) : Prop :=
  lost d.link ∨ d'.toMembers = d.toMembers ∧ R d.link d'.link

/-- A call with an answer: the same over both links, or the first is lost. -/
def Agrees {α : Type} (lost : σ → Prop) (R : σ → τ → Prop) (r : α × RF95 σ) (r' : α × RF95 τ) :
    Prop :=
  lost r.2.link ∨ r'.1 = r.1 ∧ r'.2.toMembers = r.2.toMembers ∧ R r.2.link r'.2.link

omit [HostLink σ] [HostLink τ] in
theorem Agrees.together {α : Type} {r : α × RF95 σ} {r' : α × RF95 τ} (h : Agrees lost R r r') :
    Together lost R r.2 r'.2 := h.imp_right And.right

/-! ### Register accesses -/

namespace Together

section Accesses

variable (hR : Tells regs lost R) (h : Together lost R d d')

include hR h

theorem uartAvailable : Agrees lost R d.uartAvailable d'.uartAvailable := by
  rcases h with hl | ⟨hm, hr⟩
  · exact .inl (hR.lost_uartAvailable hl)
  · exact (hR.uartAvailable hr).imp_right fun ⟨ha, hr'⟩ => ⟨ha, hm, hr'⟩

theorem uartRead : Agrees lost R d.uartRead d'.uartRead := by
  rcases h with hl | ⟨hm, hr⟩
  · exact .inl (hR.lost_uartRead hl)
  · exact (hR.uartRead hr).imp_right fun ⟨ha, hr'⟩ => ⟨ha, hm, hr'⟩

theorem read {reg : UInt8} (hreg : reg ∈ regs) : Agrees lost R (d.read reg) (d'.read reg) := by
  rcases h with hl | ⟨hm, hr⟩
  · exact .inl (hR.lost_read reg hl)
  · exact (hR.read reg hreg hr).imp_right fun ⟨ha, hr'⟩ => ⟨ha, hm, hr'⟩

theorem write {reg : UInt8} (hreg : reg ∈ regs) (val : UInt8) :
    Together lost R (d.write reg val) (d'.write reg val) := by
  rcases h with hl | ⟨hm, hr⟩
  · exact .inl (hR.lost_write reg val hl)
  · exact (hR.write reg val hreg hr).imp_right fun hr' => ⟨hm, hr'⟩

theorem burstRead {reg : UInt8} (hreg : reg ∈ regs) (len : UInt8) :
    Together lost R (d.burstRead reg len) (d'.burstRead reg len) := by
  rcases h with hl | ⟨hm, hr⟩
  · exact .inl (hR.lost_burstRead reg len hl)
  · refine (hR.burstRead reg len hreg hr).imp_right fun ⟨ha, hr'⟩ => ⟨?_, hr'⟩
    simp only [RF95.burstRead, ha, hm]

theorem burstWrite {reg : UInt8} (hreg : reg ∈ regs) (data : List UInt8) :
    Together lost R (d.burstWrite reg data) (d'.burstWrite reg data) := by
  rcases h with hl | ⟨hm, hr⟩
  · exact .inl (hR.lost_burstWrite reg data hl)
  · exact (hR.burstWrite reg data hreg hr).imp_right fun hr' => ⟨hm, hr'⟩

omit [HostLink σ] [HostLink τ] hR in
/-- A change of the members. -/
theorem members (f : Members → Members) :
    Together lost R { toMembers := f d.toMembers, link := d.link }
      { toMembers := f d'.toMembers, link := d'.link } :=
  h.imp_right fun ⟨hm, hr⟩ => ⟨congrArg f hm, hr⟩

end Accesses

/-! ### Operations -/

section Operations

variable (hR : Tells regs lost R) (hwork : workRegs ⊆ regs) (h : Together lost R d d')

include hR hwork h

theorem setModeIdle : Together lost R d.setModeIdle d'.setModeIdle := by
  rcases h with hl | ⟨hm, hr⟩
  · exact .inl ((lost_stable hR).setModeIdle hl)
  · rw [RF95.setModeIdle, RF95.setModeIdle, hm]
    split_ifs
    · exact (write hR (.inr ⟨hm, hr⟩) (hwork (by decide)) _).members
        fun m => { m with mode := .idle }
    · exact .inr ⟨hm, hr⟩

theorem sleep : Together lost R d.sleep d'.sleep := by
  rcases h with hl | ⟨hm, hr⟩
  · exact .inl ((lost_stable hR).sleep hl)
  · rw [RF95.sleep, RF95.sleep, hm]
    split_ifs
    · exact (write hR (.inr ⟨hm, hr⟩) (hwork (by decide)) _).members
        fun m => { m with mode := .sleep }
    · exact .inr ⟨hm, hr⟩

theorem setModeRx : Together lost R d.setModeRx d'.setModeRx := by
  rcases h with hl | ⟨hm, hr⟩
  · exact .inl ((lost_stable hR).setModeRx hl)
  · rw [RF95.setModeRx, RF95.setModeRx, hm]
    split_ifs
    · have hop := write hR (.inr ⟨hm, hr⟩) (hwork (show Reg.opMode ∈ workRegs by decide))
        modeRxContinuous
      exact (write hR hop (hwork (by decide)) _).members fun m => { m with mode := .rx }
    · exact .inr ⟨hm, hr⟩

theorem setModeTx : Together lost R d.setModeTx d'.setModeTx := by
  rcases h with hl | ⟨hm, hr⟩
  · exact .inl ((lost_stable hR).setModeTx hl)
  · rw [RF95.setModeTx, RF95.setModeTx, hm]
    split_ifs
    · have hop := write hR (.inr ⟨hm, hr⟩) (hwork (show Reg.opMode ∈ workRegs by decide)) modeTx
      exact (write hR hop (hwork (by decide)) _).members fun m => { m with mode := .tx }
    · exact .inr ⟨hm, hr⟩

omit [HostLink σ] [HostLink τ] hR hwork in
theorem validateRxBuf : Together lost R d.validateRxBuf d'.validateRxBuf := by
  rcases h with hl | ⟨hm, hr⟩
  · refine .inl ?_
    rw [validateRxBuf_link]
    exact hl
  · refine .inr ⟨?_, ?_⟩
    · have hheaders : d'.extractHeaders.toMembers = d.extractHeaders.toMembers := by
        simp only [extractHeaders, hm]
      simp only [RF95.validateRxBuf, hheaders, hm]
      split_ifs
      · exact hm
      · simp only [extractHeaders]
      · exact hheaders
    · rw [validateRxBuf_link, validateRxBuf_link]
      exact hr

theorem fetched : Together lost R d.fetched d'.fetched := by
  -- a link that is lost by the time the two answers are in is so at the end
  have hrest : ∀ {d : RF95 σ} (len addr : UInt8), lost d.link →
      lost ({ (d.write Reg.fifoAddrPtr addr).burstRead Reg.fifo len with
        bufLen := len }.write Reg.irqFlags 0xff).link :=
    fun len addr hl => hR.lost_write _ _ (hR.lost_burstRead _ _ (hR.lost_write _ _ hl))
  have hlen := read hR h (hwork (show Reg.rxNbBytes ∈ workRegs by decide))
  have haddr := read hR hlen.together (hwork (show Reg.fifoRxCurrentAddr ∈ workRegs by decide))
  rcases haddr with hl | ⟨haddr, hm, hr⟩
  · exact .inl (hrest _ _ hl)
  rcases hlen with hl | ⟨hlen, -, -⟩
  · exact .inl (hrest _ _ (hR.lost_read _ hl))
  · rw [RF95.fetched, RF95.fetched]
    dsimp only
    rw [hlen, haddr]
    have hptr := write hR (.inr ⟨hm, hr⟩) (hwork (show Reg.fifoAddrPtr ∈ workRegs by decide))
      ((d.read Reg.rxNbBytes).2.read Reg.fifoRxCurrentAddr).1
    have hburst := (burstRead hR hptr (hwork (show Reg.fifo ∈ workRegs by decide))
      (d.read Reg.rxNbBytes).1).members fun m => { m with bufLen := (d.read Reg.rxNbBytes).1 }
    exact write hR hburst (hwork (by decide)) 0xff

theorem fetchPacket : Together lost R d.fetchPacket d'.fetchPacket := by
  rw [fetchPacket_eq, fetchPacket_eq]
  rcases read hR (fetched hR hwork h) (hwork (show Reg.pktRssiValue ∈ workRegs by decide)) with
    hl | ⟨hrssi, hm, hr⟩
  · exact .inl hl
  · rw [hrssi]
    exact members (.inr ⟨hm, hr⟩) fun m =>
      { m with lastRssi := (d.fetched.read Reg.pktRssiValue).1 - 137 }

theorem handlePacket : Together lost R d.handlePacket d'.handlePacket := by
  have hbuf := validateRxBuf (fetchPacket hR hwork h)
  -- the flag that decides on the mode is a member, so the same over both links
  rcases hbuf with hl | ⟨hm, hr⟩
  · refine .inl ?_
    rw [RF95.handlePacket]
    split_ifs
    · exact (lost_stable hR).setModeIdle hl
    · exact hl
  · rw [RF95.handlePacket, RF95.handlePacket, hm]
    split_ifs
    · exact setModeIdle hR hwork (.inr ⟨hm, hr⟩)
    · exact .inr ⟨hm, hr⟩

theorem act (irqFlags : UInt8) : Together lost R (d.act irqFlags) (d'.act irqFlags) := by
  rcases h with hl | ⟨hm, hr⟩
  · exact .inl (act_lost hR irqFlags hl)
  · rw [RF95.act, RF95.act, hm]
    split_ifs
    · exact .inr ⟨rfl, hr⟩
    · exact handlePacket hR hwork (.inr ⟨hm, hr⟩)
    · exact setModeIdle hR hwork (.inr ⟨rfl, hr⟩)
    · exact .inr ⟨hm, hr⟩

theorem handleInterrupt : Together lost R d.handleInterrupt d'.handleInterrupt := by
  rw [handleInterrupt_eq, handleInterrupt_eq]
  rcases read hR h (hwork (show Reg.irqFlags ∈ workRegs by decide)) with hl | ⟨hflags, hm, hr⟩
  · exact .inl (hR.lost_write _ _ (act_lost hR _ hl))
  · rw [hflags]
    exact write hR (act hR hwork (.inr ⟨hm, hr⟩) _) (hwork (by decide)) _

theorem poll : Together lost R d.poll d'.poll := by
  have hs := lost_stable hR
  rw [RF95.poll, RF95.poll]
  dsimp only
  rcases uartAvailable hR h with hl | ⟨hany, hm, hr⟩
  · refine .inl ?_
    split_ifs
    · exact hs.handleInterrupt (hs.uartRead hl)
    · exact hs.uartRead hl
    · exact hl
  · rw [hany]
    by_cases hc : d.uartAvailable.1 = true
    · rw [if_pos hc, if_pos hc]
      rcases uartRead hR (.inr ⟨hm, hr⟩) with hl | ⟨hoctet, hm, hr⟩
      · refine .inl ?_
        split_ifs
        · exact hs.handleInterrupt hl
        · exact hl
      · rw [hoctet]
        split_ifs
        · exact handleInterrupt hR hwork (.inr ⟨hm, hr⟩)
        · exact .inr ⟨hm, hr⟩
    · rw [if_neg hc, if_neg hc]
      exact .inr ⟨hm, hr⟩

theorem available : Agrees lost R d.available d'.available := by
  rw [available_eq, available_eq]
  rcases poll hR hwork h with hl | ⟨hm, hr⟩
  · refine .inl ?_
    split_ifs
    · exact hl
    · exact (lost_stable hR).setModeRx hl
  · rw [hm]
    split_ifs
    · exact .inr ⟨rfl, hm, hr⟩
    · rcases setModeRx hR hwork (.inr ⟨hm, hr⟩) with hl | hrx
      · exact .inl hl
      · exact .inr ⟨rfl, hrx⟩

theorem recv (dest : Option UInt8) : Agrees lost R (d.recv dest) (d'.recv dest) := by
  rw [recv_eq, recv_eq]
  rcases available hR hwork h with hl | ⟨ha, hm, hr⟩
  · refine .inl ?_
    split_ifs
    · exact hl
    · exact hl
  · rw [ha, hm]
    split_ifs
    · exact .inr ⟨rfl, congrArg (fun m : Members => { m with rxBufValid := false, bufLen := 0 }) hm,
        hr⟩
    · exact .inr ⟨rfl, hm, hr⟩

omit h in
theorem wait {n : ℕ} : ∀ {d : RF95 σ} {d' : RF95 τ}, Together lost R d d' →
    Together lost R (d.wait n) (d'.wait n) := by
  induction n with
  | zero => exact fun h => h
  | succ n ih =>
    intro d d' h
    rw [RF95.wait, RF95.wait]
    rcases h with hl | ⟨hm, hr⟩
    · refine .inl ?_
      split_ifs
      · exact (lost_stable hR).wait ((lost_stable hR).available hl)
      · exact hl
    · rw [hm]
      split_ifs
      · exact ih (available hR hwork (.inr ⟨hm, hr⟩)).together
      · exact .inr ⟨hm, hr⟩

theorem transmit (data : List UInt8) : Together lost R (d.transmit data) (d'.transmit data) := by
  rcases h with hl | ⟨hm, hr⟩
  · exact .inl ((lost_stable hR).transmit hl data)
  have hidle := setModeIdle hR hwork (.inr ⟨hm, hr⟩)
  have hput : ∀ {d : RF95 σ} {d' : RF95 τ} (c : UInt8), Together lost R d d' →
      Together lost R (d.write Reg.fifo c) (d'.write Reg.fifo c) :=
    fun c h => write hR h (hwork (by decide)) c
  have hptr := write hR hidle (hwork (show Reg.fifoAddrPtr ∈ workRegs by decide)) 0
  have hheaders := hput d.txHeaderFlags (hput d.txHeaderId (hput d.txHeaderFrom
    (hput d.txHeaderTo hptr)))
  have hdata := burstWrite hR hheaders (hwork (show Reg.fifo ∈ workRegs by decide)) data
  have hlen := write hR hdata (hwork (show Reg.payloadLength ∈ workRegs by decide))
    (UInt8.ofNat (data.length + headerLen))
  have hsend := setModeTx hR hwork hlen
  simp only [RF95.transmit, write_members, setModeIdle_members, hm] at hsend ⊢
  exact hsend

end Operations

/-! ### Settings -/

section Settings

variable (hR : Tells regs lost R) (hconf : configRegs ⊆ regs) (h : Together lost R d d')

include hR hconf h

theorem setModemRegisters (config : ModemConfig) :
    Together lost R (d.setModemRegisters config) (d'.setModemRegisters config) :=
  write hR (write hR (write hR h (hconf (by decide)) _) (hconf (by decide)) _) (hconf (by decide)) _

theorem setPreambleLength (n : ℕ) :
    Together lost R (d.setPreambleLength n) (d'.setPreambleLength n) :=
  write hR (write hR h (hconf (by decide)) _) (hconf (by decide)) _

theorem setFrequency (n : ℕ) : Together lost R (d.setFrequency n) (d'.setFrequency n) :=
  write hR (write hR (write hR h (hconf (by decide)) _) (hconf (by decide)) _) (hconf (by decide)) _

theorem setTxPower (power : ℤ) (useRFO : Bool) :
    Together lost R (d.setTxPower power useRFO) (d'.setTxPower power useRFO) := by
  rw [RF95.setTxPower, RF95.setTxPower]
  dsimp only
  split_ifs
  · exact write hR h (hconf (by decide)) _
  · exact write hR (write hR h (hconf (by decide)) _) (hconf (by decide)) _
  · exact write hR (write hR h (hconf (by decide)) _) (hconf (by decide)) _

end Settings

/-! ### Everything the driver offers -/

section Requests

variable (hR : Tells regs lost R) (hwork : workRegs ⊆ regs) (hconf : configRegs ⊆ regs)
  (h : Together lost R d d')

include hR hwork hconf h

theorem configure : Together lost R d.configure d'.configure := by
  have htx := write hR h (hconf (show Reg.fifoTxBaseAddr ∈ configRegs by decide)) 0
  have hrx := write hR htx (hconf (show Reg.fifoRxBaseAddr ∈ configRegs by decide)) 0
  have hmodem := setModemRegisters hR hconf (setModeIdle hR hwork hrx)
    (modemConfigTable .bw125Cr45Sf128)
  have hpreamble := setPreambleLength hR hconf hmodem 8
  exact setTxPower hR hconf (setFrequency hR hconf hpreamble 868000000) 13 false

theorem init : Agrees lost R d.init d'.init := by
  have hop := hwork (show Reg.opMode ∈ workRegs by decide)
  have hsleep := write hR h hop (modeSleep ||| longRangeMode)
  rw [init_eq, init_eq]
  rcases read hR hsleep hop with hl | ⟨hmode, hm, hr⟩
  · refine .inl ?_
    split_ifs
    · exact hR.lost_read _ hl
    · exact configure_lost hR hl
  · rw [hmode]
    split_ifs
    · rcases read hR (.inr ⟨hm, hr⟩) hop with hl | ⟨-, hread⟩
      · exact .inl hl
      · exact .inr ⟨rfl, hread⟩
    · exact (configure hR hwork hconf (.inr ⟨hm, hr⟩)).imp_right fun hconf => ⟨rfl, hconf⟩

omit hwork in
theorem set (q : Setting) : Together lost R (d.set q) (d'.set q) := by
  cases q with
  | frequency centre => exact setFrequency hR hconf h centre
  | txPower power useRFO => exact setTxPower hR hconf h power useRFO
  | modemConfig index => exact setModemRegisters hR hconf h _
  | modemRegisters config => exact setModemRegisters hR hconf h config
  | preambleLength bytes => exact setPreambleLength hR hconf h bytes
  | thisAddress a => exact h.members fun m => { m with thisAddress := a }
  | promiscuous b => exact h.members fun m => { m with promiscuous := b }
  | headerTo a => exact h.members fun m => { m with txHeaderTo := a }
  | headerFrom a => exact h.members fun m => { m with txHeaderFrom := a }
  | headerId id => exact h.members fun m => { m with txHeaderId := id }
  | headerFlags set clear =>
    exact h.members fun m => { m with txHeaderFlags := m.txHeaderFlags &&& ~~~clear ||| set }

/-- A call returns the same over both links. -/
theorem serve {q : Request} {o : Outcome} {e : RF95 σ} (hq : d.serve q = some (o, e)) :
    lost e.link ∨ ∃ e', d'.serve q = some (o, e') ∧ e'.toMembers = e.toMembers ∧
      R e.link e'.link := by
  have hflag : ∀ {α : Type} {r : α × RF95 σ} {r' : α × RF95 τ} (f : α → Outcome),
      some (f r.1, r.2) = some (o, e) → Agrees lost R r r' →
      lost e.link ∨ ∃ e', some (f r'.1, r'.2) = some (o, e') ∧ e'.toMembers = e.toMembers ∧
        R e.link e'.link := by
    intro α r r' f hr h
    obtain ⟨rfl, rfl⟩ := Prod.mk.inj (Option.some.inj hr)
    exact h.imp_right fun ⟨ha, hm⟩ => ⟨r'.2, by rw [ha], hm⟩
  have hdone : ∀ {x : RF95 σ} {x' : RF95 τ} (c : Outcome),
      some (c, x) = some (o, e) → Together lost R x x' →
      lost e.link ∨ ∃ e', some (c, x') = some (o, e') ∧ e'.toMembers = e.toMembers ∧
        R e.link e'.link := by
    intro x x' c hx h
    obtain ⟨rfl, rfl⟩ := Prod.mk.inj (Option.some.inj hx)
    exact h.imp_right fun hm => ⟨x', rfl, hm⟩
  cases q with
  | setting s => exact hdone _ hq (set hR hconf h s)
  | operation op =>
    cases op with
    | init => exact hflag .flag hq (init hR hwork hconf h)
    | available => exact hflag .flag hq (available hR hwork h)
    | recv dest => exact hflag .message hq (recv hR hwork h dest)
    | send rounds data =>
      rw [RF95.serve, send, waitPacketSent_eq] at hq
      rw [RF95.serve, send, waitPacketSent_eq]
      by_cases hlen : maxMessageLen < data.length
      · rw [if_pos hlen] at hq ⊢
        exact hdone _ hq h
      · rw [if_neg hlen] at hq ⊢
        -- a wait that does not end over the first link is no call that returns
        by_cases htx : (d.wait rounds).mode = .tx
        · rw [if_pos htx] at hq
          cases hq
        · rw [if_neg htx] at hq
          have hwait := wait hR hwork (n := rounds) h
          have hsent := transmit hR hwork hwait data
          rcases hwait with hl | ⟨hm, -⟩
          · obtain ⟨rfl, rfl⟩ := Prod.mk.inj (Option.some.inj hq)
            exact .inl ((lost_stable hR).transmit hl data)
          · rw [hm, if_neg htx]
            exact hdone _ hq hsent
    | waitPacketSent rounds =>
      rw [RF95.serve, waitPacketSent_eq] at hq
      rw [RF95.serve, waitPacketSent_eq]
      by_cases htx : (d.wait rounds).mode = .tx
      · rw [if_pos htx] at hq
        cases hq
      · rw [if_neg htx] at hq
        have hwait := wait hR hwork (n := rounds) h
        rcases hwait with hl | ⟨hm, hr⟩
        · obtain ⟨rfl, rfl⟩ := Prod.mk.inj (Option.some.inj hq)
          exact .inl hl
        · rw [hm, if_neg htx]
          exact hdone _ hq (.inr ⟨hm, hr⟩)
    | sleep => exact hdone _ hq (sleep hR hwork h)
    | setModeIdle => exact hdone _ hq (setModeIdle hR hwork h)
    | setModeRx => exact hdone _ hq (setModeRx hR hwork h)
    | setModeTx => exact hdone _ hq (setModeTx hR hwork h)

end Requests

end Together

/-- What one driver returns, and where it ends, the other does as well, unless
the link of the first is lost. -/
theorem use_together (hR : Tells regs lost R) (hwork : workRegs ⊆ regs)
    (hconf : configRegs ⊆ regs) {qs : List Request} : ∀ {outs : List Outcome} {d : RF95 σ}
    {d' : RF95 τ} {r : List Outcome × RF95 σ}, Together lost R d d' →
      run use (outs, d) qs = some r →
        lost r.2.link ∨ ∃ e', run use (outs, d') qs = some (r.1, e') ∧
          e'.toMembers = r.2.toMembers ∧ R r.2.link e'.link := by
  induction qs with
  | nil =>
    intro outs d d' r h hrun
    rw [run_nil, Option.some_inj] at hrun
    subst hrun
    exact h.imp_right fun hm => ⟨d', rfl, hm⟩
  | cons q qs ih =>
    intro outs d d' r h hrun
    obtain ⟨r₁, h₁, hrest⟩ := run_cons.mp hrun
    obtain ⟨⟨o, e⟩, hq, rfl⟩ := Option.map_eq_some_iff.mp h₁
    rcases h.serve hR hwork hconf hq with hl | ⟨e', hq', hm⟩
    · -- lost with this call, and so at the end
      have hstep : ∀ (r₁ : List Outcome × RF95 σ) q r₂, lost r₁.2.link → use r₁ q = some r₂ →
          lost r₂.2.link := by
        intro r₁ q r₂ hl h₂
        obtain ⟨x, hx, rfl⟩ := Option.map_eq_some_iff.mp h₂
        exact serve_lost hR hx hl
      exact .inl (run_invariant hstep hl hrest)
    · refine (ih (.inr hm) hrest).imp_right ?_
      rintro ⟨e'', hrun', hm'⟩
      refine ⟨e'', run_cons.mpr ⟨(outs ++ [o], e'), ?_, hrun'⟩, hm'⟩
      rw [use, hq']
      rfl

end Together

end RF95

/-! ### Interactions -/

/-- What the driver asks of its link, with the answer. -/
inductive Interaction where
  | look (any : Bool)
  | take (c : UInt8)
  | read (reg val : UInt8)
  | write (reg val : UInt8)
  | burstRead (reg len : UInt8) (data : List UInt8)
  | burstWrite (reg : UInt8) (data : List UInt8)
  deriving DecidableEq

/-- The interaction, if it concerns a register, concerns one of these. -/
def Interaction.About (regs : List UInt8) : Interaction → Prop
  | .look _ | .take _ => True
  | .read reg _ | .write reg _ | .burstRead reg _ _ | .burstWrite reg _ => reg ∈ regs

/-- The link after an interaction; `none` if it answers otherwise. -/
def interact {σ : Type} [HostLink σ] (s : σ) : Interaction → Option σ
  | .look any =>
    if (HostLink.uartAvailable s).1 = any then some (HostLink.uartAvailable s).2 else none
  | .take c => if (HostLink.uartRead s).1 = c then some (HostLink.uartRead s).2 else none
  | .read reg val =>
    if (HostLink.read reg s).1 = val then some (HostLink.read reg s).2 else none
  | .write reg val => some (HostLink.write reg val s)
  | .burstRead reg len data =>
    if (HostLink.burstRead reg len s).1 = data then some (HostLink.burstRead reg len s).2 else none
  | .burstWrite reg data => some (HostLink.burstWrite reg data s)

/-- A record of interactions to be played back: those to come, whose answers
are given to whatever is asked, and those that have been. -/
structure Tape where
  toPlay : List Interaction
  played : List Interaction

namespace Tape

def next (t : Tape) (i : Interaction) : Tape where
  toPlay := t.toPlay.tail
  played := t.played ++ [i]

def looked (t : Tape) : Bool :=
  match t.toPlay with
  | .look any :: _ => any
  | _ => false

def taken (t : Tape) : UInt8 :=
  match t.toPlay with
  | .take c :: _ => c
  | _ => 0

def value (t : Tape) : UInt8 :=
  match t.toPlay with
  | .read _ val :: _ => val
  | _ => 0

def burst (t : Tape) : List UInt8 :=
  match t.toPlay with
  | .burstRead _ _ data :: _ => data
  | _ => []

instance : HostLink Tape where
  uartAvailable t := (t.looked, t.next (.look t.looked))
  uartRead t := (t.taken, t.next (.take t.taken))
  read reg t := (t.value, t.next (.read reg t.value))
  write reg val t := t.next (.write reg val)
  burstRead reg len t := (t.burst, t.next (.burstRead reg len t.burst))
  burstWrite reg data t := t.next (.burstWrite reg data)

/-- The tape has been asked for something else than what it holds. -/
def Strays (all : List Interaction) (t : Tape) : Prop := ¬ t.played <+: all

/-- The rest of the tape is what the link answers from here on. -/
def Plays {σ : Type} [HostLink σ] (all : List Interaction) (last : σ) (t : Tape) (s : σ) : Prop :=
  t.played ++ t.toPlay = all ∧ run interact s t.toPlay = some last

variable {σ : Type} [HostLink σ] {all : List Interaction} {last s : σ} {t : Tape}

theorem Strays.next (h : t.Strays all) (i : Interaction) : (t.next i).Strays all :=
  fun hp => h ((List.prefix_append _ _).trans hp)

theorem Plays.next (h : Plays all last t s) (i : Interaction) :
    (t.next i).Strays all ∨
      ∃ s', interact s i = some s' ∧ Plays all last (t.next i) s' := by
  -- what is asked is what the tape holds next, or the tape strays
  by_cases hp : (t.next i).played <+: all
  · right
    obtain ⟨hall, hrun⟩ := h
    rw [← hall, Tape.next, List.prefix_append_right_inj] at hp
    obtain ⟨rest, hrest⟩ := hp
    rw [List.singleton_append] at hrest
    rw [← hrest] at hrun
    obtain ⟨s', hs', hrun'⟩ := run_cons.mp hrun
    refine ⟨s', hs', ?_, ?_⟩
    · rw [Tape.next, ← hall, ← hrest, List.tail_cons, List.append_assoc, List.singleton_append]
    · rw [Tape.next, ← hrest, List.tail_cons]
      exact hrun'
  · exact .inl hp

/-- To the driver the tape is the link it is a record of. -/
theorem tells (all : List Interaction) (last : σ) (regs : List UInt8) :
    Tells regs (Strays all) (Plays all last) where
  lost_uartAvailable h := h.next _
  lost_uartRead h := h.next _
  lost_read _ h := h.next _
  lost_write _ _ h := h.next _
  lost_burstRead _ _ h := h.next _
  lost_burstWrite _ _ h := h.next _
  uartAvailable {t s} h := by
    refine (h.next (.look t.looked)).imp_right ?_
    rintro ⟨s', hs', hp⟩
    rw [interact, Option.ite_none_right_eq_some, Option.some_inj] at hs'
    exact ⟨hs'.1, hs'.2 ▸ hp⟩
  uartRead {t s} h := by
    refine (h.next (.take t.taken)).imp_right ?_
    rintro ⟨s', hs', hp⟩
    rw [interact, Option.ite_none_right_eq_some, Option.some_inj] at hs'
    exact ⟨hs'.1, hs'.2 ▸ hp⟩
  read {t s} reg _ h := by
    refine (h.next (.read reg t.value)).imp_right ?_
    rintro ⟨s', hs', hp⟩
    rw [interact, Option.ite_none_right_eq_some, Option.some_inj] at hs'
    exact ⟨hs'.1, hs'.2 ▸ hp⟩
  write {t s} reg val _ h := by
    refine (h.next (.write reg val)).imp_right ?_
    rintro ⟨s', hs', hp⟩
    exact Option.some.inj hs' ▸ hp
  burstRead {t s} reg len _ h := by
    refine (h.next (.burstRead reg len t.burst)).imp_right ?_
    rintro ⟨s', hs', hp⟩
    rw [interact, Option.ite_none_right_eq_some, Option.some_inj] at hs'
    exact ⟨hs'.1, hs'.2 ▸ hp⟩
  burstWrite {t s} reg data _ h := by
    refine (h.next (.burstWrite reg data)).imp_right ?_
    rintro ⟨s', hs', hp⟩
    exact Option.some.inj hs' ▸ hp

/-- The driver over a tape, and the registers on it. -/
theorem tells_about (regs : List UInt8) : Tells regs (fun _ : Tape => False)
    fun t t' : Tape => t' = t ∧ ∀ i ∈ t.played, i.About regs := by
  have hnext : ∀ {t t' : Tape} {i : Interaction}, t' = t ∧ (∀ i ∈ t.played, i.About regs) →
      i.About regs → ∀ j ∈ (t.next i).played, j.About regs := by
    intro t t' i h hi j hj
    rcases List.mem_append.mp hj with hj | hj
    · exact h.2 j hj
    · exact List.mem_singleton.mp hj ▸ hi
  exact {
    lost_uartAvailable := id
    lost_uartRead := id
    lost_read := fun _ => id
    lost_write := fun _ _ => id
    lost_burstRead := fun _ _ => id
    lost_burstWrite := fun _ _ => id
    uartAvailable := fun h => .inr ⟨h.1 ▸ rfl, h.1 ▸ rfl, hnext h trivial⟩
    uartRead := fun h => .inr ⟨h.1 ▸ rfl, h.1 ▸ rfl, hnext h trivial⟩
    read := fun _ hreg h => .inr ⟨h.1 ▸ rfl, h.1 ▸ rfl, hnext h hreg⟩
    write := fun _ _ hreg h => .inr ⟨h.1 ▸ rfl, hnext h hreg⟩
    burstRead := fun _ _ hreg h => .inr ⟨h.1 ▸ rfl, h.1 ▸ rfl, hnext h hreg⟩
    burstWrite := fun _ _ hreg h => .inr ⟨h.1 ▸ rfl, hnext h hreg⟩ }

end Tape

namespace RF95

/-- The registers of the radio that the driver knows. -/
def ownRegs : List UInt8 := workRegs ++ configRegs

/-- **What the driver makes of a record, it makes of every link that answers
as recorded**: it returns the same, and ends with the same members. -/
theorem use_follows {σ : Type} [HostLink σ] {m : Members} {all : List Interaction}
    {qs : List Request} {r : List Outcome × RF95 Tape} {s last : σ}
    (hrun : run use ([], { toMembers := m, link := ⟨all, []⟩ }) qs = some r)
    (hplayed : r.2.link.played = all) (hs : run interact s all = some last) :
    run use ([], { toMembers := m, link := s }) qs
      = some (r.1, { toMembers := r.2.toMembers, link := last }) := by
  have htogether : Together (Tape.Strays all) (Tape.Plays all last)
      { toMembers := m, link := ⟨all, []⟩ } { toMembers := m, link := s } :=
    .inr ⟨rfl, List.nil_append all, hs⟩
  rcases use_together (Tape.tells all last ownRegs) (List.subset_append_left _ _)
      (List.subset_append_right _ _) htogether hrun with hl | ⟨⟨m', s'⟩, hrun', hm, hall, hlast⟩
  · exact absurd (hplayed ▸ List.prefix_rfl) hl
  · -- nothing is left of the tape, so the link has come to its last state
    rw [hplayed, List.append_right_eq_self] at hall
    rw [hall, run_nil, Option.some_inj] at hlast
    rw [hrun', ← hlast, ← hm]

/-- The driver only asks for registers it knows. -/
theorem use_about {m : Members} {all : List Interaction} {qs : List Request}
    {r : List Outcome × RF95 Tape}
    (hrun : run use ([], { toMembers := m, link := ⟨all, []⟩ }) qs = some r) :
    ∀ i ∈ r.2.link.played, i.About ownRegs := by
  rcases use_together (Tape.tells_about ownRegs) (List.subset_append_left _ _)
      (List.subset_append_right _ _) (.inr ⟨rfl, rfl, by simp⟩) hrun with hl | ⟨_, -, -, -, h⟩
  · exact hl.elim
  · exact h

end RF95
