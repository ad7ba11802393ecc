/-
Links that record.

A link may keep more than the driver can see: the operating mode written last,
the flags that nobody has acted on.  Where the answers can be told from a part
of it, the driver does over the link what it does over that part, and what is
proved of the one holds of the other.

* `View` — the part of a link that answers;
* `view_undertake` — an operation over the link is the operation over the
  part; `view_perform` — also where it may not return.
-/
import RadioHead.RF95

/-- The register accesses over `s` are those over `f s`. -/
structure View {σ τ : Type} [HostLink σ] [HostLink τ] (f : σ → τ) : Prop where
  uartAvailable : ∀ s, HostLink.uartAvailable (f s)
    = ((HostLink.uartAvailable s).1, f (HostLink.uartAvailable s).2)
  uartRead : ∀ s, HostLink.uartRead (f s) = ((HostLink.uartRead s).1, f (HostLink.uartRead s).2)
  read : ∀ reg s, HostLink.read reg (f s)
    = ((HostLink.read reg s).1, f (HostLink.read reg s).2)
  write : ∀ reg val s, HostLink.write reg val (f s) = f (HostLink.write reg val s)
  burstRead : ∀ reg len s, HostLink.burstRead reg len (f s)
    = ((HostLink.burstRead reg len s).1, f (HostLink.burstRead reg len s).2)
  burstWrite : ∀ reg data s, HostLink.burstWrite reg data (f s) = f (HostLink.burstWrite reg data s)

namespace RF95

variable {σ τ : Type} [HostLink σ] [HostLink τ] {f : σ → τ}

omit [HostLink σ] [HostLink τ] in
/-- The driver over a part of its link. -/
def view (f : σ → τ) (d : RF95 σ) : RF95 τ := { toMembers := d.toMembers, link := f d.link }

/-! ### Register accesses -/

theorem view_uartAvailable (hf : View f) (d : RF95 σ) :
    (d.view f).uartAvailable = (d.uartAvailable.1, d.uartAvailable.2.view f) := by
  simp only [uartAvailable, view, hf.uartAvailable]

theorem view_uartRead (hf : View f) (d : RF95 σ) :
    (d.view f).uartRead = (d.uartRead.1, d.uartRead.2.view f) := by
  simp only [uartRead, view, hf.uartRead]

theorem view_read (hf : View f) (d : RF95 σ) (reg : UInt8) :
    (d.view f).read reg = ((d.read reg).1, (d.read reg).2.view f) := by
  simp only [read, view, hf.read]

theorem view_write (hf : View f) (d : RF95 σ) (reg val : UInt8) :
    (d.view f).write reg val = (d.write reg val).view f := by
  simp only [write, view, hf.write]

theorem view_burstRead (hf : View f) (d : RF95 σ) (reg len : UInt8) :
    (d.view f).burstRead reg len = (d.burstRead reg len).view f := by
  simp only [burstRead, view, hf.burstRead]

theorem view_burstWrite (hf : View f) (d : RF95 σ) (reg : UInt8) (data : List UInt8) :
    (d.view f).burstWrite reg data = (d.burstWrite reg data).view f := by
  simp only [burstWrite, view, hf.burstWrite]

/-! ### Operations -/

theorem view_setModeIdle (hf : View f) (d : RF95 σ) :
    (d.view f).setModeIdle = d.setModeIdle.view f := by
  have hmode : (d.view f).mode = d.mode := rfl
  rw [setModeIdle, setModeIdle, view_write hf, hmode]
  split_ifs <;> rfl

theorem view_sleep (hf : View f) (d : RF95 σ) : (d.view f).sleep = d.sleep.view f := by
  have hmode : (d.view f).mode = d.mode := rfl
  rw [sleep, sleep, view_write hf, hmode]
  split_ifs <;> rfl

theorem view_setModeRx (hf : View f) (d : RF95 σ) :
    (d.view f).setModeRx = d.setModeRx.view f := by
  have hmode : (d.view f).mode = d.mode := rfl
  rw [setModeRx, setModeRx, view_write hf, view_write hf, hmode]
  split_ifs <;> rfl

theorem view_setModeTx (hf : View f) (d : RF95 σ) :
    (d.view f).setModeTx = d.setModeTx.view f := by
  have hmode : (d.view f).mode = d.mode := rfl
  rw [setModeTx, setModeTx, view_write hf, view_write hf, hmode]
  split_ifs <;> rfl

omit [HostLink σ] [HostLink τ] in
theorem view_validateRxBuf (d : RF95 σ) : (d.view f).validateRxBuf = d.validateRxBuf.view f := by
  have hlen : (d.view f).bufLen = d.bufLen := rfl
  have hheaders : (d.view f).extractHeaders = d.extractHeaders.view f := rfl
  have hmembers : (d.extractHeaders.view f).toMembers = d.extractHeaders.toMembers := rfl
  rw [validateRxBuf, validateRxBuf, hlen, hheaders, hmembers]
  split_ifs <;> rfl

theorem view_fetchPacket (hf : View f) (d : RF95 σ) :
    (d.view f).fetchPacket = d.fetchPacket.view f := by
  have hlen : ∀ (d : RF95 σ) len,
      { d.view f with bufLen := len } = { d with bufLen := len }.view f := fun _ _ => rfl
  simp only [fetchPacket, view_read hf, view_write hf, view_burstRead hf, hlen]
  rfl

theorem view_handlePacket (hf : View f) (d : RF95 σ) :
    (d.view f).handlePacket = d.handlePacket.view f := by
  have hvalid : ∀ d : RF95 σ, (d.view f).rxBufValid = d.rxBufValid := fun _ => rfl
  rw [handlePacket, handlePacket, view_fetchPacket hf, view_validateRxBuf, view_setModeIdle hf,
    hvalid]
  split_ifs <;> rfl

theorem view_handleInterrupt (hf : View f) (d : RF95 σ) :
    (d.view f).handleInterrupt = d.handleInterrupt.view f := by
  have hmode : ∀ d : RF95 σ, (d.view f).mode = d.mode := fun _ => rfl
  simp only [handleInterrupt, view_read hf, hmode]
  rw [← view_write hf]
  congr 1
  split_ifs
  · rfl
  · exact view_handlePacket hf _
  · exact view_setModeIdle hf { (d.read Reg.irqFlags).2 with txGood := d.txGood + 1 }
  · rfl

theorem view_poll (hf : View f) (d : RF95 σ) : (d.view f).poll = d.poll.view f := by
  simp only [poll, view_uartAvailable hf, view_uartRead hf, view_handleInterrupt hf]
  split_ifs <;> rfl

theorem view_available (hf : View f) (d : RF95 σ) :
    (d.view f).available = (d.available.1, d.available.2.view f) := by
  have hmode : (d.poll.view f).mode = d.poll.mode := rfl
  rw [available_eq, available_eq, view_poll hf, view_setModeRx hf, hmode]
  split_ifs <;> rfl

theorem view_recv (hf : View f) (d : RF95 σ) (dest : Option UInt8) :
    (d.view f).recv dest = ((d.recv dest).1, (d.recv dest).2.view f) := by
  rw [recv_eq, recv_eq, view_available hf]
  split_ifs <;> rfl

theorem view_wait (hf : View f) {n : ℕ} : ∀ d : RF95 σ, (d.view f).wait n = (d.wait n).view f := by
  have hmode : ∀ d : RF95 σ, (d.view f).mode = d.mode := fun _ => rfl
  induction n with
  | zero => exact fun _ => rfl
  | succ n ih =>
    intro d
    rw [wait, wait, view_available hf, ih, hmode]
    split_ifs <;> rfl

theorem view_transmit (hf : View f) (d : RF95 σ) (data : List UInt8) :
    (d.view f).transmit data = (d.transmit data).view f := by
  have hmembers : ∀ d : RF95 σ, (d.view f).toMembers = d.toMembers := fun _ => rfl
  simp only [transmit, view_setModeIdle hf, view_write hf, view_burstWrite hf, view_setModeTx hf,
    hmembers]

theorem view_init (hf : View f) (d : RF95 σ) :
    (d.view f).init = (d.init.1, d.init.2.view f) := by
  simp only [init, view_write hf, view_read hf, view_setModeIdle hf, setModemConfig,
    setModemRegisters, setPreambleLength, setFrequency, setTxPower]
  split_ifs <;> rfl

/-- **An operation over the link is the operation over the part that
answers.** -/
theorem view_undertake (hf : View f) (d : RF95 σ) (op : Operation) :
    (d.view f).undertake op = (d.undertake op).view f := by
  have hmode : ∀ d : RF95 σ, (d.view f).mode = d.mode := fun _ => rfl
  cases op with
  | init => exact congrArg Prod.snd (view_init hf d)
  | available => exact congrArg Prod.snd (view_available hf d)
  | recv dest => exact congrArg Prod.snd (view_recv hf d dest)
  | send rounds data =>
    rw [undertake, undertake, view_wait hf, view_transmit hf, hmode]
    split_ifs <;> rfl
  | waitPacketSent rounds => exact view_wait hf d
  | sleep => exact view_sleep hf d
  | setModeIdle => exact view_setModeIdle hf d
  | setModeRx => exact view_setModeRx hf d
  | setModeTx => exact view_setModeTx hf d

/-- Whether it returns is told from the part as well. -/
theorem view_perform (hf : View f) (d : RF95 σ) (op : Operation) :
    (d.view f).perform op = (d.perform op).map (view f) := by
  have hmode : ∀ d : RF95 σ, (d.view f).mode = d.mode := fun _ => rfl
  have hund := view_undertake hf d op
  cases op with
  | send rounds data =>
    rw [perform, perform, send, send, waitPacketSent_eq, waitPacketSent_eq, view_wait hf, hmode]
    split_ifs
    · rfl
    · rfl
    · exact congrArg some (view_transmit hf _ data)
  | waitPacketSent rounds =>
    rw [perform, perform, waitPacketSent_eq, waitPacketSent_eq, view_wait hf, hmode]
    split_ifs <;> rfl
  | _ => exact congrArg some hund

end RF95
