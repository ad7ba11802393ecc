/-
The driver of the radio: `RH_RF95` over `RHGenericDriver`.

The driver keeps the operating mode, the headers of the next message to send
and of the last one received, and a single receive buffer.  Everything it
knows about the radio comes through the register accesses of `RHUartDriver`
and its look at the serial line; `HostLink` is that interface, and the driver
is modelled over any state `σ` behind it.

* `RF95` — the driver's members;
* `handleInterrupt`, `available`, `recv`, `send`, `waitPacketSent`, `init`,
  `sleep` — its operations, in the source's order of register accesses;
* `write_members` and the lemmas after it — which members an operation can
  change;
* `Call`, `step` — a call of the driver, and what happens between two calls;
* `Operation`, `perform` — its operations, one at a time;
* `Setting`, `Request`, `serve` — everything the driver offers, and what it
  returns.
-/
import RadioHead.Lib.Memory
import RadioHead.Wire

open Wire

/-- What `RHUartDriver` offers the driver above it: a look at the serial line,
and the register accesses. -/
class HostLink (σ : Type) where
  uartAvailable : σ → Bool × σ
  uartRead : σ → UInt8 × σ
  read : UInt8 → σ → UInt8 × σ
  write : UInt8 → UInt8 → σ → σ
  burstRead : UInt8 → UInt8 → σ → List UInt8 × σ
  burstWrite : UInt8 → List UInt8 → σ → σ

/-- `RHGenericDriver::RHMode`. -/
inductive RHMode where
  | initialising
  | sleep
  | idle
  | tx
  | rx
  deriving DecidableEq, Repr

/-- `RH_BROADCAST_ADDRESS`. -/
def broadcastAddress : UInt8 := 0xff

/-! ### Registers of the radio -/

namespace Reg

def fifo : UInt8 := 0x00
def opMode : UInt8 := 0x01
def frfMsb : UInt8 := 0x06
def frfMid : UInt8 := 0x07
def frfLsb : UInt8 := 0x08
def paConfig : UInt8 := 0x09
def fifoAddrPtr : UInt8 := 0x0d
def fifoTxBaseAddr : UInt8 := 0x0e
def fifoRxBaseAddr : UInt8 := 0x0f
def fifoRxCurrentAddr : UInt8 := 0x10
def irqFlags : UInt8 := 0x12
def rxNbBytes : UInt8 := 0x13
def pktRssiValue : UInt8 := 0x1a
def modemConfig1 : UInt8 := 0x1d
def modemConfig2 : UInt8 := 0x1e
def preambleMsb : UInt8 := 0x20
def preambleLsb : UInt8 := 0x21
def payloadLength : UInt8 := 0x22
def modemConfig3 : UInt8 := 0x26
def dioMapping1 : UInt8 := 0x40
def paDac : UInt8 := 0x4d

end Reg

def longRangeMode : UInt8 := 0x80
def modeSleep : UInt8 := 0x00
def modeStdby : UInt8 := 0x01
def modeTx : UInt8 := 0x03
def modeRxContinuous : UInt8 := 0x05

/-- Bits of the IRQ flags register. -/
def rxTimeout : UInt8 := 0x80
def rxDone : UInt8 := 0x40
def payloadCrcError : UInt8 := 0x20
def txDone : UInt8 := 0x08

/-- Values of the power amplifier registers. -/
def paSelect : UInt8 := 0x80
def maxPower : UInt8 := 0x70
def paDacDisable : UInt8 := 0x04
def paDacEnable : UInt8 := 0x07

/-- `RH_RF95_FXOSC`, in Hz. -/
def fxosc : ℕ := 32000000

/-- `RH_RF95_HEADER_LEN`. -/
def headerLen : ℕ := 4

/-- `RH_RF95_MAX_MESSAGE_LEN`. -/
def maxMessageLen : ℕ := 251

/-- The members of `RH_RF95` and its base classes. -/
structure Members where
  mode : RHMode
  thisAddress : UInt8
  promiscuous : Bool
  rxHeaderTo : UInt8
  rxHeaderFrom : UInt8
  rxHeaderId : UInt8
  rxHeaderFlags : UInt8
  txHeaderTo : UInt8
  txHeaderFrom : UInt8
  txHeaderId : UInt8
  txHeaderFlags : UInt8
  lastRssi : UInt8
  rxBad : UInt16
  rxGood : UInt16
  txGood : UInt16
  bufLen : UInt8
  buf : Mem
  rxBufValid : Bool

/-- The members as the constructors leave them; those they do not set are zero,
as for a driver that is a global object. -/
def Members.constructed : Members where
  mode := .initialising
  thisAddress := broadcastAddress
  promiscuous := false
  rxHeaderTo := 0
  rxHeaderFrom := 0
  rxHeaderId := 0
  rxHeaderFlags := 0
  txHeaderTo := broadcastAddress
  txHeaderFrom := broadcastAddress
  txHeaderId := 0
  txHeaderFlags := 0
  lastRssi := 0
  rxBad := 0
  rxGood := 0
  txGood := 0
  bufLen := 0
  buf := fun _ => 0
  rxBufValid := false

/-- The driver: its members, and the state of what lies behind the link. -/
structure RF95 (σ : Type) extends Members where
  link : σ

namespace RF95

variable {σ : Type} [HostLink σ]

/-! ### Register accesses -/

def uartAvailable (d : RF95 σ) : Bool × RF95 σ :=
  ((HostLink.uartAvailable d.link).1, { d with link := (HostLink.uartAvailable d.link).2 })

def uartRead (d : RF95 σ) : UInt8 × RF95 σ :=
  ((HostLink.uartRead d.link).1, { d with link := (HostLink.uartRead d.link).2 })

def read (d : RF95 σ) (reg : UInt8) : UInt8 × RF95 σ :=
  ((HostLink.read reg d.link).1, { d with link := (HostLink.read reg d.link).2 })

def write (d : RF95 σ) (reg val : UInt8) : RF95 σ :=
  { d with link := HostLink.write reg val d.link }

/-- `burstRead` into the receive buffer. -/
def burstRead (d : RF95 σ) (reg len : UInt8) : RF95 σ :=
  { d with
    link := (HostLink.burstRead reg len d.link).2
    buf := d.buf.write 0 (HostLink.burstRead reg len d.link).1 }

def burstWrite (d : RF95 σ) (reg : UInt8) (data : List UInt8) : RF95 σ :=
  { d with link := HostLink.burstWrite reg data d.link }

/-! ### Modes -/

def setModeIdle (d : RF95 σ) : RF95 σ :=
  if d.mode ≠ .idle then { d.write Reg.opMode modeStdby with mode := .idle } else d

def sleep (d : RF95 σ) : RF95 σ :=
  if d.mode ≠ .sleep then { d.write Reg.opMode modeSleep with mode := .sleep } else d

def setModeRx (d : RF95 σ) : RF95 σ :=
  if d.mode ≠ .rx then
    { (d.write Reg.opMode modeRxContinuous).write Reg.dioMapping1 0x00 with mode := .rx }
  else d

def setModeTx (d : RF95 σ) : RF95 σ :=
  if d.mode ≠ .tx then
    { (d.write Reg.opMode modeTx).write Reg.dioMapping1 0x40 with mode := .tx }
  else d

/-! ### Configuration -/

/-- `setFrequency`, with the centre frequency in Hz: the frequency step is
`RH_RF95_FXOSC / 524288`. -/
def setFrequency (d : RF95 σ) (centre : ℕ) : RF95 σ :=
  let frf := centre * 524288 / fxosc
  ((d.write Reg.frfMsb (UInt8.ofNat (frf / 65536))).write Reg.frfMid
    (UInt8.ofNat (frf / 256))).write Reg.frfLsb (UInt8.ofNat frf)

/-- `setTxPower`. -/
def setTxPower (d : RF95 σ) (power : ℤ) (useRFO : Bool) : RF95 σ :=
  if useRFO then
    d.write Reg.paConfig (maxPower ||| UInt8.ofNat (max (-1) (min 14 power) + 1).toNat)
  else
    let power := max 5 (min 23 power)
    if 20 < power then
      (d.write Reg.paDac paDacEnable).write Reg.paConfig
        (paSelect ||| UInt8.ofNat (power - 3 - 5).toNat)
    else
      (d.write Reg.paDac paDacDisable).write Reg.paConfig
        (paSelect ||| UInt8.ofNat (power - 5).toNat)

/-- `ModemConfig`: values of the modem configuration registers. -/
structure ModemConfig where
  reg_1d : UInt8
  reg_1e : UInt8
  reg_26 : UInt8
  deriving DecidableEq, Repr

/-- `ModemConfigChoice`, the indices of the table of configurations. -/
inductive ModemConfigChoice where
  | bw125Cr45Sf128
  | bw500Cr45Sf128
  | bw31_25Cr48Sf512
  | bw125Cr48Sf4096
  deriving DecidableEq, Repr

/-- `MODEM_CONFIG_TABLE`. -/
def modemConfigTable : ModemConfigChoice → ModemConfig
  | .bw125Cr45Sf128 => ⟨0x72, 0x74, 0x00⟩
  | .bw500Cr45Sf128 => ⟨0x92, 0x74, 0x00⟩
  | .bw31_25Cr48Sf512 => ⟨0x48, 0x94, 0x00⟩
  | .bw125Cr48Sf4096 => ⟨0x78, 0xc4, 0x00⟩

/-- `setModemRegisters`. -/
def setModemRegisters (d : RF95 σ) (config : ModemConfig) : RF95 σ :=
  ((d.write Reg.modemConfig1 config.reg_1d).write Reg.modemConfig2 config.reg_1e).write
    Reg.modemConfig3 config.reg_26

/-- `setModemConfig`: every `ModemConfigChoice` is in the table, so the check
of the index does not fail. -/
def setModemConfig (d : RF95 σ) (index : ModemConfigChoice) : Bool × RF95 σ :=
  (true, d.setModemRegisters (modemConfigTable index))

/-- `setPreambleLength`. -/
def setPreambleLength (d : RF95 σ) (bytes : ℕ) : RF95 σ :=
  (d.write Reg.preambleMsb (UInt8.ofNat (bytes / 256))).write Reg.preambleLsb
    (UInt8.ofNat bytes)

/-- `init`: fails unless the radio reads back the sleep mode written to it. -/
def init (d : RF95 σ) : Bool × RF95 σ :=
  let d := d.write Reg.opMode (modeSleep ||| longRangeMode)
  let (mode, d) := d.read Reg.opMode
  if mode ≠ modeSleep ||| longRangeMode then
    -- the value is read once more, to print it
    let (_, d) := d.read Reg.opMode
    (false, d)
  else
    let d := (d.write Reg.fifoTxBaseAddr 0).write Reg.fifoRxBaseAddr 0
    let d := d.setModeIdle
    let (_, d) := d.setModemConfig .bw125Cr45Sf128
    let d := d.setPreambleLength 8
    let d := d.setFrequency 868000000
    let d := d.setTxPower 13 false
    (true, d)

/-! ### Receiving -/

/-- Whether the message in the buffer is for this node. -/
def accepts (d : Members) : Prop :=
  d.promiscuous = true ∨ d.rxHeaderTo = d.thisAddress ∨ d.rxHeaderTo = broadcastAddress

instance (d : Members) : Decidable (accepts d) :=
  inferInstanceAs (Decidable (_ ∨ _ ∨ _))

/-- The four headers, taken from the buffer. -/
def extractHeaders (d : RF95 σ) : RF95 σ :=
  { d with
    rxHeaderTo := d.buf 0
    rxHeaderFrom := d.buf 1
    rxHeaderId := d.buf 2
    rxHeaderFlags := d.buf 3 }

/-- `validateRxBuf`: a message too short to have headers is left alone, and so
is the flag. -/
def validateRxBuf (d : RF95 σ) : RF95 σ :=
  if d.bufLen < 4 then d
  else if accepts d.extractHeaders.toMembers then
    { d.extractHeaders with rxGood := d.rxGood + 1, rxBufValid := true }
  else d.extractHeaders

/-- The branch of `handleInterrupt` for a packet: fetch it into the buffer. -/
def fetchPacket (d : RF95 σ) : RF95 σ :=
  let (len, d) := d.read Reg.rxNbBytes
  let (addr, d) := d.read Reg.fifoRxCurrentAddr
  let d := d.write Reg.fifoAddrPtr addr
  let d := d.burstRead Reg.fifo len
  let d := { d with bufLen := len }
  let d := d.write Reg.irqFlags 0xff
  let (rssi, d) := d.read Reg.pktRssiValue
  { d with lastRssi := rssi - 137 }

/-- The IRQ flags of a packet received without error. -/
def goodPacket (irqFlags : UInt8) : Bool :=
  irqFlags &&& (rxTimeout ||| payloadCrcError) = 0 ∧ irqFlags &&& rxDone ≠ 0

/-- A packet has come in: fetch it, and stop receiving if it is a message for
this node. -/
def handlePacket (d : RF95 σ) : RF95 σ :=
  if d.fetchPacket.validateRxBuf.rxBufValid then d.fetchPacket.validateRxBuf.setModeIdle
  else d.fetchPacket.validateRxBuf

def handleInterrupt (d : RF95 σ) : RF95 σ :=
  let (irqFlags, d) := d.read Reg.irqFlags
  let d :=
    if d.mode = .rx ∧ irqFlags &&& (rxTimeout ||| payloadCrcError) ≠ 0 then
      { d with rxBad := d.rxBad + 1 }
    else if d.mode = .rx ∧ irqFlags &&& rxDone ≠ 0 then d.handlePacket
    else if d.mode = .tx ∧ irqFlags &&& txDone ≠ 0 then
      { d with txGood := d.txGood + 1 }.setModeIdle
    else d
  d.write Reg.irqFlags 0xff

/-- The look at the serial line that `available` starts with. -/
def poll (d : RF95 σ) : RF95 σ :=
  let (any, d) := d.uartAvailable
  if any then
    let (c, d) := d.uartRead
    if c = chI then d.handleInterrupt else d
  else d

def available (d : RF95 σ) : Bool × RF95 σ :=
  let d := d.poll
  if d.mode = .tx then (false, d)
  else
    let d := d.setModeRx
    (d.rxBufValid, d)

def clearRxBuf (d : RF95 σ) : RF95 σ := { d with rxBufValid := false, bufLen := 0 }

/-- `*len` after the clamp in `recv`: compared as `int`, stored as `uint8_t`. -/
def clampLen (len bufLen : UInt8) : UInt8 :=
  if (bufLen.toNat : ℤ) - headerLen < len.toNat then bufLen - 4 else len

/-- With its headers in place, a message is copied up to the shorter of the
caller's length and its own. -/
theorem clampLen_toNat {len bufLen : UInt8} (h : 4 ≤ bufLen.toNat) :
    (clampLen len bufLen).toNat = min len.toNat (bufLen.toNat - headerLen) := by
  have hsub : (bufLen - 4).toNat = bufLen.toNat - 4 := UInt8.toNat_sub_of_le _ _ h
  rw [clampLen, headerLen]
  split_ifs with hlt
  · rw [hsub]
    omega
  · omega

/-- `recv`: `none` when it returns false, else the octets copied to `buf`.
`dest` is the value of `*len` on entry, `none` for null pointers. -/
def recv (d : RF95 σ) (dest : Option UInt8) : Option (List UInt8) × RF95 σ :=
  let (any, d) := d.available
  if any then
    match dest with
    | some len => (some (d.buf.load headerLen (clampLen len d.bufLen).toNat), d.clearRxBuf)
    | none => (some [], d.clearRxBuf)
  else (none, d)

/-! ### Sending -/

/-- `waitPacketSent`, with a bound on the number of rounds: `none` if the
packet is still being sent after them. -/
def waitPacketSent : ℕ → RF95 σ → Option (RF95 σ)
  | 0, d => if d.mode = .tx then none else some d
  | n + 1, d => if d.mode = .tx then waitPacketSent n d.available.2 else some d

/-- The part of `send` after the wait: load the FIFO and start the
transmitter. -/
def transmit (d : RF95 σ) (data : List UInt8) : RF95 σ :=
  let d := d.setModeIdle
  let d := d.write Reg.fifoAddrPtr 0
  let d := d.write Reg.fifo d.txHeaderTo
  let d := d.write Reg.fifo d.txHeaderFrom
  let d := d.write Reg.fifo d.txHeaderId
  let d := d.write Reg.fifo d.txHeaderFlags
  let d := d.burstWrite Reg.fifo data
  let d := d.write Reg.payloadLength (UInt8.ofNat (data.length + headerLen))
  d.setModeTx

/-- `send`, waiting at most `rounds` rounds for an earlier packet. -/
def send (d : RF95 σ) (rounds : ℕ) (data : List UInt8) : Option (Bool × RF95 σ) :=
  if maxMessageLen < data.length then some (false, d)
  else (d.waitPacketSent rounds).map fun d => (true, d.transmit data)

/-! ### Members -/

@[simp] theorem uartAvailable_members (d : RF95 σ) :
    d.uartAvailable.2.toMembers = d.toMembers := rfl

@[simp] theorem uartRead_members (d : RF95 σ) : d.uartRead.2.toMembers = d.toMembers := rfl

@[simp] theorem read_members (d : RF95 σ) (reg : UInt8) :
    (d.read reg).2.toMembers = d.toMembers := rfl

@[simp] theorem write_members (d : RF95 σ) (reg val : UInt8) :
    (d.write reg val).toMembers = d.toMembers := rfl

@[simp] theorem burstWrite_members (d : RF95 σ) (reg : UInt8) (data : List UInt8) :
    (d.burstWrite reg data).toMembers = d.toMembers := rfl

theorem setModeIdle_members (d : RF95 σ) :
    d.setModeIdle.toMembers = { d.toMembers with mode := .idle } := by
  rw [setModeIdle]
  split_ifs with h
  · rfl
  · rw [← not_ne_iff.mp h]

theorem sleep_members (d : RF95 σ) :
    d.sleep.toMembers = { d.toMembers with mode := .sleep } := by
  rw [sleep]
  split_ifs with h
  · rfl
  · rw [← not_ne_iff.mp h]

theorem setModeRx_members (d : RF95 σ) :
    d.setModeRx.toMembers = { d.toMembers with mode := .rx } := by
  rw [setModeRx]
  split_ifs with h
  · rfl
  · rw [← not_ne_iff.mp h]

theorem setModeTx_members (d : RF95 σ) :
    d.setModeTx.toMembers = { d.toMembers with mode := .tx } := by
  rw [setModeTx]
  split_ifs with h
  · rfl
  · rw [← not_ne_iff.mp h]

theorem transmit_members (d : RF95 σ) (data : List UInt8) :
    (d.transmit data).toMembers = { d.toMembers with mode := .tx } := by
  simp only [transmit, setModeTx_members, write_members, burstWrite_members,
    setModeIdle_members]

theorem goodPacket_iff {f : UInt8} :
    goodPacket f = true ↔ f &&& (rxTimeout ||| payloadCrcError) = 0 ∧ f &&& rxDone ≠ 0 := by
  rw [goodPacket, decide_eq_true_iff]

/-- What the handler can do: fetch a packet received without error, or count a
bad one, or notice the end of a transmission, or nothing. -/
theorem handleInterrupt_cases (d : RF95 σ) :
    (d.mode = .rx ∧ goodPacket (d.read Reg.irqFlags).1 = true ∧
      d.handleInterrupt = (d.read Reg.irqFlags).2.handlePacket.write Reg.irqFlags 0xff) ∨
    (¬ (d.mode = .rx ∧ goodPacket (d.read Reg.irqFlags).1 = true) ∧
      (d.handleInterrupt
          = { (d.read Reg.irqFlags).2 with rxBad := d.rxBad + 1 }.write Reg.irqFlags 0xff ∨
        (d.mode = .tx ∧ d.handleInterrupt = ({ (d.read Reg.irqFlags).2 with
          txGood := d.txGood + 1 }.setModeIdle).write Reg.irqFlags 0xff) ∨
        d.handleInterrupt = (d.read Reg.irqFlags).2.write Reg.irqFlags 0xff)) := by
  have hrest : d.handleInterrupt = RF95.write
      (if d.mode = .rx ∧ (d.read Reg.irqFlags).1 &&& (rxTimeout ||| payloadCrcError) ≠ 0 then
        { (d.read Reg.irqFlags).2 with rxBad := d.rxBad + 1 }
      else if d.mode = .rx ∧ (d.read Reg.irqFlags).1 &&& rxDone ≠ 0 then
        (d.read Reg.irqFlags).2.handlePacket
      else if d.mode = .tx ∧ (d.read Reg.irqFlags).1 &&& txDone ≠ 0 then
        { (d.read Reg.irqFlags).2 with txGood := d.txGood + 1 }.setModeIdle
      else (d.read Reg.irqFlags).2) Reg.irqFlags 0xff := rfl
  rw [goodPacket_iff]
  split_ifs at hrest with h₁ h₂ h₃
  · exact .inr ⟨fun h => h₁.2 h.2.1, .inl hrest⟩
  · exact .inl ⟨h₂.1, ⟨by simpa [h₂.1] using h₁, h₂.2⟩, hrest⟩
  · exact .inr ⟨fun h => h₂ ⟨h.1, h.2.2⟩, .inr (.inl ⟨h₃.1, hrest⟩)⟩
  · exact .inr ⟨fun h => h₂ ⟨h.1, h.2.2⟩, .inr (.inr hrest)⟩

/-- While a packet is being sent, the handler looks for TX_DONE only. -/
theorem handleInterrupt_sending {d : RF95 σ} (h : d.mode = .tx) :
    d.handleInterrupt = RF95.write
      (if (d.read Reg.irqFlags).1 &&& txDone ≠ 0 then
        { (d.read Reg.irqFlags).2 with txGood := d.txGood + 1 }.setModeIdle
      else (d.read Reg.irqFlags).2) Reg.irqFlags 0xff := by
  have htx : (d.read Reg.irqFlags).2.mode = .tx := h
  simp only [handleInterrupt, htx, reduceCtorEq, false_and, if_false, true_and]
  rfl

/-- What `available` returns: not while sending, and else the flag. -/
theorem available_eq (d : RF95 σ) :
    d.available = if d.poll.mode = .tx then (false, d.poll)
      else (d.poll.rxBufValid, d.poll.setModeRx) := by
  rw [available]
  split_ifs
  · rfl
  · simp only [setModeRx_members]

/-- `available` handles at most one octet of the line. -/
theorem poll_cases (d : RF95 σ) :
    (d.uartAvailable.1 = true ∧ d.uartAvailable.2.uartRead.1 = chI ∧
      d.poll = d.uartAvailable.2.uartRead.2.handleInterrupt) ∨
    (¬ (d.uartAvailable.1 = true ∧ d.uartAvailable.2.uartRead.1 = chI) ∧
      (d.poll = d.uartAvailable.2 ∨ d.poll = d.uartAvailable.2.uartRead.2)) := by
  by_cases hany : d.uartAvailable.1 = true
  · by_cases hc : d.uartAvailable.2.uartRead.1 = chI
    · exact .inl ⟨hany, hc, by simp only [poll, if_pos hany, if_pos hc]⟩
    · exact .inr ⟨fun h => hc h.2, .inr (by simp only [poll, if_pos hany, if_neg hc])⟩
  · exact .inr ⟨fun h => hany h.1, .inl (by simp only [poll, if_neg hany])⟩

/-- A successful `init` only changes the mode. -/
theorem init_members {d : RF95 σ} (h : d.init.1 = true) :
    d.init.2.toMembers = { d.toMembers with mode := .idle } := by
  simp only [init] at h ⊢
  split_ifs with hm
  · simp [hm] at h
  · simp [setTxPower, setFrequency, setPreambleLength, setModemConfig, setModemRegisters,
      setModeIdle_members]

/-- The registers that a successful `init` configures. -/
def configRegs : List UInt8 :=
  [Reg.fifoTxBaseAddr, Reg.fifoRxBaseAddr, Reg.modemConfig1, Reg.modemConfig2, Reg.modemConfig3,
    Reg.preambleMsb, Reg.preambleLsb, Reg.frfMsb, Reg.frfMid, Reg.frfLsb, Reg.paConfig, Reg.paDac]

/-- What holds once `init` has read the sleep mode back, and is kept by
`setModeIdle` and by the writes to the registers it configures, holds after a
successful `init`. -/
theorem init_induct {P : RF95 σ → Prop} {d : RF95 σ} (hinit : d.init.1 = true)
    (hread : P ((d.write Reg.opMode (modeSleep ||| longRangeMode)).read Reg.opMode).2)
    (hidle : ∀ d, P d → P d.setModeIdle)
    (hwrite : ∀ d reg val, reg ∈ configRegs → P d → P (d.write reg val)) : P d.init.2 := by
  have hmodem : ∀ (d : RF95 σ) (index : ModemConfigChoice), P d → P (d.setModemConfig index).2 :=
    fun d index hd => hwrite _ _ _ (by decide) (hwrite _ _ _ (by decide)
      (hwrite _ _ _ (by decide) hd))
  have hpreamble : ∀ (d : RF95 σ) (n : ℕ), P d → P (d.setPreambleLength n) :=
    fun d n hd => hwrite _ _ _ (by decide) (hwrite _ _ _ (by decide) hd)
  have hfrequency : ∀ (d : RF95 σ) (n : ℕ), P d → P (d.setFrequency n) :=
    fun d n hd => hwrite _ _ _ (by decide) (hwrite _ _ _ (by decide)
      (hwrite _ _ _ (by decide) hd))
  have hpower : ∀ d : RF95 σ, P d → P (d.setTxPower 13 false) :=
    fun d hd => hwrite _ _ _ (by decide) (hwrite _ _ _ (by decide) hd)
  simp only [init] at hinit ⊢
  split_ifs with hm
  · simp [hm] at hinit
  · refine hpower _ (hfrequency _ _ (hpreamble _ _ (hmodem _ _ (hidle _ ?_))))
    exact hwrite _ _ _ (by decide) (hwrite _ _ _ (by decide) hread)

/-! ### Fetching a packet -/

/-- `available` is about to fetch a packet: the octet on the line and the IRQ
flags say there is one. -/
def Fetches (d : RF95 σ) : Prop :=
  d.uartAvailable.1 = true ∧ d.uartAvailable.2.uartRead.1 = chI ∧ d.mode = .rx ∧
    goodPacket (d.uartAvailable.2.uartRead.2.read Reg.irqFlags).1 = true

instance (d : RF95 σ) : Decidable d.Fetches :=
  inferInstanceAs (Decidable (_ ∧ _ ∧ _ ∧ _))

/-- The driver when the IRQ flags are read. -/
def flagsRead (d : RF95 σ) : RF95 σ := (d.uartAvailable.2.uartRead.2.read Reg.irqFlags).2

/-- The members other than the mode and the counters: what the driver knows of
the message received. -/
def received (d : RF95 σ) : Members :=
  { d.toMembers with mode := .idle, rxBad := 0, txGood := 0 }

omit [HostLink σ] in
/-- A member of the message received. -/
theorem received_congr {α : Type} (f : Members → α) {d d' : RF95 σ}
    (h : d'.received = d.received)
    (hf : ∀ m : Members, f { m with mode := .idle, rxBad := 0, txGood := 0 } = f m) :
    f d'.toMembers = f d.toMembers := by
  rw [← hf d'.toMembers, ← hf d.toMembers]
  exact congrArg f h

omit [HostLink σ] in
theorem validateRxBuf_mode (d : RF95 σ) : d.validateRxBuf.mode = d.mode := by
  rw [validateRxBuf]
  split_ifs <;> rfl

omit [HostLink σ] in
theorem validateRxBuf_link (d : RF95 σ) : d.validateRxBuf.link = d.link := by
  rw [validateRxBuf]
  split_ifs <;> rfl

omit [HostLink σ] in
/-- `validateRxBuf` does not touch the filter. -/
theorem validateRxBuf_filter (d : RF95 σ) :
    d.validateRxBuf.thisAddress = d.thisAddress ∧
      d.validateRxBuf.promiscuous = d.promiscuous := by
  rw [validateRxBuf]
  split_ifs <;> exact ⟨rfl, rfl⟩

theorem fetchPacket_mode (d : RF95 σ) : d.fetchPacket.mode = d.mode := rfl

/-- Neither does fetching a packet, nor does it set the flag. -/
theorem fetchPacket_filter (d : RF95 σ) :
    d.fetchPacket.thisAddress = d.thisAddress ∧ d.fetchPacket.promiscuous = d.promiscuous ∧
      d.fetchPacket.rxBufValid = d.rxBufValid := ⟨rfl, rfl, rfl⟩

theorem handlePacket_members (d : RF95 σ) :
    d.handlePacket.toMembers =
      { d.fetchPacket.validateRxBuf.toMembers with
        mode := if d.fetchPacket.validateRxBuf.rxBufValid then .idle else d.mode } := by
  rw [handlePacket]
  split_ifs
  · rw [setModeIdle_members]
  · rw [← fetchPacket_mode, ← validateRxBuf_mode]

theorem poll_fetches {d : RF95 σ} (h : d.Fetches) :
    d.poll = d.flagsRead.handlePacket.write Reg.irqFlags 0xff := by
  obtain ⟨hany, hc, hh⟩ := h
  rcases poll_cases d with ⟨-, -, hd⟩ | ⟨hno, -⟩
  · rcases handleInterrupt_cases d.uartAvailable.2.uartRead.2 with ⟨-, -, hd'⟩ | ⟨hno, -⟩
    · exact hd.trans hd'
    · exact absurd hh hno
  · exact absurd ⟨hany, hc⟩ hno

/-- `available` when it fetches a packet. -/
theorem available_fetches {d : RF95 σ} (h : d.Fetches) :
    d.available = (d.flagsRead.fetchPacket.validateRxBuf.rxBufValid,
      (d.flagsRead.handlePacket.write Reg.irqFlags 0xff).setModeRx) := by
  have htx : (d.flagsRead.handlePacket.write Reg.irqFlags 0xff).mode ≠ .tx := by
    rw [write_members, handlePacket_members]
    split_ifs
    · simp
    · rw [show d.flagsRead.mode = .rx from h.2.2.1]
      simp
  rw [available_eq, poll_fetches h, if_neg htx, write_members, handlePacket_members]

theorem available_received {d : RF95 σ} (h : d.Fetches) :
    d.available.2.received = d.flagsRead.fetchPacket.validateRxBuf.received := by
  rw [available_fetches h, received, setModeRx_members, write_members, handlePacket_members,
    received]

/-- A call of `poll` that fetches nothing. -/
theorem poll_still {d : RF95 σ} (h : ¬ d.Fetches) :
    d.poll.received = d.received ∧ (d.poll.mode = d.mode ∨ d.poll.mode = .idle) := by
  rcases poll_cases d with ⟨hany, hc, hd⟩ | ⟨-, hd | hd⟩
  · rcases handleInterrupt_cases d.uartAvailable.2.uartRead.2 with
      ⟨hrx, hgood, -⟩ | ⟨-, hd' | ⟨-, hd'⟩ | hd'⟩
    · exact absurd ⟨hany, hc, hrx, hgood⟩ h
    · rw [hd, hd']
      exact ⟨rfl, .inl rfl⟩
    · rw [hd, hd', received, write_members, setModeIdle_members]
      exact ⟨rfl, .inr rfl⟩
    · rw [hd, hd']
      exact ⟨rfl, .inl rfl⟩
  · rw [hd]
    exact ⟨rfl, .inl rfl⟩
  · rw [hd]
    exact ⟨rfl, .inl rfl⟩

theorem available_still {d : RF95 σ} (h : ¬ d.Fetches) :
    d.available.2.received = d.received := by
  rw [available_eq]
  split_ifs
  · exact (poll_still h).1
  · rw [received, setModeRx_members]
    exact (poll_still h).1

/-- `available` does not leave the driver sending if it was not. -/
theorem available_tx {d : RF95 σ} (h : d.available.2.mode = .tx) : d.mode = .tx := by
  by_cases hf : d.Fetches
  · rw [available_fetches hf, setModeRx_members] at h
    cases h
  · rw [available_eq] at h
    split_ifs at h with htx
    · rcases (poll_still hf).2 with hm | hm
      · exact hm ▸ htx
      · rw [hm] at htx
        cases htx
    · rw [setModeRx_members] at h
      cases h

/-- The driver is sending, and neither the octet on the line nor the IRQ flags
tell it that it is done. -/
def StillSending (d : RF95 σ) : Prop :=
  d.mode = .tx ∧ ¬ (d.uartAvailable.1 = true ∧ d.uartAvailable.2.uartRead.1 = chI ∧
    (d.uartAvailable.2.uartRead.2.read Reg.irqFlags).1 &&& txDone ≠ 0)

instance (d : RF95 σ) : Decidable d.StillSending := inferInstanceAs (Decidable (_ ∧ ¬ (_ ∧ _ ∧ _)))

theorem poll_sending {d : RF95 σ} (h : d.mode = .tx) :
    d.poll.mode = .tx ↔ ¬ (d.uartAvailable.1 = true ∧ d.uartAvailable.2.uartRead.1 = chI ∧
      (d.uartAvailable.2.uartRead.2.read Reg.irqFlags).1 &&& txDone ≠ 0) := by
  rcases poll_cases d with ⟨hany, hc, hd⟩ | ⟨hno, hd | hd⟩
  · have hmode : d.uartAvailable.2.uartRead.2.mode = .tx := h
    rw [hd, handleInterrupt_sending hmode, write_members]
    split_ifs with hdone
    · rw [setModeIdle_members]
      simp [hany, hc, hdone]
    · simpa [hdone] using h
  · rw [hd]
    exact ⟨fun _ hf => hno ⟨hf.1, hf.2.1⟩, fun _ => h⟩
  · rw [hd]
    exact ⟨fun _ hf => hno ⟨hf.1, hf.2.1⟩, fun _ => h⟩

/-- `available` leaves the driver sending exactly if it still is. -/
theorem available_tx_iff {d : RF95 σ} : d.available.2.mode = .tx ↔ d.StillSending := by
  refine ⟨fun h => ⟨available_tx h, (poll_sending (available_tx h)).mp ?_⟩, fun h => ?_⟩
  · rw [available_eq] at h
    split_ifs at h with hpoll
    · exact hpoll
    · rw [setModeRx_members] at h
      cases h
  · have hpoll := (poll_sending h.1).mpr h.2
    rw [available_eq, if_pos hpoll]
    exact hpoll

/-- `available` returns the flag, unless the driver is sending. -/
theorem available_fst {d : RF95 σ} (h : d.available.2.mode ≠ .tx) :
    d.available.1 = d.available.2.rxBufValid := by
  rw [available_eq] at h ⊢
  split_ifs at h ⊢ with htx
  · exact absurd htx h
  · rw [setModeRx_members]

theorem available_sending {d : RF95 σ} (h : d.available.2.mode = .tx) :
    d.available.1 = false := by
  rw [available_eq] at h ⊢
  split_ifs at h ⊢
  · rfl
  · rw [setModeRx_members] at h
    cases h

theorem available_valid {d : RF95 σ} (h : d.available.1 = true) :
    d.available.2.rxBufValid = true := by
  rw [available_eq] at h ⊢
  split_ifs at h ⊢
  · rw [setModeRx_members]
    exact h

/-- While a packet is being sent none is fetched. -/
theorem not_fetches_tx {d : RF95 σ} (h : d.mode = .tx) : ¬ d.Fetches := fun hf => by
  rw [hf.2.2.1] at h
  cases h

theorem waitPacketSent_still {n : ℕ} : ∀ {d d' : RF95 σ}, d.waitPacketSent n = some d' →
    d'.received = d.received := by
  induction n with
  | zero =>
    intro d d' h
    rw [waitPacketSent] at h
    split_ifs at h
    exact Option.some.inj h ▸ rfl
  | succ n ih =>
    intro d d' h
    rw [waitPacketSent] at h
    split_ifs at h with htx
    · exact (ih h).trans (available_still (not_fetches_tx htx))
    · exact Option.some.inj h ▸ rfl

theorem send_still {d : RF95 σ} {rounds : ℕ} {data : List UInt8} {r : Bool × RF95 σ}
    (h : d.send rounds data = some r) : r.2.received = d.received := by
  rw [send] at h
  split_ifs at h
  · exact Option.some.inj h ▸ rfl
  · obtain ⟨d₁, hd₁, rfl⟩ := Option.map_eq_some_iff.mp h
    rw [received, transmit_members]
    exact waitPacketSent_still hd₁

/-- The two results of `recv`. -/
theorem recv_eq (d : RF95 σ) (dest : Option UInt8) :
    d.recv dest = if d.available.1 = true then
        (some (dest.elim [] fun len =>
          d.available.2.buf.load headerLen (clampLen len d.available.2.bufLen).toNat),
          d.available.2.clearRxBuf)
      else (none, d.available.2) := by
  rw [recv]
  cases dest <;> rfl

/-! ### Calls -/

/-- A call of the driver; `elapse` is whatever happens to the radio and on the
line between two calls. -/
inductive Call (σ : Type) where
  | available
  | recv (dest : Option UInt8)
  | send (rounds : ℕ) (data : List UInt8)
  | waitPacketSent (rounds : ℕ)
  | sleep
  | elapse (link : σ)

/-- The driver after a call; `none` if the call does not return. -/
def step (d : RF95 σ) : Call σ → Option (RF95 σ)
  | .available => some d.available.2
  | .recv dest => some (d.recv dest).2
  | .send rounds data => (d.send rounds data).map (·.2)
  | .waitPacketSent rounds => d.waitPacketSent rounds
  | .sleep => some d.sleep
  | .elapse link => some { d with link := link }

/-- The operations of the driver, `init` and the mode setters among them. -/
inductive Operation where
  | init
  | available
  | recv (dest : Option UInt8)
  | send (rounds : ℕ) (data : List UInt8)
  | waitPacketSent (rounds : ℕ)
  | sleep
  | setModeIdle
  | setModeRx
  | setModeTx

/-- The driver after an operation; `none` if the operation does not return. -/
def perform (d : RF95 σ) : Operation → Option (RF95 σ)
  | .init => some d.init.2
  | .available => some d.available.2
  | .recv dest => some (d.recv dest).2
  | .send rounds data => (d.send rounds data).map (·.2)
  | .waitPacketSent rounds => d.waitPacketSent rounds
  | .sleep => some d.sleep
  | .setModeIdle => some d.setModeIdle
  | .setModeRx => some d.setModeRx
  | .setModeTx => some d.setModeTx

/-! ### Everything the driver offers -/

/-- What a caller can set: the configuration of the radio, and the members
that `RHGenericDriver` has setters for. -/
inductive Setting where
  | frequency (centre : ℕ)
  | txPower (power : ℤ) (useRFO : Bool)
  | modemConfig (index : ModemConfigChoice)
  | modemRegisters (config : ModemConfig)
  | preambleLength (bytes : ℕ)
  | thisAddress (address : UInt8)
  | promiscuous (promiscuous : Bool)
  | headerTo (dest : UInt8)
  | headerFrom (src : UInt8)
  | headerId (id : UInt8)
  | headerFlags (set clear : UInt8)

/-- The setters: `setFrequency`, `setTxPower`, …, `setHeaderFlags`. -/
def set (d : RF95 σ) : Setting → RF95 σ
  | .frequency centre => d.setFrequency centre
  | .txPower power useRFO => d.setTxPower power useRFO
  | .modemConfig index => (d.setModemConfig index).2
  | .modemRegisters config => d.setModemRegisters config
  | .preambleLength bytes => d.setPreambleLength bytes
  | .thisAddress address => { d with thisAddress := address }
  | .promiscuous promiscuous => { d with promiscuous := promiscuous }
  | .headerTo dest => { d with txHeaderTo := dest }
  | .headerFrom src => { d with txHeaderFrom := src }
  | .headerId id => { d with txHeaderId := id }
  | .headerFlags set clear => { d with txHeaderFlags := d.txHeaderFlags &&& ~~~clear ||| set }

/-- A call of the driver by its user. -/
inductive Request where
  | operation (op : Operation)
  | setting (s : Setting)

/-- What a call returns: nothing, a `bool`, or the octets copied to `buf`. -/
inductive Outcome where
  | done
  | flag (b : Bool)
  | message (octets : Option (List UInt8))
  deriving DecidableEq

/-- A call with what it returns; `none` if it does not return. -/
def serve (d : RF95 σ) : Request → Option (Outcome × RF95 σ)
  | .operation .init => some (.flag d.init.1, d.init.2)
  | .operation .available => some (.flag d.available.1, d.available.2)
  | .operation (.recv dest) => some (.message (d.recv dest).1, (d.recv dest).2)
  | .operation (.send rounds data) => (d.send rounds data).map fun r => (.flag r.1, r.2)
  | .operation (.waitPacketSent rounds) => (d.waitPacketSent rounds).map fun d => (.flag true, d)
  | .operation .sleep => some (.flag true, d.sleep)
  | .operation .setModeIdle => some (.done, d.setModeIdle)
  | .operation .setModeRx => some (.done, d.setModeRx)
  | .operation .setModeTx => some (.done, d.setModeTx)
  | .setting s => some (.done, d.set s)

theorem serve_operation (d : RF95 σ) (op : Operation) :
    (d.serve (.operation op)).map (·.2) = d.perform op := by
  cases op with
  | send rounds data => exact Option.map_map ..
  | waitPacketSent rounds =>
    rw [serve, Option.map_map]
    exact Option.map_id'
  | _ => rfl

/-- A call, and what it returns noted down. -/
def use (r : List Outcome × RF95 σ) (q : Request) : Option (List Outcome × RF95 σ) :=
  (r.2.serve q).map fun o => (r.1 ++ [o.1], o.2)

/-! ### Rounds of a wait -/

/-- So many rounds of `waitPacketSent`, or fewer if it returns before. -/
def wait : ℕ → RF95 σ → RF95 σ
  | 0, d => d
  | n + 1, d => if d.mode = .tx then wait n d.available.2 else d

/-- `waitPacketSent` returns if the driver is not sending after the rounds. -/
theorem waitPacketSent_eq (n : ℕ) : ∀ d : RF95 σ,
    d.waitPacketSent n = if (d.wait n).mode = .tx then none else some (d.wait n) := by
  induction n with
  | zero => exact fun _ => rfl
  | succ n ih =>
    intro d
    rw [waitPacketSent, wait]
    split_ifs with htx h
    · rw [ih, if_pos h]
    · rw [ih, if_neg h]
    · rfl

theorem wait_of_waitPacketSent {n : ℕ} {d d' : RF95 σ} (h : d.waitPacketSent n = some d') :
    d.wait n = d' ∧ d'.mode ≠ .tx := by
  rw [waitPacketSent_eq] at h
  split_ifs at h with htx
  obtain rfl := Option.some.inj h
  exact ⟨rfl, htx⟩

/-- The driver after an operation or, where the operation still waits for an
earlier packet, after the rounds of the wait. -/
def undertake (d : RF95 σ) : Operation → RF95 σ
  | .init => d.init.2
  | .available => d.available.2
  | .recv dest => (d.recv dest).2
  | .send rounds data =>
    if maxMessageLen < data.length then d
    else if (d.wait rounds).mode = .tx then d.wait rounds
    else (d.wait rounds).transmit data
  | .waitPacketSent rounds => d.wait rounds
  | .sleep => d.sleep
  | .setModeIdle => d.setModeIdle
  | .setModeRx => d.setModeRx
  | .setModeTx => d.setModeTx

theorem undertake_of_perform {d d' : RF95 σ} {op : Operation} (h : d.perform op = some d') :
    d.undertake op = d' := by
  cases op with
  | send rounds data =>
    obtain ⟨r, hr, rfl⟩ := Option.map_eq_some_iff.mp h
    rw [send] at hr
    rw [undertake]
    split_ifs at hr ⊢ with hlen htx
    · exact congrArg Prod.snd (Option.some.inj hr)
    · rw [waitPacketSent_eq, if_pos htx] at hr
      cases hr
    · rw [waitPacketSent_eq, if_neg htx] at hr
      exact congrArg Prod.snd (Option.some.inj hr)
  | waitPacketSent rounds => exact (wait_of_waitPacketSent h).1
  | _ => exact Option.some.inj h

/-! ### What every operation keeps -/

/-- Kept by the register accesses other than those that set the mode, by the
mode setters, and by a change of the other members. -/
structure Stable (P : RF95 σ → Prop) : Prop where
  uartAvailable : ∀ {d}, P d → P d.uartAvailable.2
  uartRead : ∀ {d}, P d → P d.uartRead.2
  read : ∀ {d} reg, P d → P (d.read reg).2
  write : ∀ {d} reg val, reg ≠ Reg.opMode → reg ≠ Reg.dioMapping1 → P d → P (d.write reg val)
  burstRead : ∀ {d} len, P d → P (d.burstRead Reg.fifo len)
  burstWrite : ∀ {d} data, P d → P (d.burstWrite Reg.fifo data)
  members : ∀ {d} (m : Members), m.mode = d.mode → P d → P { toMembers := m, link := d.link }
  setModeIdle : ∀ {d}, P d → P d.setModeIdle
  sleep : ∀ {d}, P d → P d.sleep
  setModeRx : ∀ {d}, P d → P d.setModeRx
  setModeTx : ∀ {d}, P d → P d.setModeTx

namespace Stable

variable {P : RF95 σ → Prop} {d : RF95 σ}

theorem validateRxBuf (hP : Stable P) (h : P d) : P d.validateRxBuf := by
  rw [RF95.validateRxBuf]
  have hheaders : P d.extractHeaders := hP.members _ rfl h
  split_ifs
  · exact h
  · exact hP.members _ rfl hheaders
  · exact hheaders

theorem fetchPacket (hP : Stable P) (h : P d) : P d.fetchPacket := by
  have hfifo := hP.write Reg.fifoAddrPtr ((d.read Reg.rxNbBytes).2.read Reg.fifoRxCurrentAddr).1
    (by decide) (by decide) (hP.read Reg.fifoRxCurrentAddr (hP.read Reg.rxNbBytes h))
  have hburst := hP.members
    { (RF95.burstRead _ Reg.fifo (d.read Reg.rxNbBytes).1).toMembers with
      bufLen := (d.read Reg.rxNbBytes).1 } rfl (hP.burstRead (d.read Reg.rxNbBytes).1 hfifo)
  have hclear := hP.write Reg.irqFlags 0xff (by decide) (by decide) hburst
  exact hP.members _ rfl (hP.read Reg.pktRssiValue hclear)

theorem handlePacket (hP : Stable P) (h : P d) : P d.handlePacket := by
  have hbuf := hP.validateRxBuf (hP.fetchPacket h)
  rw [RF95.handlePacket]
  split_ifs
  · exact hP.setModeIdle hbuf
  · exact hbuf

theorem handleInterrupt (hP : Stable P) (h : P d) : P d.handleInterrupt := by
  have hread := hP.read Reg.irqFlags h
  have hclear : ∀ {d}, P d → P (d.write Reg.irqFlags 0xff) :=
    fun hd => hP.write _ _ (by decide) (by decide) hd
  rcases handleInterrupt_cases d with ⟨-, -, hd⟩ | ⟨-, hd | ⟨-, hd⟩ | hd⟩
  · rw [hd]
    exact hclear (hP.handlePacket hread)
  · rw [hd]
    exact hclear (hP.members _ rfl hread)
  · rw [hd]
    exact hclear (hP.setModeIdle (hP.members _ rfl hread))
  · rw [hd]
    exact hclear hread

theorem poll (hP : Stable P) (h : P d) : P d.poll := by
  rcases poll_cases d with ⟨-, -, hd⟩ | ⟨-, hd | hd⟩
  · rw [hd]
    exact hP.handleInterrupt (hP.uartRead (hP.uartAvailable h))
  · rw [hd]
    exact hP.uartAvailable h
  · rw [hd]
    exact hP.uartRead (hP.uartAvailable h)

theorem available (hP : Stable P) (h : P d) : P d.available.2 := by
  rw [available_eq]
  split_ifs
  · exact hP.poll h
  · exact hP.setModeRx (hP.poll h)

theorem recv (hP : Stable P) (h : P d) (dest : Option UInt8) : P (d.recv dest).2 := by
  rw [recv_eq]
  split_ifs
  · exact hP.members _ rfl (hP.available h)
  · exact hP.available h

theorem wait (hP : Stable P) {n : ℕ} : ∀ {d : RF95 σ}, P d → P (d.wait n) := by
  induction n with
  | zero => exact fun h => h
  | succ n ih =>
    intro d h
    rw [RF95.wait]
    split_ifs
    · exact ih (hP.available h)
    · exact h

theorem waitPacketSent (hP : Stable P) {n : ℕ} {d' : RF95 σ}
    (hd : d.waitPacketSent n = some d') (h : P d) : P d' :=
  (wait_of_waitPacketSent hd).1 ▸ hP.wait h

theorem transmit (hP : Stable P) (h : P d) (data : List UInt8) : P (d.transmit data) := by
  have hfifo : ∀ {d} c, P d → P (d.write Reg.fifo c) :=
    fun c hd => hP.write _ c (by decide) (by decide) hd
  have hptr := hP.write Reg.fifoAddrPtr 0 (by decide) (by decide) (hP.setModeIdle h)
  refine hP.setModeTx (hP.write _ _ (by decide) (by decide) (hP.burstWrite data ?_))
  exact hfifo _ (hfifo _ (hfifo _ (hfifo _ hptr)))

theorem send (hP : Stable P) {rounds : ℕ} {data : List UInt8} {r : Bool × RF95 σ}
    (hd : d.send rounds data = some r) (h : P d) : P r.2 := by
  rw [RF95.send] at hd
  split_ifs at hd
  · exact Option.some.inj hd ▸ h
  · obtain ⟨d₁, hd₁, rfl⟩ := Option.map_eq_some_iff.mp hd
    exact hP.transmit (hP.waitPacketSent hd₁ h) data

/-- `init` besides puts the radio to sleep. -/
theorem init (hP : Stable P)
    (hsleep : ∀ {d}, P d → P (d.write Reg.opMode (modeSleep ||| longRangeMode))) (h : P d) :
    P d.init.2 := by
  have hread := hP.read Reg.opMode (hsleep h)
  by_cases hinit : d.init.1 = true
  · refine init_induct hinit hread (fun _ hd => hP.setModeIdle hd) ?_
    intro d reg val hreg hd
    refine hP.write reg val ?_ ?_ hd
    · rintro rfl
      exact absurd hreg (by decide)
    · rintro rfl
      exact absurd hreg (by decide)
  · have hfail : d.init.2 = (((d.write Reg.opMode (modeSleep ||| longRangeMode)).read
        Reg.opMode).2.read Reg.opMode).2 := by
      by_cases hm : ((d.write Reg.opMode (modeSleep ||| longRangeMode)).read Reg.opMode).1
          = modeSleep ||| longRangeMode
      · exact absurd (by simp [RF95.init, hm]) hinit
      · simp only [RF95.init, ne_eq, hm, not_false_eq_true, if_true]
    rw [hfail]
    exact hP.read Reg.opMode hread

end Stable

end RF95
