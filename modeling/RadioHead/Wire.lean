/-
The wire format between the host and the bridge.

The host's `RHUartDriver` talks to the bridge firmware over a serial line:
a register write travels as `'W'`, register, length, data (`uartTx`), a
register read as `'R'`, register, length (`uartRx`).  This file holds the two
encoders and the grammar a stream of such octets is read by:

* `decode` — split an octet stream into its commands and the unfinished rest,
  skipping octets until a `'W'` or an `'R'` starts a command;
* `decode_append` — decoding is incremental: what is left over from one part
  of the stream is all the next part needs;
* `decode_encode` — the commands of the host come back as they were sent.
-/
import RadioHead.Lib.Run

namespace Wire

/-- `'W'`: the next octets are a register write. -/
def chW : UInt8 := 0x57

/-- `'R'`: the next octets are a register read. -/
def chR : UInt8 := 0x52

/-- `'I'`: the radio raised one of its interrupt lines. -/
def chI : UInt8 := 0x49

/-- One register access of the host, as it travels over the line. -/
inductive Command where
  | write (reg : UInt8) (data : List UInt8)
  | read (reg : UInt8) (len : UInt8)
  deriving DecidableEq, Repr

/-- `RHUartDriver::uartTx`: the octets written for a register write.  `src`
is the memory behind the source pointer. -/
def uartTx (reg : UInt8) (src : ℕ → UInt8) (len : UInt8) : List UInt8 :=
  chW :: reg :: len :: (List.range len.toNat).map src

/-- The request half of `RHUartDriver::uartRx`. -/
def uartRxRequest (reg len : UInt8) : List UInt8 := [chR, reg, len]

/-- The octets of a command: `uartTx` of its data, or the request of `uartRx`. -/
def Command.encode : Command → List UInt8
  | .write reg data => chW :: reg :: UInt8.ofNat data.length :: data
  | .read reg len => uartRxRequest reg len

/-- The length field is one octet. -/
def Command.Fits : Command → Prop
  | .write _ data => data.length < 256
  | .read _ _ => True

/-- The reference grammar: the commands of an octet stream, and the octets of
the command it ends in the middle of. -/
def decode : List UInt8 → List Command × List UInt8
  | [] => ([], [])
  | c :: s =>
    if c = chW then
      match s with
      | reg :: len :: t =>
        if len.toNat ≤ t.length then
          (.write reg (t.take len.toNat) :: (decode (t.drop len.toNat)).1,
            (decode (t.drop len.toNat)).2)
        else ([], c :: s)
      | _ => ([], c :: s)
    else if c = chR then
      match s with
      | reg :: len :: t => (.read reg len :: (decode t).1, (decode t).2)
      | _ => ([], c :: s)
    else decode s
  termination_by s => s.length
  decreasing_by all_goals (simp; try omega)

@[simp] theorem decode_nil : decode [] = ([], []) := by rw [decode]

theorem decode_skip {c : UInt8} (hw : c ≠ chW) (hr : c ≠ chR) (s : List UInt8) :
    decode (c :: s) = decode s := by
  rw [decode.eq_def]
  simp only [if_neg hw, if_neg hr]

theorem decode_write {reg len : UInt8} {t : List UInt8} (h : len.toNat ≤ t.length) :
    decode (chW :: reg :: len :: t)
      = (.write reg (t.take len.toNat) :: (decode (t.drop len.toNat)).1,
          (decode (t.drop len.toNat)).2) := by
  rw [decode, if_pos rfl]
  simp only [if_pos h]

theorem decode_write_short {reg len : UInt8} {t : List UInt8} (h : t.length < len.toNat) :
    decode (chW :: reg :: len :: t) = ([], chW :: reg :: len :: t) := by
  rw [decode, if_pos rfl]
  simp only [if_neg (Nat.not_le.mpr h)]

theorem decode_read (reg len : UInt8) (t : List UInt8) :
    decode (chR :: reg :: len :: t) = (.read reg len :: (decode t).1, (decode t).2) := by
  rw [decode, if_neg (by decide), if_pos rfl]

theorem decode_one {c : UInt8} (h : c = chW ∨ c = chR) : decode [c] = ([], [c]) := by
  rw [decode.eq_def]
  rcases h with rfl | rfl
  · simp only [if_pos]
  · simp only [if_neg (show chR ≠ chW by decide), if_pos]

theorem decode_two {c reg : UInt8} (h : c = chW ∨ c = chR) :
    decode [c, reg] = ([], [c, reg]) := by
  rw [decode.eq_def]
  rcases h with rfl | rfl
  · simp only [if_pos]
  · simp only [if_neg (show chR ≠ chW by decide), if_pos]

/-- Decoding is incremental: the rest left over by `s` is all that matters
for what follows. -/
theorem decode_append (s t : List UInt8) :
    decode (s ++ t)
      = ((decode s).1 ++ (decode ((decode s).2 ++ t)).1, (decode ((decode s).2 ++ t)).2) := by
  induction s using decode.induct with
  | case1 => simp
  | case2 reg len s hlen ih =>
    -- a complete write
    rw [List.cons_append, List.cons_append, List.cons_append,
      decode_write (by rw [List.length_append]; omega), decode_write hlen,
      List.take_append_of_le_length hlen, List.drop_append_of_le_length hlen, ih]
    simp
  | case3 reg len s hlen =>
    rw [decode_write_short (Nat.not_le.mp hlen)]
    simp
  | case4 s hs =>
    rcases s with _ | ⟨reg, _ | ⟨len, s⟩⟩
    · rw [decode_one (.inl rfl)]
      simp
    · rw [decode_two (.inl rfl)]
      simp
    · exact absurd rfl (hs reg len s)
  | case5 _ reg len s ih =>
    rw [List.cons_append, List.cons_append, List.cons_append, decode_read, decode_read, ih]
    simp
  | case6 s hs =>
    rcases s with _ | ⟨reg, _ | ⟨len, s⟩⟩
    · rw [decode_one (.inr rfl)]
      simp
    · rw [decode_two (.inr rfl)]
      simp
    · exact absurd rfl (hs reg len s)
  | case7 c s hw hr ih =>
    rw [List.cons_append, decode_skip hw hr, decode_skip hw hr, ih]

/-- A command decodes to itself, whatever follows it. -/
theorem decode_encode_append {c : Command} (h : c.Fits) (t : List UInt8) :
    decode (c.encode ++ t) = (c :: (decode t).1, (decode t).2) := by
  cases c with
  | write reg data =>
    have hlen : (UInt8.ofNat data.length).toNat = data.length :=
      UInt8.toNat_ofNat_of_lt' h
    rw [Command.encode, List.cons_append, List.cons_append, List.cons_append,
      decode_write (by rw [hlen, List.length_append]; omega), hlen, List.take_left,
      List.drop_left]
  | read reg len =>
    exact decode_read reg len t

/-- A stream of host commands decodes to these commands, with nothing left. -/
theorem decode_encode {cs : List Command} (h : ∀ c ∈ cs, c.Fits) :
    decode (cs.flatMap Command.encode) = (cs, []) := by
  induction cs with
  | nil => simp
  | cons c cs ih =>
    rw [List.flatMap_cons, decode_encode_append (h c (by simp)),
      ih fun d hd => h d (by simp [hd])]

/-! ### The host's calls -/

/-- A call the host driver makes on the line: every register access is one. -/
inductive HostCall where
  | uartTx (reg : UInt8) (src : ℕ → UInt8) (len : UInt8)
  | uartRx (reg : UInt8) (len : UInt8)

/-- The octets a call writes. -/
def HostCall.octets : HostCall → List UInt8
  | .uartTx reg src len => Wire.uartTx reg src len
  | .uartRx reg len => uartRxRequest reg len

/-- The command a call means. -/
def HostCall.command : HostCall → Command
  | .uartTx reg src len => .write reg ((List.range len.toNat).map src)
  | .uartRx reg len => .read reg len

theorem HostCall.encode_command (c : HostCall) : c.command.encode = c.octets := by
  cases c with
  | uartTx reg src len => simp [HostCall.command, HostCall.octets, Command.encode, Wire.uartTx]
  | uartRx reg len => rfl

theorem HostCall.command_fits (c : HostCall) : c.command.Fits := by
  cases c with
  | uartTx reg src len => simpa [HostCall.command, Command.Fits] using len.toNat_lt
  | uartRx reg len => trivial

/-- What the host's calls put on the line decodes to these calls. -/
theorem decode_calls (cs : List HostCall) :
    decode (cs.flatMap HostCall.octets) = (cs.map HostCall.command, []) := by
  have h : cs.flatMap HostCall.octets = (cs.map HostCall.command).flatMap Command.encode := by
    rw [List.flatMap_map]
    exact List.flatMap_congr fun c _ => c.encode_command.symm
  rw [h]
  refine decode_encode fun c hc => ?_
  obtain ⟨d, -, rfl⟩ := List.mem_map.mp hc
  exact d.command_fits

/-- `RH_WRITE_MASK`: the top bit of the register octet tells a write. -/
def writeMask : UInt8 := 0x80

/-- A register access of `RHUartDriver`. -/
inductive RegAccess where
  | read (reg : UInt8)
  | write (reg val : UInt8)
  | burstRead (reg len : UInt8)
  | burstWrite (reg : UInt8) (src : ℕ → UInt8) (len : UInt8)

/-- `RHUartDriver::read`, `write`, `burstRead` and `burstWrite`. -/
def RegAccess.call : RegAccess → HostCall
  | .read reg => .uartRx (reg &&& ~~~writeMask) 1
  | .write reg val => .uartTx (reg ||| writeMask) (fun _ => val) 1
  | .burstRead reg len => .uartRx (reg &&& ~~~writeMask) len
  | .burstWrite reg src len => .uartTx (reg ||| writeMask) src len

end Wire
