/-
The bridge firmware: `loop()` and its command parser.

The Arduino sketch between the host and the radio reads the host's octets one
at a time, keeps the command read so far in global variables (`count`,
`command`, `reg`, `len`, `buffer`), performs the SPI transaction as soon as a
command is complete, and sends an `'I'` whenever an interrupt line was seen.

* `Board` — the sketch's globals, its serial receive buffer, and the record
  of what it has done; `Board.loop` is one iteration of `loop()`;
* `Matches` — what the globals say about the octets of a command read so far;
* `loop_idle`, `loop_octet` — one iteration, without and with an octet
  waiting, against the reference grammar `Wire.decode`;
* `board_executes` — every run, from the start of the sketch.
-/
import RadioHead.Wire

open Wire

namespace Firmware

/-- The variables of the command parser. -/
structure Parser where
  command : UInt8
  reg : UInt8
  len : ℕ
  buffer : ℕ → UInt8
  count : ℕ

/-- One SPI transaction: the register and the octets clocked out after it, or
the register and the octets clocked in. -/
inductive Spi where
  | write (reg : UInt8) (data : List UInt8)
  | read (reg : UInt8) (data : List UInt8)
  deriving DecidableEq, Repr

/-- What the sketch writes to the serial line: an octet of the reply to a
read, or the `'I'` of an interrupt. -/
inductive Emit where
  | reply (c : UInt8)
  | notify
  deriving DecidableEq, Repr

/-- The octet on the line. -/
def Emit.octet : Emit → UInt8
  | .reply c => c
  | .notify => chI

/-- The sketch's globals, the octets waiting in its serial receive buffer, and
the record of its run: SPI transactions, octets sent, cells of `buffer` used. -/
structure Board extends Parser where
  intFlag : Bool
  dio2States : Bool
  rx : List UInt8
  spi : List Spi
  tx : List Emit
  touched : List ℕ

/-- The globals as the sketch starts. -/
def Board.reset : Board where
  command := 0
  reg := 0
  len := 0
  buffer := fun _ => 0
  count := 0
  intFlag := false
  dio2States := false
  rx := []
  spi := []
  tx := []
  touched := []

/-- What happens around one iteration: the octets the radio would clock out,
the level of the DIO2 pin, and whether an interrupt handler ran before or
after `intFlag` was tested. -/
structure LoopInput where
  miso : ℕ → UInt8
  dio2 : Bool
  isrEarly : Bool
  isrLate : Bool

/-- The first block of `loop()`: take an octet, if the parser wants one. -/
def Board.receive (b : Board) : Board :=
  match b.rx with
  | [] => b
  | c :: rest =>
    if b.count = 0 then
      if c = chW ∨ c = chR then { b with rx := rest, command := c, count := b.count + 1 }
      else { b with rx := rest }
    else if b.count = 1 then { b with rx := rest, reg := c, count := b.count + 1 }
    else if b.count = 2 then { b with rx := rest, len := c.toNat, count := b.count + 1 }
    else if b.command = chW ∧ 2 < b.count ∧ b.count < b.len + 3 then
      { b with
        rx := rest
        buffer := Function.update b.buffer (b.count - 3) c
        count := b.count + 1
        touched := b.touched ++ [b.count - 3] }
    else b

/-- The parser variables after a command: all cleared. -/
def Parser.clear (p : Parser) : Parser where
  command := 0
  reg := 0
  len := 0
  buffer := fun i => if i < 255 then 0 else p.buffer i
  count := 0

/-- The second block of `loop()`: perform a complete command. -/
def Board.execute (b : Board) (miso : ℕ → UInt8) : Board :=
  if b.command = chW ∧ b.len + 3 ≤ b.count then
    { b with
      toParser := b.toParser.clear
      spi := b.spi ++ [.write b.reg ((List.range b.len).map b.buffer)]
      touched := b.touched ++ List.range b.len }
  else if b.command = chR ∧ 3 ≤ b.count then
    -- the octets clocked in go through `buffer` on their way to the line
    let buffer := fun i => if i < b.len then miso i else b.buffer i
    { b with
      toParser := b.toParser.clear
      spi := b.spi ++ [.read b.reg ((List.range b.len).map buffer)]
      tx := b.tx ++ ((List.range b.len).map buffer).map .reply
      touched := b.touched ++ List.range b.len }
  else b

/-- `isr0` and `isr1`. -/
def Board.isr (b : Board) : Board := { b with intFlag := true }

/-- The DIO2 pin has no interrupt of its own: `loop()` watches for its rising
edge. -/
def Board.pollDio2 (b : Board) (level : Bool) : Board :=
  if b.dio2States ≠ level then
    if !b.dio2States then { b with dio2States := true, intFlag := true }
    else { b with dio2States := false }
  else b

/-- The last block of `loop()`: tell the host about an interrupt. -/
def Board.notify (b : Board) : Board :=
  if b.intFlag then { b with intFlag := false, tx := b.tx ++ [.notify] } else b

/-- The part of an iteration that deals with interrupts. -/
def Board.signal (b : Board) (i : LoopInput) : Board :=
  let b := ((if i.isrEarly then b.isr else b).pollDio2 i.dio2).notify
  if i.isrLate then b.isr else b

/-- One iteration of `loop()`. -/
def Board.loop (b : Board) (i : LoopInput) : Board :=
  ((b.receive).execute i.miso).signal i

/-! ### The interrupt part -/

/-- Whether the iteration finds `intFlag` set. -/
def Board.raised (b : Board) (i : LoopInput) : Bool :=
  b.intFlag || i.isrEarly || (i.dio2 && !b.dio2States)

theorem signal_frame (b : Board) (i : LoopInput) :
    (b.signal i).toParser = b.toParser ∧ (b.signal i).rx = b.rx ∧ (b.signal i).spi = b.spi ∧
      (b.signal i).touched = b.touched ∧
      (b.signal i).tx = b.tx ++ if b.raised i then [.notify] else [] := by
  obtain ⟨miso, dio2, early, late⟩ := i
  cases hf : b.intFlag <;> cases hd : b.dio2States <;> cases dio2 <;> cases early <;>
    cases late <;>
    simp [Board.signal, Board.notify, Board.pollDio2, Board.isr, Board.raised, hf, hd]

/-! ### The parser -/

/-- The parser variables after the octets `p` of an unfinished command. -/
def Matches (f : Parser) : List UInt8 → Prop
  | [] => f.count = 0
  | [c] => (c = chW ∨ c = chR) ∧ f.command = c ∧ f.count = 1
  | [c, reg] => (c = chW ∨ c = chR) ∧ f.command = c ∧ f.reg = reg ∧ f.count = 2
  | c :: reg :: len :: data =>
    c = chW ∧ f.command = chW ∧ f.reg = reg ∧ f.len = len.toNat ∧
      f.count = data.length + 3 ∧ data.length < len.toNat ∧
      (List.range data.length).map f.buffer = data

/-- An unfinished command decodes to nothing. -/
theorem decode_of_matches {f : Parser} {p : List UInt8} (h : Matches f p) :
    decode p = ([], p) := by
  rcases p with _ | ⟨c, _ | ⟨reg, _ | ⟨len, data⟩⟩⟩
  · exact decode_nil
  · exact decode_one h.1
  · exact decode_two h.1
  · obtain ⟨rfl, -, -, -, -, hlt, -⟩ := h
    exact decode_write_short hlt

/-- With an unfinished command nothing is executed. -/
theorem execute_of_matches {b : Board} {p : List UInt8} (h : Matches b.toParser p)
    (miso : ℕ → UInt8) : b.execute miso = b := by
  rcases p with _ | ⟨c, _ | ⟨reg, _ | ⟨len, data⟩⟩⟩
  · have hc : b.count = 0 := h
    rw [Board.execute, if_neg (by omega), if_neg (by omega)]
  · obtain ⟨-, -, hc⟩ := h
    rw [Board.execute, if_neg (by omega), if_neg (by omega)]
  · obtain ⟨-, -, -, hc⟩ := h
    rw [Board.execute, if_neg (by omega), if_neg (by omega)]
  · obtain ⟨-, hw, -, hl, hc, hlt, -⟩ := h
    rw [Board.execute, if_neg (by omega), if_neg (by rw [hw]; simp [chW, chR])]

/-- The command a transaction performs. -/
def Spi.command : Spi → Command
  | .write reg data => .write reg data
  | .read reg data => .read reg (UInt8.ofNat data.length)

/-- The octets a transaction sends back to the host. -/
def Spi.reply : Spi → List UInt8
  | .write _ _ => []
  | .read _ data => data

/-- The parser between two commands. -/
structure Parser.Idle (f : Parser) : Prop where
  command_eq : f.command = 0
  reg_eq : f.reg = 0
  len_eq : f.len = 0
  count_eq : f.count = 0
  buffer_eq : ∀ i < 255, f.buffer i = 0

theorem clear_idle (f : Parser) : f.clear.Idle :=
  ⟨rfl, rfl, rfl, rfl, fun i hi => by simp [Parser.clear, hi]⟩

/-- The effect of the first two blocks of `loop()`: `spi` is what they
performed, `p` the command the parser is in the middle of now. -/
structure Performs (b b' : Board) (rx : List UInt8) (spi : List Spi) (p : List UInt8) :
    Prop where
  rx_eq : b'.rx = rx
  spi_eq : b'.spi = b.spi ++ spi
  tx_eq : b'.tx = b.tx ++ (spi.flatMap Spi.reply).map .reply
  touched_lt : (∀ i ∈ b.touched, i < 255) → ∀ i ∈ b'.touched, i < 255
  reply_lt : ∀ s ∈ spi, s.reply.length < 256
  after : Matches b'.toParser p
  idle : spi ≠ [] → b'.toParser.Idle
  raised_eq : ∀ i, b'.raised i = b.raised i

/-- A complete write is executed: the bytes of `buffer` go out, the parser is
idle again. -/
theorem execute_write {b : Board} (hc : b.command = chW) (hn : b.count = b.len + 3)
    (hl : b.len < 256) (miso : ℕ → UInt8) :
    Performs b (b.execute miso) b.rx [.write b.reg ((List.range b.len).map b.buffer)] [] := by
  rw [Board.execute, if_pos ⟨hc, by omega⟩]
  refine ⟨rfl, rfl, by simp [Spi.reply], ?_, by simp [Spi.reply], rfl,
    fun _ => clear_idle _, fun i => rfl⟩
  intro ht i hi
  rcases List.mem_append.mp hi with hi | hi
  · exact ht i hi
  · have := List.mem_range.mp hi
    omega

/-- A complete read is executed: `len` octets are clocked in and sent. -/
theorem execute_read {b : Board} (hc : b.command = chR) (hn : b.count = 3) (hl : b.len < 256)
    (miso : ℕ → UInt8) :
    Performs b (b.execute miso) b.rx [.read b.reg ((List.range b.len).map miso)] [] := by
  have hmap : (List.range b.len).map (fun i => if i < b.len then miso i else b.buffer i)
      = (List.range b.len).map miso :=
    List.map_congr_left fun i hi => if_pos (List.mem_range.mp hi)
  rw [Board.execute, if_neg (by rw [hc]; simp [chW, chR]), if_pos ⟨hc, by omega⟩]
  refine ⟨rfl, by simp only [hmap], by simp [Spi.reply, hmap], ?_, by simpa [Spi.reply], rfl,
    fun _ => clear_idle _, fun i => rfl⟩
  intro ht i hi
  rcases List.mem_append.mp hi with hi | hi
  · exact ht i hi
  · have := List.mem_range.mp hi
    omega

/-- `receive` leaves the record alone, but for the cell of `buffer` it writes. -/
structure Receives (b b' : Board) (rx : List UInt8) : Prop where
  rx_eq : b'.rx = rx
  spi_eq : b'.spi = b.spi
  tx_eq : b'.tx = b.tx
  touched_lt : (∀ i ∈ b.touched, i < 255) → ∀ i ∈ b'.touched, i < 255
  raised_eq : ∀ i, b'.raised i = b.raised i

theorem Receives.performs {b b₁ b₂ : Board} {rx : List UInt8} {spi : List Spi}
    {p : List UInt8} (h : Receives b b₁ rx) (h₂ : Performs b₁ b₂ b₁.rx spi p) :
    Performs b b₂ rx spi p where
  rx_eq := h₂.rx_eq.trans h.rx_eq
  spi_eq := by rw [h₂.spi_eq, h.spi_eq]
  tx_eq := by rw [h₂.tx_eq, h.tx_eq]
  touched_lt := fun ht => h₂.touched_lt (h.touched_lt ht)
  reply_lt := h₂.reply_lt
  after := h₂.after
  idle := h₂.idle
  raised_eq := fun i => (h₂.raised_eq i).trans (h.raised_eq i)

/-- An iteration that leaves the command unfinished. -/
theorem Receives.unfinished {b b₁ : Board} {rx : List UInt8} {p : List UInt8}
    (h : Receives b b₁ rx) (hm : Matches b₁.toParser p) (miso : ℕ → UInt8) :
    Performs b (b₁.execute miso) rx [] p := by
  rw [execute_of_matches hm]
  exact h.performs ⟨rfl, by simp, by simp, fun ht => ht, by simp, hm, by simp, fun _ => rfl⟩

/-- In the middle of a command, and between commands, an octet is always
taken off the line. -/
theorem receive_receives {b : Board} {p : List UInt8} {c : UInt8} {rest : List UInt8}
    (h : Matches b.toParser p) (hrx : b.rx = c :: rest) : Receives b b.receive rest := by
  have hframe : ∀ b' : Board, b'.rx = rest → b'.spi = b.spi → b'.tx = b.tx →
      b'.touched = b.touched → b'.intFlag = b.intFlag → b'.dio2States = b.dio2States →
      Receives b b' rest := fun b' h₁ h₂ h₃ h₄ h₅ h₆ =>
    ⟨h₁, h₂, h₃, fun ht => h₄ ▸ ht, fun i => by rw [Board.raised, Board.raised, h₅, h₆]⟩
  simp only [Board.receive, hrx]
  split_ifs with h₀ hk h₁ h₂ h₃
  · exact hframe _ rfl rfl rfl rfl rfl rfl
  · exact hframe _ rfl rfl rfl rfl rfl rfl
  · exact hframe _ rfl rfl rfl rfl rfl rfl
  · exact hframe _ rfl rfl rfl rfl rfl rfl
  · refine ⟨rfl, rfl, rfl, fun ht i hi => ?_, fun _ => rfl⟩
    rcases p with _ | ⟨k, _ | ⟨reg, _ | ⟨len, data⟩⟩⟩
    · exact absurd h h₀
    · exact absurd h.2.2 h₁
    · exact absurd h.2.2.2 h₂
    · have hl : len.toNat < 256 := len.toNat_lt
      obtain ⟨-, -, -, hlen, hc, hlt, -⟩ := h
      rcases List.mem_append.mp hi with hi | hi
      · exact ht i hi
      · rw [List.mem_singleton] at hi
        omega
  · -- the parser always has a use for the octet
    rcases p with _ | ⟨k, _ | ⟨reg, _ | ⟨len, data⟩⟩⟩
    · exact absurd h h₀
    · exact absurd h.2.2 h₁
    · exact absurd h.2.2.2 h₂
    · obtain ⟨-, hcmd, -, hlen, hc, hlt, -⟩ := h
      exact absurd ⟨hcmd, by omega, by omega⟩ h₃

/-- One octet through the first two blocks of `loop()`.  The cases are the
parser's: which part of a command `p` stops at. -/
theorem receive_execute {b : Board} {p : List UInt8} {c : UInt8} {rest : List UInt8}
    (h : Matches b.toParser p) (hrx : b.rx = c :: rest) (miso : ℕ → UInt8) :
    ∃ spi p', Performs b (b.receive.execute miso) rest spi p' ∧
      decode (p ++ [c]) = (spi.map Spi.command, p') := by
  have hrec : Receives b b.receive rest := receive_receives h hrx
  rcases p with _ | ⟨k, _ | ⟨reg, _ | ⟨len, data⟩⟩⟩
  · -- between commands: only `'W'` and `'R'` start one
    have hc : b.count = 0 := h
    by_cases hk : c = chW ∨ c = chR
    · have hp : b.receive.toParser = { b.toParser with command := c, count := b.count + 1 } := by
        simp only [Board.receive, hrx, if_pos hc, if_pos hk]
      refine ⟨[], [c], hrec.unfinished ?_ miso, decode_one hk⟩
      rw [hp]
      exact ⟨hk, rfl, by simp [hc]⟩
    · have hp : b.receive.toParser = b.toParser := by
        simp only [Board.receive, hrx, if_pos hc, if_neg hk]
      rw [not_or] at hk
      refine ⟨[], [], hrec.unfinished ?_ miso, by simp [decode_skip hk.1 hk.2]⟩
      rw [hp]
      exact hc
  · -- the register
    obtain ⟨hk, hcmd, hc⟩ := h
    have hp : b.receive.toParser = { b.toParser with reg := c, count := b.count + 1 } := by
      simp only [Board.receive, hrx]
      rw [if_neg (by omega), if_pos hc]
    refine ⟨[], [k, c], hrec.unfinished ?_ miso, decode_two hk⟩
    rw [hp]
    exact ⟨hk, hcmd, rfl, by simp [hc]⟩
  · -- the length: a read is complete now, and so is an empty write
    obtain ⟨hk, hcmd, hreg, hc⟩ := h
    have hlt : c.toNat < 256 := c.toNat_lt
    have hp : b.receive.toParser
        = { b.toParser with len := c.toNat, count := b.count + 1 } := by
      simp only [Board.receive, hrx]
      rw [if_neg (by omega), if_neg (by omega), if_pos hc]
    have hl : b.receive.len = c.toNat := by rw [hp]
    have hn : b.receive.count = 3 := by rw [hp, hc]
    have hr : b.receive.reg = reg := by rw [hp, ← hreg]
    rcases hk with rfl | rfl
    · by_cases hz : c.toNat = 0
      · refine ⟨_, _, hrec.performs (execute_write (by rw [hp, ← hcmd]) (by omega) (by omega)
          miso), ?_⟩
        simp only [List.cons_append, List.nil_append]
        rw [decode_write (by simp [hz])]
        simp [hz, Spi.command, hr, hl]
      · refine ⟨[], [chW, reg, c], hrec.unfinished ?_ miso, decode_write_short (by
          simp only [List.length_nil]; omega)⟩
        rw [hp]
        exact ⟨rfl, hcmd, hreg, rfl, by simp [hc], by simp only [List.length_nil]; omega, rfl⟩
    · refine ⟨_, _, hrec.performs (execute_read (by rw [hp, ← hcmd]) hn (by omega) miso), ?_⟩
      simp only [List.cons_append, List.nil_append]
      rw [decode_read, decode_nil]
      simp [Spi.command, hr, hl]
  · -- an octet of data
    obtain ⟨rfl, hcmd, hreg, hlen, hc, hlt, hbuf⟩ := h
    have hll : len.toNat < 256 := len.toNat_lt
    have hp : b.receive.toParser = { b.toParser with
        buffer := Function.update b.buffer (b.count - 3) c
        count := b.count + 1 } := by
      simp only [Board.receive, hrx]
      rw [if_neg (by omega), if_neg (by omega), if_neg (by omega),
        if_pos ⟨hcmd, by omega, by omega⟩]
    have hl : b.receive.len = len.toNat := by rw [hp, ← hlen]
    have hn : b.receive.count = data.length + 4 := by rw [hp, hc]
    have hr : b.receive.reg = reg := by rw [hp, ← hreg]
    have hlen' : (data ++ [c]).length = data.length + 1 := by simp
    have hbuf' : (List.range (data.length + 1)).map b.receive.buffer = data ++ [c] := by
      rw [hp, List.range_succ, List.map_append, show b.count - 3 = data.length by omega]
      congr 1
      · conv_rhs => rw [← hbuf]
        refine List.map_congr_left fun i hi => Function.update_of_ne ?_ _ _
        exact (List.mem_range.mp hi).ne
      · simp
    simp only [List.cons_append]
    -- the last octet completes the write
    by_cases hlast : data.length + 1 = len.toNat
    · refine ⟨_, _, hrec.performs (execute_write (by rw [hp, ← hcmd]) (by omega) (by omega)
        miso), ?_⟩
      rw [decode_write (by omega), List.take_of_length_le (by omega),
        List.drop_of_length_le (by omega), decode_nil, hl, ← hlast, hbuf', hr]
      rfl
    · refine ⟨[], chW :: reg :: len :: (data ++ [c]), hrec.unfinished ?_ miso,
        decode_write_short (by omega)⟩
      exact ⟨rfl, by rw [hp, ← hcmd], hr, hl, by omega, by omega, by rw [hlen', hbuf']⟩

/-! ### One iteration -/

/-- The effect of one iteration of `loop()`. -/
structure Iterates (b b' : Board) (i : LoopInput) (spi : List Spi) (p : List UInt8) :
    Prop where
  rx_eq : b'.rx = b.rx.tail
  spi_eq : b'.spi = b.spi ++ spi
  tx_eq : b'.tx = b.tx ++ (spi.flatMap Spi.reply).map .reply
    ++ if b.raised i then [.notify] else []
  touched_lt : (∀ i ∈ b.touched, i < 255) → ∀ i ∈ b'.touched, i < 255
  reply_lt : ∀ s ∈ spi, s.reply.length < 256
  after : Matches b'.toParser p
  idle : spi ≠ [] → b'.toParser.Idle

/-- One iteration against the reference grammar: it takes one octet, if there
is one, and performs the command this octet completes, if it does. -/
theorem loop_iterates {b : Board} {p : List UInt8} (h : Matches b.toParser p) (i : LoopInput) :
    ∃ spi p', Iterates b (b.loop i) i spi p' ∧
      decode (p ++ b.rx.take 1) = (spi.map Spi.command, p') := by
  rcases hrx : b.rx with _ | ⟨c, rest⟩
  · have hr : b.receive = b := by simp only [Board.receive, hrx]
    obtain ⟨h₁, h₂, h₃, h₄, h₅⟩ := signal_frame b i
    have hl : b.loop i = b.signal i := by
      rw [Board.loop, hr, execute_of_matches h]
    refine ⟨[], p, ?_, by simpa using decode_of_matches h⟩
    rw [hl]
    exact ⟨by rw [h₂, hrx, List.tail_nil], by simpa using h₃, by simpa using h₅,
      fun ht => h₄ ▸ ht, by simp, h₁ ▸ h, by simp⟩
  · obtain ⟨spi, p', hp, hd⟩ := receive_execute h hrx i.miso
    obtain ⟨h₁, h₂, h₃, h₄, h₅⟩ := signal_frame (b.receive.execute i.miso) i
    refine ⟨spi, p', ?_, by simpa using hd⟩
    rw [Board.loop]
    refine ⟨by rw [h₂, hp.rx_eq, hrx, List.tail_cons], by rw [h₃, hp.spi_eq], ?_,
      fun ht => h₄ ▸ hp.touched_lt ht, hp.reply_lt, h₁ ▸ hp.after, fun hne => h₁ ▸ hp.idle hne⟩
    rw [h₅, hp.tx_eq, hp.raised_eq]

/-! ### Runs -/

/-- An octet arrives on the serial line, or `loop()` is run once more. -/
inductive LineEvent where
  | arrive (c : UInt8)
  | iterate (i : LoopInput)

def Board.step (b : Board) : LineEvent → Board
  | .arrive c => { b with rx := b.rx ++ [c] }
  | .iterate i => b.loop i

def Board.run (b : Board) (es : List LineEvent) : Board := es.foldl Board.step b

/-- The octets that arrive over a run. -/
def arrivals : List LineEvent → List UInt8
  | [] => []
  | .arrive c :: es => c :: arrivals es
  | .iterate _ :: es => arrivals es

/-- The octets of the replies among what was sent. -/
def replies (tx : List Emit) : List UInt8 :=
  tx.filterMap fun
    | .reply c => some c
    | .notify => none

@[simp] theorem replies_append (tx tx' : List Emit) :
    replies (tx ++ tx') = replies tx ++ replies tx' :=
  List.filterMap_append

@[simp] theorem replies_map_reply (l : List UInt8) : replies (l.map .reply) = l := by
  induction l with
  | nil => rfl
  | cons c l ih => simp [replies]

@[simp] theorem replies_notify (raised : Bool) :
    replies (if raised then [Emit.notify] else []) = [] := by
  cases raised <;> rfl

/-- The state of the board after the octets `a` have arrived: the transactions
performed are the commands of the octets taken so far. -/
structure Follows (a : List UInt8) (b : Board) : Prop where
  decoded : ∃ s p, s ++ b.rx = a ∧ decode s = (b.spi.map Spi.command, p) ∧ Matches b.toParser p
  touched_lt : ∀ i ∈ b.touched, i < 255
  replies_eq : replies b.tx = b.spi.flatMap Spi.reply
  reply_lt : ∀ s ∈ b.spi, s.reply.length < 256

theorem follows_reset : Follows [] Board.reset :=
  ⟨⟨[], [], rfl, decode_nil, rfl⟩, by simp [Board.reset], rfl, by simp [Board.reset]⟩

theorem Follows.arrive {a : List UInt8} {b : Board} (h : Follows a b) (c : UInt8) :
    Follows (a ++ [c]) (b.step (.arrive c)) := by
  obtain ⟨s, p, hs, hd, hm⟩ := h.decoded
  exact ⟨⟨s, p, by rw [Board.step, ← hs, List.append_assoc], hd, hm⟩, h.touched_lt,
    h.replies_eq, h.reply_lt⟩

theorem Follows.iterate {a : List UInt8} {b : Board} (h : Follows a b) (i : LoopInput) :
    Follows a (b.step (.iterate i)) := by
  obtain ⟨s, p, hs, hd, hm⟩ := h.decoded
  obtain ⟨spi, p', hi, hd'⟩ := loop_iterates hm i
  refine ⟨⟨s ++ b.rx.take 1, p', ?_, ?_, hi.after⟩, hi.touched_lt h.touched_lt, ?_, ?_⟩
  · rw [Board.step, hi.rx_eq, List.append_assoc, ← hs, ← List.drop_one, List.take_append_drop]
  · rw [decode_append, hd, Board.step, hi.spi_eq, List.map_append, hd']
  · rw [Board.step, hi.tx_eq, hi.spi_eq, List.flatMap_append, replies_append, replies_append,
      replies_map_reply, replies_notify, h.replies_eq, List.append_nil]
  · intro s hs
    rw [Board.step, hi.spi_eq] at hs
    rcases List.mem_append.mp hs with hs | hs
    · exact h.reply_lt s hs
    · exact hi.reply_lt s hs

theorem Follows.run {es : List LineEvent} : ∀ {a : List UInt8} {b : Board}, Follows a b →
    Follows (a ++ arrivals es) (b.run es) := by
  induction es with
  | nil =>
    intro a b h
    simpa [arrivals, Board.run] using h
  | cons e es ih =>
    intro a b h
    cases e with
    | arrive c =>
      have hr := ih (h.arrive c)
      rw [List.append_assoc] at hr
      exact hr
    | iterate i => exact ih (h.iterate i)

/-- What it means that a transaction performs a command: the same register,
the data of a write, the number of octets of a read. -/
def Spi.Does : Spi → Command → Prop
  | .write reg data, .write reg' data' => reg = reg' ∧ data = data'
  | .read reg data, .read reg' len => reg = reg' ∧ data.length = len.toNat
  | _, _ => False

theorem does_command {s : Spi} (h : s.reply.length < 256) : s.Does s.command := by
  cases s with
  | write reg data => exact ⟨rfl, rfl⟩
  | read reg data => exact ⟨rfl, (UInt8.toNat_ofNat_of_lt' h).symm⟩

theorem forall₂_does {l : List Spi} (h : ∀ s ∈ l, s.reply.length < 256) :
    List.Forall₂ Spi.Does l (l.map Spi.command) := by
  rw [List.forall₂_map_right_iff]
  exact List.forall₂_same.mpr fun s hs => does_command (h s hs)

/-- **The bridge executes the reference grammar.**  After any run from the
start of the sketch the transactions performed are the commands of the octets
taken so far, in order; the cells of `buffer` used are cells it has; the reply
octets sent are the octets clocked in.  One more iteration takes one more
octet and leaves the parser idle if it performed a transaction.  When the
octets are those of a list of host calls and all have been taken, exactly
these calls have been performed. -/
theorem board_executes (es : List LineEvent) :
    (∃ s p, s ++ (Board.reset.run es).rx = arrivals es ∧
      List.Forall₂ Spi.Does (Board.reset.run es).spi (decode s).1 ∧
      (decode s).2 = p ∧ Matches (Board.reset.run es).toParser p) ∧
    (∀ i ∈ (Board.reset.run es).touched, i < 255) ∧
    replies (Board.reset.run es).tx = (Board.reset.run es).spi.flatMap Spi.reply ∧
    (∀ i, ((Board.reset.run es).loop i).rx = (Board.reset.run es).rx.tail ∧
      (((Board.reset.run es).loop i).spi = (Board.reset.run es).spi ∨
        ((Board.reset.run es).loop i).toParser.Idle)) ∧
    ∀ calls : List HostCall, arrivals es = calls.flatMap HostCall.octets →
      (Board.reset.run es).rx = [] →
      List.Forall₂ Spi.Does (Board.reset.run es).spi (calls.map HostCall.command) ∧
        (Board.reset.run es).count = 0 := by
  have h : Follows (arrivals es) (Board.reset.run es) := follows_reset.run
  obtain ⟨s, p, hs, hd, hm⟩ := h.decoded
  have hdoes := forall₂_does h.reply_lt
  refine ⟨⟨s, p, hs, by rwa [hd], by rw [hd], hm⟩, h.touched_lt, h.replies_eq, ?_, ?_⟩
  · intro i
    obtain ⟨spi, p', hi, -⟩ := loop_iterates hm i
    refine ⟨hi.rx_eq, ?_⟩
    rcases eq_or_ne spi [] with rfl | hne
    · exact .inl (by rw [hi.spi_eq, List.append_nil])
    · exact .inr (hi.idle hne)
  · intro calls hcalls hrx
    rw [hrx, List.append_nil] at hs
    rw [hs, hcalls, decode_calls, Prod.mk.injEq] at hd
    obtain ⟨hc, rfl⟩ := hd
    exact ⟨hc ▸ hdoes, hm⟩

end Firmware
