/-
The host driver and the bridge firmware on one serial line.

`RHUartDriver` writes its commands to the line and, for a read, takes octets
off the line until it has as many as it asked for (`uartRx`); in between,
`available()` takes one octet and treats an `'I'` as a notification.  Replies
and notifications share the line, and nothing but their order tells them
apart.  The octets of the model carry where they came from (`Emit`), which
neither side can see.

* `Link` — both ends and the octets in flight; `Link.step` — one event;
* `Link.Exact` — reads return what the SPI reads produced and notifications
  reach `available()`;
* `Link.Undisturbed` — no `'I'` is in the way of a reply;
* `link_exact` — runs of undisturbed steps are exact;
* `read_takes_notification` — a run that is not.
-/
import RadioHead.Firmware

open Wire Firmware Run

namespace Bridge

/-- Where the host is: between calls, or in the loop of `uartRx` with the
octets stored so far. -/
inductive HostState where
  | idle
  | reading (len : UInt8) (got : List Emit)
  deriving DecidableEq

/-- The two ends of the line.  `toFw` and `toHost` are the octets in flight,
`hostReads` what the completed reads stored, `polled` what `available()`
took. -/
structure Link where
  host : HostState
  toFw : List UInt8
  toHost : List Emit
  board : Board
  hostReads : List (List Emit)
  polled : List Emit

def Link.start : Link where
  host := .idle
  toFw := []
  toHost := []
  board := Board.reset
  hostReads := []
  polled := []

/-- What can happen next: a register access of the host, one round of the
loop of `uartRx`, a look at the line by `available()`, the arrival of an octet
at the bridge, an iteration of its `loop()`. -/
inductive Event where
  | access (a : RegAccess)
  | store
  | available
  | arrive
  | iterate (i : LoopInput)

/-- The host starts a call: `uartTx` only writes, `uartRx` writes its request
and goes on to wait for octets. -/
def Link.call (l : Link) (c : HostCall) : Link :=
  { l with
    toFw := l.toFw ++ c.octets
    host := match c with
      | .uartTx _ _ _ => .idle
      | .uartRx _ len => .reading len [] }

/-- One round of the loop of `uartRx` that finds an octet: store it, and stop
after the last. -/
def Link.store (l : Link) (len : UInt8) (got : List Emit) (e : Emit) (rest : List Emit) : Link :=
  if len.toNat ≤ got.length + 1 then
    { l with toHost := rest, host := .idle, hostReads := l.hostReads ++ [got ++ [e]] }
  else { l with toHost := rest, host := .reading len (got ++ [e]) }

def Link.iterate (l : Link) (i : LoopInput) : Link :=
  { l with
    board := l.board.loop i
    toHost := l.toHost ++ (l.board.loop i).tx.drop l.board.tx.length }

/-- One event; `none` if it cannot happen now. -/
def Link.step (l : Link) : Event → Option Link
  | .access a =>
    match l.host with
    | .idle => some (l.call a.call)
    | .reading _ _ => none
  | .store =>
    match l.host, l.toHost with
    | .reading len got, e :: rest => some (l.store len got e rest)
    | _, _ => none
  | .available =>
    match l.host, l.toHost with
    | .idle, e :: rest => some { l with toHost := rest, polled := l.polled ++ [e] }
    | .idle, [] => some l
    | .reading _ _, _ => none
  | .arrive =>
    match l.toFw with
    | c :: rest => some { l with toFw := rest, board := l.board.step (.arrive c) }
    | [] => none
  | .iterate i => some (l.iterate i)

/-- What the SPI reads clocked in, one entry for each. -/
def spiReads (spi : List Spi) : List (List UInt8) :=
  spi.filterMap fun
    | .read _ data => some data
    | .write _ _ => none

@[simp] theorem spiReads_append (spi spi' : List Spi) :
    spiReads (spi ++ spi') = spiReads spi ++ spiReads spi' :=
  List.filterMap_append

/-- The `n`-th completed read of the host stored the octets of the `n`-th SPI
read, all of them octets of replies, and `available()` only took `'I'`s. -/
def Link.Exact (l : Link) : Prop :=
  l.hostReads <+: (spiReads l.board.spi).map (·.map .reply) ∧ ∀ e ∈ l.polled, e = .notify

/-- The host waits for a reply that the bridge has not started to send. -/
def Link.Awaiting (l : Link) : Prop :=
  l.host ≠ .idle ∧ (spiReads l.board.spi).length = l.hostReads.length

/-- No `'I'` gets in the way of a reply: a read of at least one octet starts
with none on the line, and while it waits for its reply the bridge sends none,
unless it performs the read in the same iteration, before the `'I'`. -/
def Link.Undisturbed (l : Link) : Event → Prop
  | .access a =>
    match a.call with
    | .uartRx _ len => 0 < len.toNat ∧ .notify ∉ l.toHost
    | .uartTx _ _ _ => True
  | .iterate i =>
    l.Awaiting → l.board.raised i → l.board.receive.command = chR ∧ 3 ≤ l.board.receive.count
  | _ => True

instance (l : Link) : Decidable l.Awaiting :=
  inferInstanceAs (Decidable (l.host ≠ .idle ∧ _))

instance (l : Link) : ∀ e, Decidable (l.Undisturbed e)
  | .access a =>
    match h : a.call with
    | .uartRx _ len =>
      decidable_of_iff (0 < len.toNat ∧ .notify ∉ l.toHost) (by simp only [Link.Undisturbed, h])
    | .uartTx _ _ _ => .isTrue (by simp only [Link.Undisturbed, h])
  | .iterate i =>
    inferInstanceAs (Decidable (l.Awaiting → l.board.raised i →
      l.board.receive.command = chR ∧ 3 ≤ l.board.receive.count))
  | .store => .isTrue trivial
  | .available => .isTrue trivial
  | .arrive => .isTrue trivial

/-! ### The invariant -/

/-- No read among the commands. -/
def Writes (cs : List Command) : Prop := ∀ reg len, Command.read reg len ∉ cs

theorem Writes.append {cs ds : List Command} (hc : Writes cs) (hd : Writes ds) :
    Writes (cs ++ ds) := fun reg len h =>
  (List.mem_append.mp h).elim (hc reg len) (hd reg len)

theorem spiReads_of_writes {spi : List Spi} (h : Writes (spi.map Spi.command)) :
    spiReads spi = [] ∧ spi.flatMap Spi.reply = [] := by
  have hw : ∀ s ∈ spi, ∃ reg data, s = .write reg data := by
    intro s hs
    cases s with
    | write reg data => exact ⟨reg, data, rfl⟩
    | read reg data => exact absurd (List.mem_map_of_mem hs) (h reg _)
  constructor
  · rw [spiReads, List.filterMap_eq_nil_iff]
    intro s hs
    obtain ⟨reg, data, rfl⟩ := hw s hs
    rfl
  · rw [List.flatMap_eq_nil_iff]
    intro s hs
    obtain ⟨reg, data, rfl⟩ := hw s hs
    rfl

/-- What the completed reads should have stored. -/
def Link.served (l : Link) : List (List Emit) := (spiReads l.board.spi).map (·.map .reply)

/-- Where the host is, given the commands `pend` that the bridge has yet to
perform: between calls only writes are under way and only `'I'`s come back;
in a read, either the request is the last command under way and nothing comes
back yet, or the reply is on the line, ahead of every `'I'`. -/
inductive HostInv (l : Link) : List Command → Prop where
  | idle {pend : List Command} (host : l.host = .idle) (writes : Writes pend)
      (served : l.hostReads = l.served) (line : ∀ e ∈ l.toHost, e = .notify) : HostInv l pend
  | awaiting {ws : List Command} {reg len : UInt8} (host : l.host = .reading len [])
      (pos : 0 < len.toNat) (writes : Writes ws) (served : l.hostReads = l.served)
      (line : l.toHost = []) : HostInv l (ws ++ [.read reg len])
  | replied {len : UInt8} {got ns : List Emit} {data : List UInt8}
      (host : l.host = .reading len got) (line : got ++ l.toHost = data.map .reply ++ ns)
      (notes : ∀ e ∈ ns, e = .notify) (length : data.length = len.toNat)
      (more : got.length < len.toNat)
      (served : l.hostReads ++ [data.map .reply] = l.served) : HostInv l []

/-- The invariant of undisturbed runs. -/
structure Inv (l : Link) : Prop where
  host : ∃ p pend, Matches l.board.toParser p ∧
    decode (p ++ l.board.rx ++ l.toFw) = (pend, []) ∧ HostInv l pend
  polled : ∀ e ∈ l.polled, e = .notify

theorem inv_start : Inv Link.start :=
  ⟨⟨[], [], rfl, by simp [Link.start, Board.reset], .idle rfl (fun _ _ => by simp) rfl
    (by simp [Link.start])⟩, by simp [Link.start]⟩

theorem HostInv.exact {l : Link} {pend : List Command} (h : HostInv l pend) :
    l.hostReads <+: l.served := by
  cases h with
  | idle _ _ served _ => exact served ▸ List.prefix_rfl
  | awaiting _ _ _ served _ => exact served ▸ List.prefix_rfl
  | replied _ _ _ _ _ served => exact ⟨_, served⟩

theorem Inv.exact {l : Link} (h : Inv l) : l.Exact := by
  obtain ⟨_, _, -, -, hh⟩ := h.host
  exact ⟨hh.exact, h.polled⟩

/-- The host starts a register access. -/
theorem Inv.access {l : Link} (h : Inv l) {a : RegAccess} (hok : l.Undisturbed (.access a))
    (hidle : l.host = .idle) : Inv (l.call a.call) := by
  obtain ⟨p, pend, hm, hd, hh⟩ := h.host
  have hd' : decode (p ++ l.board.rx ++ (l.toFw ++ a.call.octets))
      = (pend ++ [a.call.command], []) := by
    have hc := decode_calls [a.call]
    rw [List.flatMap_singleton] at hc
    rw [← List.append_assoc, decode_append, hd, List.nil_append, hc]
    rfl
  cases hh with
  | awaiting host => exact absurd (hidle.symm.trans host) (by simp)
  | replied host => exact absurd (hidle.symm.trans host) (by simp)
  | idle _ writes served line =>
    refine ⟨⟨p, _, hm, hd', ?_⟩, h.polled⟩
    rw [Link.Undisturbed] at hok
    cases hcall : a.call with
    | uartTx reg src len =>
      exact .idle rfl (writes.append fun _ _ => by simp [HostCall.command]) served line
    | uartRx reg len =>
      simp only [hcall] at hok
      -- nothing but `'I'`s can be on the line, and there are none
      have hnil : l.toHost = [] := by
        rw [List.eq_nil_iff_forall_not_mem]
        exact fun e he => hok.2 (line e he ▸ he)
      exact .awaiting rfl hok.1 writes served hnil

/-- The host takes an octet in the loop of `uartRx`. -/
theorem Inv.store {l : Link} (h : Inv l) {len : UInt8} {got rest : List Emit} {e : Emit}
    (hhost : l.host = .reading len got) (hline : l.toHost = e :: rest) :
    Inv (l.store len got e rest) := by
  obtain ⟨p, pend, hm, hd, hh⟩ := h.host
  cases hh with
  | idle host => exact absurd (host.symm.trans hhost) (by simp)
  | awaiting host _ _ _ line => exact absurd (line.symm.trans hline) (by simp)
  | @replied len' got' ns data host line notes length more served =>
    obtain ⟨rfl, rfl⟩ : len' = len ∧ got' = got := by simpa [hhost] using host.symm
    rw [hline] at line
    -- the octet is the next one of the reply
    have hsplit : (got' ++ [e]) ++ rest = data.map .reply ++ ns := by
      rw [← line, List.append_assoc, List.singleton_append]
    have hlen : (got' ++ [e]).length = got'.length + 1 := by simp
    have hdata : (data.map Emit.reply).length = len'.toNat := by rw [List.length_map, length]
    rw [Link.store]
    by_cases hlast : len'.toNat ≤ got'.length + 1
    · obtain ⟨hgot, hrest⟩ := List.append_inj hsplit (by omega)
      rw [if_pos hlast]
      refine ⟨⟨p, [], hm, hd, .idle rfl (fun _ _ => by simp) ?_ ?_⟩, h.polled⟩
      · rw [hgot]
        exact served
      · exact hrest ▸ notes
    · rw [if_neg hlast]
      exact ⟨⟨p, [], hm, hd, .replied rfl hsplit notes length (by omega) served⟩, h.polled⟩

/-- `available()` looks at the line between calls: what it takes is an `'I'`. -/
theorem Inv.available {l : Link} (h : Inv l) {rest : List Emit} {e : Emit}
    (hidle : l.host = .idle) (hline : l.toHost = e :: rest) :
    Inv { l with toHost := rest, polled := l.polled ++ [e] } := by
  obtain ⟨p, pend, hm, hd, hh⟩ := h.host
  cases hh with
  | awaiting host => exact absurd (hidle.symm.trans host) (by simp)
  | replied host => exact absurd (hidle.symm.trans host) (by simp)
  | idle _ writes served line =>
    rw [hline] at line
    refine ⟨⟨p, pend, hm, hd, .idle hidle writes served fun e' he' => line e' (.tail _ he')⟩, ?_⟩
    intro e' he'
    rcases List.mem_append.mp he' with he' | he'
    · exact h.polled e' he'
    · rw [List.mem_singleton] at he'
      exact he' ▸ line e (.head _)

/-- An octet arrives at the bridge. -/
theorem Inv.arrive {l : Link} (h : Inv l) {c : UInt8} {rest : List UInt8}
    (hline : l.toFw = c :: rest) :
    Inv { l with toFw := rest, board := l.board.step (.arrive c) } := by
  obtain ⟨p, pend, hm, hd, hh⟩ := h.host
  refine ⟨⟨p, pend, hm, ?_, ?_⟩, h.polled⟩
  · rw [hline] at hd
    simpa [Board.step] using hd
  · cases hh with
    | idle host writes served line => exact .idle host writes served line
    | awaiting host pos writes served line => exact .awaiting host pos writes served line
    | replied host line notes length more served =>
      exact .replied host line notes length more served

/-- What an iteration adds to the line: the reply of the read it performs, if
it performs one, then the `'I'`, if it found `intFlag` set. -/
theorem iterate_toHost {l : Link} {i : LoopInput} {spi : List Spi} {p : List UInt8}
    (h : Iterates l.board (l.board.loop i) i spi p) :
    (l.iterate i).toHost = l.toHost ++ ((spi.flatMap Spi.reply).map .reply
      ++ if l.board.raised i then [.notify] else []) := by
  rw [Link.iterate, h.tx_eq, List.append_assoc, List.drop_left]

theorem iterate_served {l : Link} {i : LoopInput} {spi : List Spi} {p : List UInt8}
    (h : Iterates l.board (l.board.loop i) i spi p) :
    (l.iterate i).served = l.served ++ (spiReads spi).map (·.map .reply) := by
  rw [Link.served, Link.iterate, h.spi_eq, spiReads_append, List.map_append, Link.served]

theorem notes_raised (b : Board) (i : LoopInput) :
    ∀ e ∈ (if b.raised i then [Emit.notify] else []), e = .notify := by
  cases b.raised i <;> simp

/-- An iteration at whose command test a read is complete performs a read. -/
theorem loop_reads {b : Board} {i : LoopInput} {spi : List Spi} {p q : List UInt8}
    (hm : Matches b.toParser p) (h : Iterates b (b.loop i) i spi q)
    (hc : b.receive.command = chR ∧ 3 ≤ b.receive.count) :
    ∃ reg data, spi = [.read reg data] := by
  have hloop : (b.loop i).spi = (b.receive.execute i.miso).spi := (signal_frame _ i).2.2.1
  have hrec : b.receive.spi = b.spi := by
    rcases hrx : b.rx with _ | ⟨c, rest⟩
    · simp only [Board.receive, hrx]
    · exact (receive_receives hm hrx).spi_eq
  rw [Board.execute, if_neg (by rw [hc.1]; simp [chW, chR]), if_pos hc] at hloop
  rw [h.spi_eq, hrec] at hloop
  exact ⟨_, _, List.append_cancel_left hloop⟩

section Iteration

variable {l : Link} {i : LoopInput} {spi : List Spi} {p p' : List UInt8}

/-- The commands that an iteration performs are the first of those under way. -/
theorem iterate_pending {pend : List Command}
    (hi : Iterates l.board (l.board.loop i) i spi p')
    (htaken : decode (p ++ l.board.rx.take 1) = (spi.map Spi.command, p'))
    (hd : decode (p ++ l.board.rx ++ l.toFw) = (pend, [])) :
    ∃ pend', pend = spi.map Spi.command ++ pend' ∧
      decode (p' ++ (l.iterate i).board.rx ++ l.toFw) = (pend', []) := by
  have hrx : (l.iterate i).board.rx = l.board.rx.tail := hi.rx_eq
  have hall : p ++ l.board.rx ++ l.toFw
      = (p ++ l.board.rx.take 1) ++ (l.board.rx.tail ++ l.toFw) := by
    rw [← List.drop_one, List.append_assoc p (l.board.rx.take 1),
      ← List.append_assoc (l.board.rx.take 1), List.take_append_drop, List.append_assoc]
  rw [hall, decode_append, htaken, Prod.mk.injEq] at hd
  refine ⟨_, hd.1.symm, ?_⟩
  rw [hrx, List.append_assoc]
  exact Prod.ext rfl hd.2

/-- If it performs writes only, no read is served, and all that goes up the line
is an `'I'`, perhaps. -/
theorem iterate_writes (hi : Iterates l.board (l.board.loop i) i spi p')
    (hw : Writes (spi.map Spi.command)) :
    (l.iterate i).served = l.served ∧
      (l.iterate i).toHost = l.toHost ++ if l.board.raised i then [.notify] else [] := by
  obtain ⟨hr, hf⟩ := spiReads_of_writes hw
  constructor
  · rw [iterate_served hi, hr, List.map_nil, List.append_nil]
  · rw [iterate_toHost hi, hf, List.map_nil, List.nil_append]

/-- The read that the host waits for is performed: its reply is on the line. -/
theorem HostInv.reply (hi : Iterates l.board (l.board.loop i) i spi p') {ws : List Command}
    {reg len : UInt8} (hspi : spi.map Spi.command = ws ++ [.read reg len])
    (host : l.host = .reading len []) (pos : 0 < len.toNat) (writes : Writes ws)
    (served : l.hostReads = l.served) (line : l.toHost = []) : HostInv (l.iterate i) [] := by
  have hline := iterate_toHost hi
  have hserved := iterate_served hi
  rcases List.eq_nil_or_concat spi with rfl | ⟨spi, s, rfl⟩
  · exact absurd hspi (by simp)
  rw [List.concat_eq_append, List.map_append] at hspi
  obtain ⟨rfl, hs⟩ := List.append_inj' hspi rfl
  obtain ⟨hr, hf⟩ := spiReads_of_writes writes
  cases s with
  | write reg' data => exact absurd hs (by simp [Spi.command])
  | read reg' data =>
    have hlt : data.length < 256 := hi.reply_lt (Spi.read reg' data) (by simp)
    have hlen : data.length = len.toNat := by
      rw [List.map_singleton, List.cons.injEq, Spi.command, Command.read.injEq] at hs
      rw [← hs.1.2, UInt8.toNat_ofNat_of_lt' hlt]
    -- the writes before it have no reply
    have hreply : (spi ++ [Spi.read reg' data]).flatMap Spi.reply = data := by
      rw [List.flatMap_append, hf]
      simp [Spi.reply]
    have hone : spiReads (spi ++ [Spi.read reg' data]) = [data] := by
      rw [spiReads_append, hr]
      rfl
    rw [List.concat_eq_append] at hline hserved
    rw [hreply, line, List.nil_append] at hline
    rw [hone] at hserved
    refine .replied host ?_ (notes_raised l.board i) hlen (by simpa using pos) ?_
    · rw [List.nil_append]
      exact hline
    · rw [hserved, ← served]
      rfl

/-- As long as it is not performed, no `'I'` is sent. -/
theorem iterate_quiet (hm : Matches l.board.toParser p)
    (hi : Iterates l.board (l.board.loop i) i spi p') (hok : l.Undisturbed (.iterate i))
    (hw : Writes (spi.map Spi.command)) (hwait : l.Awaiting) : l.board.raised i = false := by
  by_contra hraised
  rw [Bool.not_eq_false] at hraised
  obtain ⟨reg, data, rfl⟩ := loop_reads hm hi (hok hwait hraised)
  exact hw _ _ (List.mem_singleton.mpr rfl)

theorem HostInv.iterate {pend pend' : List Command} (h : HostInv l pend)
    (hm : Matches l.board.toParser p) (hi : Iterates l.board (l.board.loop i) i spi p')
    (hok : l.Undisturbed (.iterate i)) (hpend : pend = spi.map Spi.command ++ pend') :
    HostInv (l.iterate i) pend' := by
  cases h with
  | idle host writes served line =>
    rw [hpend] at writes
    obtain ⟨hserved, hline⟩ :=
      iterate_writes hi fun reg len hmem => writes reg len (List.mem_append_left _ hmem)
    refine .idle host (fun reg len hmem => writes reg len (List.mem_append_right _ hmem)) ?_ ?_
    · rw [hserved]
      exact served
    · rw [hline]
      exact fun e he => (List.mem_append.mp he).elim (line e) (notes_raised _ _ e)
  | @awaiting ws reg len host pos writes served line =>
    rcases List.eq_nil_or_concat pend' with rfl | ⟨ws', c, rfl⟩
    · rw [List.append_nil] at hpend
      exact .reply hi hpend.symm host pos writes served line
    · -- the read comes after those that are performed
      rw [List.concat_eq_append, ← List.append_assoc] at hpend
      obtain ⟨rfl, hc⟩ := List.append_inj' hpend rfl
      obtain rfl : Command.read reg len = c := by simpa using hc
      have hw : Writes (spi.map Spi.command) := fun reg len hmem =>
        writes reg len (List.mem_append_left _ hmem)
      have hwait : l.Awaiting := by
        refine ⟨by simp [host], ?_⟩
        rw [served, Link.served, List.length_map]
      obtain ⟨hserved, hline⟩ := iterate_writes hi hw
      rw [List.concat_eq_append]
      refine .awaiting host pos (fun reg len hmem =>
        writes reg len (List.mem_append_right _ hmem)) ?_ ?_
      · rw [hserved]
        exact served
      · rw [hline, iterate_quiet hm hi hok hw hwait, line]
        rfl
  | @replied len got ns data host line notes length more served =>
    -- nothing is under way, and an `'I'` comes behind the reply
    obtain ⟨hspi, rfl⟩ := List.append_eq_nil_iff.mp hpend.symm
    obtain ⟨hserved, hline⟩ := iterate_writes hi fun reg len hmem => by
      rw [hspi] at hmem
      cases hmem
    have hnotes : ∀ e ∈ ns ++ (if l.board.raised i then [Emit.notify] else []), e = .notify :=
      fun e he => (List.mem_append.mp he).elim (notes e) (notes_raised _ _ e)
    refine .replied host ?_ hnotes length more ?_
    · rw [hline, ← List.append_assoc, line, List.append_assoc]
    · rw [hserved, ← served]
      rfl

end Iteration

/-- An iteration of the bridge. -/
theorem Inv.iterate {l : Link} (h : Inv l) {i : LoopInput}
    (hok : l.Undisturbed (.iterate i)) : Inv (l.iterate i) := by
  obtain ⟨p, pend, hm, hd, hh⟩ := h.host
  obtain ⟨spi, p', hi, htaken⟩ := loop_iterates hm i
  obtain ⟨pend', hpend, hrest⟩ := iterate_pending hi htaken hd
  exact ⟨⟨p', pend', hi.after, hrest, hh.iterate hm hi hok hpend⟩, h.polled⟩

/-- One undisturbed step keeps the invariant. -/
theorem Inv.step {l : Link} (h : Inv l) {e : Event} (hok : l.Undisturbed e) {l' : Link}
    (hstep : l.step e = some l') : Inv l' := by
  cases e with
  | access a =>
    cases hhost : l.host with
    | reading len got => simp [Link.step, hhost] at hstep
    | idle =>
      obtain rfl : l.call a.call = l' := by simpa [Link.step, hhost] using hstep
      exact h.access hok hhost
  | store =>
    cases hhost : l.host with
    | idle => simp [Link.step, hhost] at hstep
    | reading len got =>
      rcases hline : l.toHost with _ | ⟨e, rest⟩
      · simp [Link.step, hhost, hline] at hstep
      · obtain rfl : l.store len got e rest = l' := by simpa [Link.step, hhost, hline] using hstep
        exact h.store hhost hline
  | available =>
    cases hhost : l.host with
    | reading len got => simp [Link.step, hhost] at hstep
    | idle =>
      rcases hline : l.toHost with _ | ⟨e, rest⟩
      · obtain rfl : l = l' := by simpa [Link.step, hhost, hline] using hstep
        exact h
      · obtain rfl : { l with toHost := rest, polled := l.polled ++ [e] } = l' := by
          simpa [Link.step, hhost, hline] using hstep
        exact h.available hhost hline
  | arrive =>
    rcases hline : l.toFw with _ | ⟨c, rest⟩
    · simp [Link.step, hline] at hstep
    · obtain rfl : { l with toFw := rest, board := l.board.step (.arrive c) } = l' := by
        simpa [Link.step, hline] using hstep
      exact h.arrive hline
  | iterate i =>
    obtain rfl : l.iterate i = l' := by simpa [Link.step] using hstep
    exact h.iterate hok

/-- **Undisturbed runs are exact.**  In every run of register accesses,
arrivals, iterations and calls of `available()` whose steps keep every `'I'`
out of the way of a reply, every completed read has stored exactly the octets
of its SPI read and `available()` has only taken `'I'`s. -/
theorem link_exact {es : List Event} {l : Link}
    (hok : AllSteps Link.step Link.Undisturbed Link.start es)
    (h : run Link.step Link.start es = some l) : l.Exact :=
  (run_induct (fun _ _ _ hi ho hs => Inv.step hi ho hs) inv_start hok h).exact

/-- An iteration with nothing on the SPI bus and no interrupt. -/
def quiet : LoopInput := ⟨fun _ => 0, false, false, false⟩

/-- An iteration that sees an interrupt. -/
def interrupted : LoopInput := ⟨fun _ => 0, false, true, false⟩

/-- The host reads the IRQ flags register, which holds `0x40`; an interrupt
comes in while the reply is under way, and `available()` takes its `'I'`. -/
def undisturbedRead : List Event :=
  [.access (.read 0x12), .arrive, .iterate quiet, .arrive, .iterate quiet, .arrive,
    .iterate ⟨fun _ => 0x40, false, true, false⟩, .store, .available]

theorem undisturbedRead_exact :
    ∃ l, run Link.step Link.start undisturbedRead = some l ∧ l.Exact ∧
      l.hostReads = [[.reply 0x40]] ∧ l.polled = [.notify] := by
  have h : run Link.step Link.start undisturbedRead = some _ := rfl
  exact ⟨_, h, link_exact (by decide) h, rfl, rfl⟩

/-- The same register, read while an `'I'` waits on the line: the read returns
the `'I'`. -/
theorem read_takes_notification :
    ∃ l, run Link.step Link.start [.iterate interrupted, .access (.read 0x12), .store] = some l ∧
      l.hostReads = [[.notify]] ∧ ¬ l.Exact := by
  refine ⟨_, rfl, rfl, fun h => ?_⟩
  have hlen := h.1.length_le
  exact absurd hlen (by decide)

end Bridge
