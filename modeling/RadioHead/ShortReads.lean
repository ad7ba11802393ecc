/-
Register reads that come back short.

`uartRx` gives up after three seconds and says neither that it did nor how many
octets it has stored: a `read` then yields 0, and a `burstRead` leaves the rest of
its destination as it was.  `handleInterrupt` makes five reads in a row, of the IRQ
flags, the length of the packet, its position, its octets and its RSSI, and any of
them can come back short.  What `validateRxBuf` looks at is the length that was
read, not how much of the packet has come.

* `ShortLink` — a link that delivers the first octets of each reply;
* `burstRead_short`, `read_short` — it is what `RHUartDriver` makes of a line that
  delivers the first octets of each reply;
* `Genuine` — after the handler, a new message in the buffer is the packet, and
  `recv` returns octets of it only;
* `genuine_iff` — when that is so.
-/
import RadioHead.RecvBounds
import RadioHead.UartDriver

open Wire

/-- A link of which the `k`-th reply from now on comes in as far as its first
`delivered k` octets; the rest is lost. -/
structure ShortLink (σ : Type) where
  link : σ
  delivered : ℕ → ℕ

namespace ShortLink

variable {σ : Type}

/-- The link when a reply has come in. -/
def next (w : ShortLink σ) (link : σ) : ShortLink σ where
  link := link
  delivered k := w.delivered (k + 1)

/-- `read` yields 0 if its octet does not come; `burstRead` stores what comes, up
to the length it asked for. -/
instance [HostLink σ] : HostLink (ShortLink σ) where
  uartAvailable w :=
    ((HostLink.uartAvailable w.link).1, { w with link := (HostLink.uartAvailable w.link).2 })
  uartRead w := ((HostLink.uartRead w.link).1, { w with link := (HostLink.uartRead w.link).2 })
  read reg w :=
    (if 0 < w.delivered 0 then (HostLink.read reg w.link).1 else 0,
      w.next (HostLink.read reg w.link).2)
  write reg val w := { w with link := HostLink.write reg val w.link }
  burstRead reg len w :=
    ((HostLink.burstRead reg len w.link).1.take (min (w.delivered 0) len.toNat),
      w.next (HostLink.burstRead reg len w.link).2)
  burstWrite reg data w := { w with link := HostLink.burstWrite reg data w.link }

end ShortLink

/-! ### The line -/

namespace RHUartDriver

variable {reg len : UInt8} {dest : Mem} {timerStart : UInt32} {s : Serial} {A : ℕ → Turn}

/-- A call that finds the line empty, and to which nothing comes in but the first
octets of its reply, stores the first octets of its reply. -/
theorem ReturnsAt.stores_take {n : ℕ} {r : Mem × Serial} {reply : List UInt8}
    (h : ReturnsAt reg len dest timerStart s A n r) (hempty : s.rx = [])
    (hreply : (arrivals A n).flatten <+: reply) (hlen : reply.length = len.toNat) :
    ∃ c, r.1 = dest.write 0 (reply.take (min c len.toNat)) := by
  obtain ⟨octets, -, hall, hdest⟩ := h.stores
  rw [hempty, List.nil_append] at hall
  have hpre : octets <+: reply := (hall ▸ List.prefix_append octets r.2.rx).trans hreply
  refine ⟨octets.length, ?_⟩
  rw [Nat.min_eq_left (hpre.length_le.trans_eq hlen), ← List.prefix_iff_eq_take.mp hpre, hdest]

end RHUartDriver

namespace ShortLink

open RHUartDriver

variable {σ : Type} [HostLink σ] {reg len : UInt8} {timerStart : UInt32} {s : Serial}
  {A : ℕ → Turn} {n : ℕ}

/-- `burstRead` over a line that delivers the first octets of the reply is
`burstRead` over a `ShortLink`. -/
theorem burstRead_short (link : σ) {dest : Mem} {r : Mem × Serial}
    (h : ReturnsAt (reg &&& ~~~writeMask) len dest timerStart s A n r) (hempty : s.rx = [])
    (hlen : (HostLink.burstRead reg len link).1.length = len.toNat)
    (hreply : (arrivals A n).flatten <+: (HostLink.burstRead reg len link).1) :
    ∃ c, RHUartDriver.burstRead reg dest len timerStart s (Polling.firstTurns A n) =
      some (dest.write 0 (HostLink.burstRead reg len (ShortLink.mk link fun _ => c)).1, r.2) := by
  obtain ⟨c, hc⟩ := h.stores_take hempty hreply hlen
  refine ⟨c, ?_⟩
  rw [RHUartDriver.burstRead, h.1]
  exact congrArg (fun m => some (m, r.2)) hc

/-- Likewise `read`. -/
theorem read_short (link : σ) {r : Mem × Serial}
    (h : ReturnsAt (reg &&& ~~~writeMask) 1 (fun _ => 0) timerStart s A n r) (hempty : s.rx = [])
    (hreply : (arrivals A n).flatten <+: [(HostLink.read reg link).1]) :
    ∃ c, RHUartDriver.read reg timerStart s (Polling.firstTurns A n) =
      some ((HostLink.read reg (ShortLink.mk link fun _ => c)).1, r.2) := by
  obtain ⟨c, hc⟩ := h.stores_take hempty hreply rfl
  refine ⟨c, ?_⟩
  have hval : r.1 0 = if 0 < c then (HostLink.read reg link).1 else 0 := by
    rw [hc]
    cases c with
    | zero => rfl
    | succ c =>
      have hone : min (c + 1) (1 : UInt8).toNat = 1 := Nat.min_eq_right (Nat.le_add_left 1 c)
      rw [hone, if_pos c.succ_pos]
      rfl
  rw [RHUartDriver.read, h.1, Option.map_some, hval]
  rfl

end ShortLink

/-! ### What the handler gets -/

namespace RF95

section Handler

variable {σ : Type} [HostLink σ]

/-- The IRQ flags that `handleInterrupt` gets. -/
def seenFlags (d : RF95 σ) : UInt8 := (d.read Reg.irqFlags).1

/-- The length of the packet that it gets, from a driver that has read the flags. -/
def seenLen (d : RF95 σ) : UInt8 := ((d.read Reg.irqFlags).2.read Reg.rxNbBytes).1

/-- The driver when the FIFO is positioned at the packet. -/
def positioned (d : RF95 σ) : RF95 σ :=
  let (_, d) := (d.read Reg.irqFlags).2.read Reg.rxNbBytes
  let (addr, d) := d.read Reg.fifoRxCurrentAddr
  d.write Reg.fifoAddrPtr addr

/-- The octets of the packet that it gets. -/
def seenOctets (d : RF95 σ) : List UInt8 :=
  (HostLink.burstRead Reg.fifo d.seenLen d.positioned.link).1

/-- The packet is for this node, going by the octet at the start of the buffer:
where none of the packet has come, that of an earlier one. -/
def Admits (d : RF95 σ) : Prop :=
  accepts { d.toMembers with rxHeaderTo := d.seenOctets.getD 0 (d.buf 0) }

instance (d : RF95 σ) : Decidable d.Admits := inferInstanceAs (Decidable (accepts _))

omit [HostLink σ] in
/-- When `validateRxBuf` leaves the flag set; the octets it leaves alone. -/
theorem validateRxBuf_valid_iff (d : RF95 σ) :
    d.validateRxBuf.buf = d.buf ∧ (d.validateRxBuf.rxBufValid = true ↔
      d.rxBufValid = true ∨ (4 ≤ d.bufLen.toNat ∧ accepts d.extractHeaders.toMembers)) := by
  have hlen : d.bufLen < 4 ↔ ¬ 4 ≤ d.bufLen.toNat := Nat.not_le.symm
  rw [validateRxBuf]
  split_ifs with hshort hacc
  · exact ⟨rfl, .inl, fun h => h.resolve_right fun h' => hlen.mp hshort h'.1⟩
  · exact ⟨rfl, fun _ => .inr ⟨not_not.mp (mt hlen.mpr hshort), hacc⟩, fun _ => rfl⟩
  · exact ⟨rfl, .inl, fun h => h.resolve_right fun h' => hacc h'.2⟩

/-- What the handler leaves in the buffer when there is a packet. -/
theorem handleInterrupt_packet {d : RF95 σ} (hrx : d.mode = .rx)
    (hgood : goodPacket d.seenFlags = true) :
    d.handleInterrupt.bufLen = d.seenLen ∧ d.handleInterrupt.buf = d.buf.write 0 d.seenOctets ∧
      (d.handleInterrupt.rxBufValid = true ↔
        d.rxBufValid = true ∨ (4 ≤ d.seenLen.toNat ∧ d.Admits)) ∧
      (d.handleInterrupt.rxBufValid = true → d.handleInterrupt.mode = .idle) := by
  have hd : d.handleInterrupt =
      (d.read Reg.irqFlags).2.handlePacket.write Reg.irqFlags 0xff := by
    rcases handleInterrupt_cases d with ⟨-, -, h⟩ | ⟨h, -⟩
    · exact h
    · exact absurd ⟨hrx, hgood⟩ h
  obtain ⟨hbuf, hvalid⟩ := validateRxBuf_valid_iff (d.read Reg.irqFlags).2.fetchPacket
  have hadmits : accepts (d.read Reg.irqFlags).2.fetchPacket.extractHeaders.toMembers ↔
      d.Admits := Iff.rfl
  rw [hd, write_members, handlePacket_members]
  refine ⟨(validateRxBuf_buf _).1, hbuf, ?_, fun h => if_pos h⟩
  rw [← hadmits]
  exact hvalid

/-- A packet not received without error leaves the buffer and the flag alone. -/
theorem handleInterrupt_still {d : RF95 σ} (hrx : d.mode = .rx)
    (hbad : ¬ goodPacket d.seenFlags = true) : d.handleInterrupt.rxBufValid = d.rxBufValid := by
  rcases handleInterrupt_cases d with ⟨-, h, -⟩ | ⟨-, hd | ⟨htx, -⟩ | hd⟩
  · exact absurd h hbad
  · rw [hd]
    rfl
  · rw [hrx] at htx
    cases htx
  · rw [hd]
    rfl

/-- `recv` when a message waits and the receiver is off. -/
theorem recv_idle {d : RF95 σ} (hidle : d.mode = .idle) (hvalid : d.rxBufValid = true)
    (len : UInt8) :
    (d.recv (some len)).1 = some (d.buf.load headerLen (clampLen len d.bufLen).toNat) := by
  have hstill : d.available.2.received = d.received := by
    refine available_still fun h => ?_
    have hrx := h.2.2.1
    rw [hidle] at hrx
    cases hrx
  have htx : d.available.2.mode ≠ .tx := by
    intro h
    have := available_tx h
    rw [hidle] at this
    cases this
  have hany : d.available.1 = true := by
    rw [available_fst htx, received_congr Members.rxBufValid hstill fun _ => rfl]
    exact hvalid
  rw [recv_eq, if_pos hany, Option.elim_some, received_congr Members.buf hstill fun _ => rfl,
    received_congr Members.bufLen hstill fun _ => rfl]

end Handler

/-- The octets that `recv` copies are octets just fetched, whatever the length it
is called with, exactly if the packet has come in as a whole or has no payload. -/
theorem copies_fetched_iff (buf : Mem) {octets : List UInt8} {bufLen : UInt8}
    (hle : octets.length ≤ bufLen.toNat) :
    (∀ len : UInt8, (buf.write 0 octets).load headerLen (clampLen len bufLen).toNat <+:
        octets.drop headerLen) ↔
      bufLen.toNat = headerLen ∨ (headerLen < bufLen.toNat ∧ octets.length = bufLen.toNat) := by
  have h255 := bufLen.toNat_lt
  constructor
  · intro h
    have hlen := (h 0xff).length_le
    rw [Mem.length_load, List.length_drop] at hlen
    rcases Nat.lt_or_ge bufLen.toNat headerLen with hrunt | hrunt
    · rw [clampLen_runt hrunt] at hlen
      omega
    · rw [clampLen_toNat hrunt] at hlen
      simp only [UInt8.reduceToNat] at hlen
      omega
  · rintro h len
    have hrunt : headerLen ≤ bufLen.toNat := by omega
    rw [clampLen_toNat hrunt]
    rcases h with h | ⟨-, h⟩
    · rw [h, Nat.sub_self, Nat.min_zero]
      exact List.nil_prefix
    · have hload := Mem.load_write
        (show headerLen + min len.toNat (bufLen.toNat - headerLen) ≤ octets.length by omega) buf 0
      rw [Nat.zero_add] at hload
      rw [hload]
      exact List.take_prefix _ _

/-! ### Genuine packets -/

section Short

variable {σ : Type} [HostLink σ] {d : RF95 (ShortLink σ)}

/-- The same driver on a link that delivers its replies as a whole. -/
def whole (d : RF95 (ShortLink σ)) : RF95 σ where
  toMembers := d.toMembers
  link := d.link.link

/-- The length comes in, or it is taken to be zero. -/
theorem seenLen_short (d : RF95 (ShortLink σ)) :
    d.seenLen = if 0 < d.link.delivered 1 then d.whole.seenLen else 0 := rfl

theorem length_seenOctets_le (d : RF95 (ShortLink σ)) :
    d.seenOctets.length ≤ d.seenLen.toNat :=
  (List.length_take_le _ _).trans (Nat.min_le_right _ _)

/-- All octets of the packet have come in. -/
def Complete (d : RF95 (ShortLink σ)) : Prop :=
  d.seenOctets = d.whole.seenOctets ∧ d.seenOctets.length = d.whole.seenLen.toNat

/-- What the flag is for, in a run of the handler. -/
structure Genuine (d : RF95 (ShortLink σ)) : Prop where
  /-- It becomes true only if all octets of the packet have come in. -/
  complete : d.rxBufValid = false → d.handleInterrupt.rxBufValid = true → d.Complete
  /-- After a packet `recv` copies octets of this packet only. -/
  fresh : goodPacket d.seenFlags = true → d.handleInterrupt.rxBufValid = true →
    ∀ len data, (d.handleInterrupt.recv (some len)).1 = some data →
      data <+: d.seenOctets.drop headerLen

/-- Where the handler gets the flags of a packet: with a message waiting, the
packet comes in up to its length, or it is just the headers; with none, a packet
that is taken for one to this node comes in as a whole. -/
def Delivered (d : RF95 (ShortLink σ)) : Prop :=
  goodPacket d.seenFlags = true →
    if d.rxBufValid = true then
      d.seenLen.toNat = headerLen ∨
        (headerLen < d.seenLen.toNat ∧ d.seenOctets.length = d.seenLen.toNat)
    else headerLen ≤ d.seenLen.toNat → d.Admits → d.Complete

instance (d : RF95 (ShortLink σ)) : Decidable d.Complete := inferInstanceAs (Decidable (_ ∧ _))

instance (d : RF95 (ShortLink σ)) : Decidable d.Delivered :=
  inferInstanceAs (Decidable (goodPacket d.seenFlags = true →
    if d.rxBufValid = true then
      d.seenLen.toNat = headerLen ∨
        (headerLen < d.seenLen.toNat ∧ d.seenOctets.length = d.seenLen.toNat)
    else headerLen ≤ d.seenLen.toNat → d.Admits → d.Complete))

/-- With the flag set after a packet, `recv` copies octets of the packet only, if
it has come in up to its length. -/
theorem fresh_iff (hrx : d.mode = .rx) (hgood : goodPacket d.seenFlags = true)
    (hvalid : d.handleInterrupt.rxBufValid = true) :
    (∀ len data, (d.handleInterrupt.recv (some len)).1 = some data →
        data <+: d.seenOctets.drop headerLen) ↔
      d.seenLen.toNat = headerLen ∨
        (headerLen < d.seenLen.toNat ∧ d.seenOctets.length = d.seenLen.toNat) := by
  obtain ⟨hlen, hbuf, -, hidle⟩ := handleInterrupt_packet hrx hgood
  rw [← copies_fetched_iff d.buf (length_seenOctets_le d)]
  refine forall_congr' fun len => ?_
  rw [recv_idle (hidle hvalid) hvalid, hlen, hbuf]
  simp

/-- A length that came in is the radio's. -/
theorem seenLen_of_pos (h : 0 < d.seenLen.toNat) : d.seenLen = d.whole.seenLen := by
  rw [seenLen_short] at h ⊢
  split_ifs at h ⊢
  · rfl
  · exact absurd h (lt_irrefl _)

/-- **The packets are genuine exactly if enough of them is delivered.** -/
theorem genuine_iff (hrx : d.mode = .rx) : d.Genuine ↔ d.Delivered := by
  by_cases hgood : goodPacket d.seenFlags = true
  case neg =>
    -- there is no packet, and the flag stays as it is
    refine iff_of_true ⟨fun hno hvalid => ?_, fun h => absurd h hgood⟩ fun h => absurd h hgood
    rw [handleInterrupt_still hrx hgood, hno] at hvalid
    cases hvalid
  case pos =>
    obtain ⟨-, -, hvalid, -⟩ := handleInterrupt_packet hrx hgood
    by_cases hwait : d.rxBufValid = true
    · -- a message waits, and the flag stays set
      have hset : d.handleInterrupt.rxBufValid = true := hvalid.mpr (.inl hwait)
      rw [Delivered, if_pos hwait]
      constructor
      · exact fun h _ => (fresh_iff hrx hgood hset).mp (h.fresh hgood hset)
      · intro h
        refine ⟨fun hno => ?_, fun _ _ => (fresh_iff hrx hgood hset).mpr (h hgood)⟩
        rw [hwait] at hno
        cases hno
    · -- the flag is set for a packet that looks like a message to this node
      have hnew : d.handleInterrupt.rxBufValid = true →
          headerLen ≤ d.seenLen.toNat ∧ d.Admits := fun h =>
        (hvalid.mp h).resolve_left hwait
      rw [Delivered, if_neg hwait]
      constructor
      · exact fun h _ hlen hadm =>
          h.complete (Bool.eq_false_iff.mpr hwait) (hvalid.mpr (.inr ⟨hlen, hadm⟩))
      · intro h
        refine ⟨fun _ hset => h hgood (hnew hset).1 (hnew hset).2, fun _ hset => ?_⟩
        obtain ⟨hlen, hadm⟩ := hnew hset
        have hpos : 0 < d.seenLen.toNat := Nat.lt_of_lt_of_le (by decide) hlen
        have hall : d.seenOctets.length = d.seenLen.toNat := by
          rw [seenLen_of_pos hpos]
          exact (h hgood hlen hadm).2
        refine (fresh_iff hrx hgood hset).mpr ?_
        rcases hlen.eq_or_lt with heq | hlt
        · exact .inl heq.symm
        · exact .inr ⟨hlt, hall⟩

end Short

/-- A driver that has received a message from node 2, which `recv` has returned,
and is about to handle the interrupt for a message from node 3. -/
def secondMessage (delivered : ℕ → ℕ) : RF95 (ShortLink World) :=
  let d : RF95 (ShortLink World) :=
    { toMembers := { Members.constructed with thisAddress := 1 }
      link :=
        { link := World.powerUp <| List.replicate 18 [] ++
            [[.packet ⟨[1, 2, 7, 0, 0x2a], false, 0, by decide⟩, .notify]] ++
            List.replicate 12 [] ++ [[.packet ⟨[1, 3, 8, 0, 0x63], false, 5, by decide⟩, .notify]]
          delivered := delivered } }
  (d.init.2.available.2.available.2.recv (some 10)).2.uartAvailable.2.uartRead.2

/-- With all its replies, the handler gets the message from node 3. -/
theorem secondMessage_genuine : (secondMessage fun _ => 255).Genuine :=
  (genuine_iff (by decide +kernel)).mpr (by decide +kernel)

/-- Without the octets of the packet, the message from node 2 is returned once
more. -/
theorem lostPacket_returns_old :
    (secondMessage fun k => if k = 9 then 0 else 255).mode = .rx ∧
      (secondMessage fun k => if k = 9 then 0 else 255).seenOctets = [] ∧
      ((secondMessage fun k => if k = 9 then 0 else 255).handleInterrupt.recv (some 10)).1
        = some [0x2a] ∧
      ¬ (secondMessage fun k => if k = 9 then 0 else 255).Genuine := by
  refine ⟨by decide +kernel, by decide +kernel, by decide +kernel, fun h => ?_⟩
  have hlen := (h.complete (by decide +kernel) (by decide +kernel)).2
  exact absurd hlen (by decide +kernel)

end RF95
