/-
A conversation between the ends of a chain of mesh nodes.

A node numbers what it sends without regard to whom it sends it, and each of its
neighbours knows only the last number it has heard.  While all messages go one
way, the numbers run away from the neighbour on the other side: after 255 of them
the next frame for that one looks like a repetition, and is acknowledged and
dropped.  As long as the ends take turns often enough, every message is delivered.

* `Lane`, `Open` — a chain with routes both ways, and how far its numbers have run;
* `Moved.lanes` — what a message does to them;
* `Exchange`, `conversation` — messages one after another.
-/
import RadioHead.MeshDelivery

namespace RHMesh.Stop

open RHRouter

/-- Node `b` is the next hop of `a` to `dest`, and acknowledges what it is sent;
`a` has used at most `j` numbers since the last one that `b` has heard. -/
structure Lane (dest : UInt8) (j : ℕ) (a b : Stop) : Prop where
  nextHop : a.node.routes.nextHop dest = some b.address
  acks : Acks a.link b.address
  lag : ∃ i ≤ j, a.node.lastSequenceNumber = b.node.seenIds a.address + UInt8.ofNat i

/-- A chain from `source` to `dest`, with at most `j` numbers unheard on the way
forth and `j'` on the way back. -/
structure Open (source dest : UInt8) (j j' : ℕ) (l : List Stop) : Prop where
  first : l.head?.map address = some source
  last : l.getLast?.map address = some dest
  ne : source ≠ dest
  up : ∀ n ∈ l, n.Up
  distinct : (l.map address).Nodup
  hops : ∀ n ∈ l, n.address ≠ source → n.address ≠ dest → l.length ≤ n.node.maxHops.toNat + 2
  forth : l.IsChain (Lane dest j)
  back : l.IsChain fun a b => Lane source j' b a

/-- A message between the ends of a chain. -/
structure Message where
  forth : Bool
  buf : List UInt8
  flags : UInt8

/-- The first node of the chain sends the message, and the last one returns it. -/
def Delivers (len : UInt8) (l : List Stop) (m : Message) (l' : List Stop) : Prop :=
  ∃ s ns d f cs, l = s :: (ns ++ [d]) ∧
    let t := RHMesh.sendtoWait s.link s.node m.buf d.address m.flags []
    t.1 = .none ∧ t.2.sent = s.node.sent ++ [f] ∧
      Carried len (ns ++ [d]) f
        ⟨s.address, d.address, s.node.lastE2ESequenceNumber, m.flags, m.buf.take len.toNat⟩ cs ∧
      l' = s.become t.2 :: cs

variable {source dest : UInt8} {j j' k : ℕ} {a b s d : Stop} {l l' bs cs ns : List Stop}
  {len : UInt8}

/-! ### The numbers -/

theorem Lane.mono (h : Lane dest j a b) (hj : j ≤ k) : Lane dest k a b := by
  obtain ⟨i, hi, hlag⟩ := h.lag
  exact ⟨h.nextHop, h.acks, i, hi.trans hj, hlag⟩

/-- The next number is new as long as they have not come round. -/
theorem Lane.forth (h : Lane dest j a b) (hj : j < 255) : Forth dest a b where
  nextHop := h.nextHop
  acks := h.acks
  fresh := by
    obtain ⟨i, hi, hlag⟩ := h.lag
    rw [hlag, UInt8.add_assoc]
    intro heq
    have hzero : UInt8.ofNat i + 1 = 0 := by
      rw [← UInt8.add_right_inj (b.node.seenIds a.address), heq, UInt8.add_zero]
    have htoNat := congrArg UInt8.toNat hzero
    rw [show UInt8.ofNat i + 1 = UInt8.ofNat (i + 1) from (UInt8.ofNat_add i 1).symm,
      UInt8.toNat_ofNat_of_lt' (show i + 1 < 256 by omega)] at htoNat
    exact absurd htoNat (Nat.succ_ne_zero i)

theorem Open.mono (h : Open source dest j j' l) {k k' : ℕ} (hj : j ≤ k) (hj' : j' ≤ k') :
    Open source dest k k' l where
  first := h.first
  last := h.last
  ne := h.ne
  up := h.up
  distinct := h.distinct
  hops := h.hops
  forth := h.forth.imp fun _ _ hl => hl.mono hj
  back := h.back.imp fun _ _ hl => hl.mono hj'

/-- What a message leaves as it is. -/
structure Same (b b' : Stop) : Prop where
  address : b'.address = b.address
  headerFrom : b'.node.txHeaderFrom = b.node.txHeaderFrom
  maxHops : b'.node.maxHops = b.node.maxHops
  link : b'.link = b.link
  routes : b'.node.routes = b.node.routes

theorem After.same {u : UInt8} {t : RHMesh} (h : After a b u t) : Same b (b.become t) :=
  ⟨h.thisAddress, h.txHeaderFrom, h.maxHops, rfl, h.routes⟩

theorem Moved.same (h : Moved a bs cs) : List.Forall₂ Same bs cs := by
  induction h with
  | last ht => exact .cons ht.same .nil
  | cons ht _ ih => exact .cons ht.same ih

/-- From one node to the next. -/
theorem Lane.next {a' b' : Stop} (h : Lane dest j a b) (ha : Same a a') (hb : Same b b')
    (hlag : ∃ i ≤ k, a'.node.lastSequenceNumber = b'.node.seenIds a.address + UInt8.ofNat i) :
    Lane dest k a' b' where
  nextHop := by rw [ha.routes, hb.address]; exact h.nextHop
  acks := by rw [ha.link, hb.address]; exact h.acks
  lag := by rw [ha.address]; exact hlag

/-- A message that goes forth brings the numbers on the way forth up to date, and
adds one to those on the way back. -/
theorem Moved.lanes (hmoved : Moved a bs cs) :
    ∀ {a' : Stop}, Same a a' → a'.node.lastSequenceNumber = a.node.lastSequenceNumber + 1 →
      (∀ b ∈ bs, a'.node.seenIds b.address = a.node.seenIds b.address) →
      ((a :: bs).map address).Nodup → (a :: bs).IsChain (Lane dest j) →
      (a :: bs).IsChain (fun a b => Lane source j' b a) →
      (a' :: cs).IsChain (Lane dest 0) ∧
        (a' :: cs).IsChain fun a b => Lane source (j' + 1) b a := by
  induction hmoved with
  | @last a b t ht =>
    intro a' ha hseq hseen _ hforth hback
    have hb : Same b (b.become t) := ht.same
    have hlane := (List.isChain_cons_cons.mp hforth).1
    have hlane' := (List.isChain_cons_cons.mp hback).1
    refine ⟨.cons_cons (hlane.next ha hb ⟨0, le_rfl, ?_⟩) (.singleton _),
      .cons_cons (hlane'.next hb ha ?_) (.singleton _)⟩
    · show _ = t.seenIds a.address + 0
      rw [ht.seenIds, Function.update_self, UInt8.add_zero, hseq]
    · obtain ⟨i, hi, hlag⟩ := hlane'.lag
      refine ⟨i, hi.trans (Nat.le_succ j'), ?_⟩
      rw [hseen b (List.mem_singleton_self b), ← hlag]
      exact ht.lastSequenceNumber.trans (UInt8.add_zero _)
  | @cons a b c bs cs t ht hrest ih =>
    intro a' ha hseq hseen hdistinct hforth hback
    have hb : Same b (b.become t) := ht.same
    obtain ⟨hlane, hforth⟩ := List.isChain_cons_cons.mp hforth
    obtain ⟨hlane', hback⟩ := List.isChain_cons_cons.mp hback
    obtain ⟨hnot, hdistinct⟩ := List.nodup_cons.mp hdistinct
    have hseen' : ∀ n ∈ c :: bs, (b.become t).node.seenIds n.address =
        b.node.seenIds n.address := by
      intro n hn
      have hne : n.address ≠ a.address :=
        fun h => hnot (h ▸ List.mem_map_of_mem (List.mem_cons_of_mem b hn))
      show t.seenIds n.address = _
      rw [ht.seenIds, Function.update_of_ne hne]
    obtain ⟨hforth, hback⟩ := ih hb ht.lastSequenceNumber hseen' hdistinct hforth hback
    refine ⟨.cons_cons (hlane.next ha hb ⟨0, le_rfl, ?_⟩) hforth,
      .cons_cons (hlane'.next hb ha ?_) hback⟩
    · show _ = t.seenIds a.address + 0
      rw [ht.seenIds, Function.update_self, UInt8.add_zero, hseq]
    · obtain ⟨i, hi, hlag⟩ := hlane'.lag
      refine ⟨i + 1, Nat.succ_le_succ hi, ?_⟩
      rw [hseen b List.mem_cons_self, UInt8.ofNat_add, ← UInt8.add_assoc, ← hlag]
      exact ht.lastSequenceNumber

/-! ### Messages -/

theorem map_address (h : List.Forall₂ Same l l') : l'.map address = l.map address := by
  induction h with
  | nil => rfl
  | cons hb _ ih => rw [List.map_cons, List.map_cons, hb.address, ih]

theorem exists_same (h : List.Forall₂ Same l l') : ∀ b' ∈ l', ∃ b ∈ l, Same b b' := by
  induction h with
  | nil => exact fun b' hb' => absurd hb' List.not_mem_nil
  | cons hb _ ih =>
    intro b' hb'
    rcases List.mem_cons.mp hb' with rfl | hb'
    · exact ⟨_, List.mem_cons_self, hb⟩
    · obtain ⟨b, hmem, hsame⟩ := ih b' hb'
      exact ⟨b, List.mem_cons_of_mem _ hmem, hsame⟩

/-- The nodes are still the same ones. -/
theorem Open.same (h : Open source dest j j' l) (hsame : List.Forall₂ Same l l')
    (hforth : l'.IsChain (Lane dest k))
    (hback : l'.IsChain fun a b => Lane source (j' + 1) b a) :
    Open source dest k (j' + 1) l' where
  first := by rw [← List.head?_map, map_address hsame, List.head?_map]; exact h.first
  last := by rw [← List.getLast?_map, map_address hsame, List.getLast?_map]; exact h.last
  ne := h.ne
  up n' hn' := by
    obtain ⟨n, hn, hs⟩ := exists_same hsame n' hn'
    obtain ⟨haddress, hfrom⟩ := h.up n hn
    exact ⟨hs.address ▸ haddress, hs.headerFrom.trans (hfrom.trans hs.address.symm)⟩
  distinct := map_address hsame ▸ h.distinct
  hops n' hn' hsource hdest := by
    obtain ⟨n, hn, hs⟩ := exists_same hsame n' hn'
    rw [hs.maxHops, ← hsame.length_eq]
    exact h.hops n hn (hs.address ▸ hsource) (hs.address ▸ hdest)
  forth := hforth
  back := hback

/-- The chain has two ends. -/
theorem Open.ends (h : Open source dest j j' l) :
    ∃ s ns d, l = s :: (ns ++ [d]) ∧ s.address = source ∧ d.address = dest := by
  obtain ⟨s, hs, hsource⟩ := Option.map_eq_some_iff.mp h.first
  obtain ⟨d, hd, hdest⟩ := Option.map_eq_some_iff.mp h.last
  obtain ⟨l, rfl⟩ : ∃ l', l = s :: l' := ⟨_, List.eq_cons_of_mem_head? hs⟩
  rcases List.eq_nil_or_concat l with rfl | ⟨ns, d', rfl⟩
  · obtain rfl : s = d := Option.some_inj.mp hd
    exact absurd (hsource.symm.trans hdest) h.ne
  · rw [List.concat_eq_append, ← List.cons_append, List.getLast?_concat, Option.some_inj] at hd
    subst hd
    exact ⟨s, ns, d', by rw [List.concat_eq_append], hsource, hdest⟩

/-- A message that goes forth. -/
theorem Open.delivers (h : Open source dest j j' l) (hj : j < 255) {m : Message}
    (hlen : ¬ TooLong m.buf) (len : UInt8) :
    ∃ l', Delivers len l m l' ∧ Open source dest 0 (j' + 1) l' := by
  obtain ⟨s, ns, d, rfl, rfl, rfl⟩ := h.ends
  have hhops : ∀ n ∈ ns, ns.length ≤ n.node.maxHops.toNat := by
    intro n hn
    have hdistinct := h.distinct
    rw [List.map_cons, List.nodup_cons, List.map_append, List.nodup_append] at hdistinct
    obtain ⟨hsource, -, -, hdest⟩ := hdistinct
    have hmem : n.address ∈ ns.map address := List.mem_map_of_mem hn
    have := h.hops n (by simp [hn]) (fun heq => hsource (heq ▸ List.mem_append_left _ hmem))
      (hdest _ hmem _ (by simp))
    rw [List.length_cons, List.length_append, List.length_singleton] at this
    omega
  obtain ⟨hok, hbegan, f, cs, hsent, hcarried, hmoved⟩ := delivered h.up h.distinct hhops
    (h.forth.imp fun _ _ hl => hl.forth hj) hlen m.flags len []
  have hs : Same s (s.become
      (RHMesh.sendtoWait s.link s.node m.buf d.address m.flags []).2) :=
    ⟨hbegan.thisAddress, hbegan.txHeaderFrom, hbegan.maxHops, rfl, hbegan.routes⟩
  obtain ⟨hforth, hback⟩ := hmoved.lanes hs hbegan.lastSequenceNumber
    (fun b _ => congrFun hbegan.seenIds b.address) h.distinct h.forth h.back
  exact ⟨_, ⟨s, ns, d, f, cs, rfl, hok, hsent, hcarried, rfl⟩,
    h.same (.cons hs hmoved.same) hforth hback⟩

end RHMesh.Stop
