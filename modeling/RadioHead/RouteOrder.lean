/-
The order of the routes in the table.

The oldest route is the one in the first slot, as long as the slots in use
stand in the order in which their destinations came.  A slot out of use still
names a destination, and a new route to that destination goes there, in front
of routes that are older; and a route that is not there is deleted, with `true`
for an answer, if such a slot names it.

* `Recorded` — the table, and the routes it should hold in the order they came;
* `Unstale` — the call meets no slot out of use that makes a difference;
* `unstale_iff` — the runs of which that is true.
-/
import RadioHead.Lib.FifoMap
import RadioHead.Lib.Run
import RadioHead.RoutingTable

open Run

namespace Routes

/-- The slots in use. -/
def live (l : Routes) : Routes := l.filter fun e => e.state ≠ stateInvalid

@[simp] theorem live_append (l₁ l₂ : Routes) : live (l₁ ++ l₂) = l₁.live ++ l₂.live :=
  List.filter_append ..

theorem live_cons_of_valid {e : RoutingTableEntry} (l : Routes) (h : e.state ≠ stateInvalid) :
    live (e :: l) = e :: l.live := List.filter_cons_of_pos (decide_eq_true h)

theorem live_cons_of_invalid {e : RoutingTableEntry} (l : Routes) (h : e.state = stateInvalid) :
    live (e :: l) = l.live := List.filter_cons_of_neg (by simpa using h)

theorem live_eq_nil {l : Routes} : l.live = [] ↔ ∀ e ∈ l, e.state = stateInvalid := by
  simp [live, List.filter_eq_nil_iff]

theorem live_eq_self {l : Routes} (h : ∀ e ∈ l, e.state ≠ stateInvalid) : l.live = l :=
  List.filter_eq_self.mpr fun e he => decide_eq_true (h e he)

theorem getRouteTo_eq_find (l : Routes) (dest : UInt8) :
    l.getRouteTo dest = l.live.find? fun e => e.dest = dest := by
  rw [getRouteTo, live, List.find?_filter]
  refine congrArg (List.find? · l) (funext fun e => ?_)
  simp [and_comm]

theorem getRouteTo_eq_none {l : Routes} {dest : UInt8} :
    l.getRouteTo dest = none ↔ ∀ e ∈ l, e.dest = dest → e.state = stateInvalid := by
  simp [getRouteTo, List.find?_eq_none]

/-- The routes in use with a new one to `dest` in the place of the old one. -/
def renew (l : Routes) (e : RoutingTableEntry) : Routes :=
  l.map fun f => if f.dest = e.dest then e else f

theorem renew_eq_self {l : Routes} {e : RoutingTableEntry} (h : ∀ f ∈ l, f.dest ≠ e.dest) :
    l.renew e = l :=
  (List.map_congr_left fun f hf => if_neg (h f hf)).trans (List.map_id' l)

/-- A route that is renewed stays where it is. -/
theorem live_addRouteTo_of_route {l : Routes} (h : l.Tidy) {dest : UInt8}
    (hroute : (l.getRouteTo dest).isSome) (hop : UInt8) :
    (l.addRouteTo dest hop stateValid).live = l.live.renew ⟨dest, hop, stateValid⟩ := by
  have hnone : ∀ l' : Routes, (∀ f ∈ l', f.state ≠ stateInvalid → f.dest ≠ dest) →
      l'.live.renew ⟨dest, hop, stateValid⟩ = l'.live := by
    intro l' hl'
    refine renew_eq_self fun f hf => ?_
    obtain ⟨hf, hv⟩ := List.mem_filter.mp hf
    exact hl' f hf (of_decide_eq_true hv)
  obtain ⟨f, hf, hfd⟩ := List.find?_isSome.mp hroute
  obtain ⟨hfd, hfv⟩ := of_decide_eq_true hfd
  rcases addRouteTo_cases l dest hop stateValid with
    ⟨pre, e, post, rfl, heq, hpre, he⟩ | ⟨hd, -⟩
  · have hpost := (List.pairwise_cons.mp (List.pairwise_append.mp h).2.1).1
    -- the slot in use is the one that is found: nothing in front of it names the destination
    have hef : e.dest = dest ∧ e.state ≠ stateInvalid := by
      rcases List.mem_append.mp hf with hf | hf
      · exact absurd hfd (hpre f hf)
      · rcases List.mem_cons.mp hf with rfl | hf
        · exact ⟨hfd, hfv⟩
        · rcases he with he | ⟨-, he⟩
          · exact absurd (he.trans hfd.symm) (hpost f hf hfv)
          · exact absurd hfd (he f hf)
    obtain ⟨rfl, hev⟩ := hef
    have h₁ := hnone pre fun f hf _ => hpre f hf
    have h₂ := hnone post fun f hf hv => (hpost f hf hv).symm
    have hnew : (⟨e.dest, hop, stateValid⟩ : RoutingTableEntry).state ≠ stateInvalid :=
      show stateValid ≠ stateInvalid by decide
    rw [heq, live_append, live_append, live_cons_of_valid post hnew,
      live_cons_of_valid post hev, renew, List.map_append, List.map_cons, if_pos rfl]
    exact congrArg₂ (· ++ _ :: ·) h₁.symm h₂.symm
  · exact absurd hfd (hd f hf)

/-- A new route comes last if the slots behind its own are out of use. -/
theorem live_addRouteTo_of_slot {l : Routes} {dest : UInt8} (hroute : l.getRouteTo dest = none)
    {i : ℕ} (hslot : l.slotFor dest = some i)
    (hrest : ∀ e ∈ l.drop (i + 1), e.state = stateInvalid) (hop : UInt8) :
    (l.addRouteTo dest hop stateValid).live = l.live ++ [⟨dest, hop, stateValid⟩] ∧
      l.live.length < l.length := by
  have hdead := getRouteTo_eq_none.mp hroute
  rcases slotFor_cases l dest with ⟨pre, e, post, rfl, hslot', hpre, he⟩ | ⟨hnone, -⟩
  · obtain rfl : pre.length = i := Option.some_inj.mp (hslot'.symm.trans hslot)
    have hev : e.state = stateInvalid := by
      rcases he with he | ⟨he, -⟩
      · exact hdead e (by simp) he
      · exact he
    have hpost : live post = [] := by
      refine live_eq_nil.mpr fun f hf => hrest f ?_
      rw [List.append_cons, List.drop_left' (by simp)]
      exact hf
    have hle : (live pre).length ≤ pre.length := List.length_filter_le ..
    rw [addRouteTo_of_slot hslot', set_split, live_append, live_append,
      live_cons_of_valid post (show stateValid ≠ stateInvalid by decide),
      live_cons_of_invalid post hev, hpost, List.append_nil, List.length_append, List.length_cons]
    exact ⟨rfl, by omega⟩
  · exact absurd (hnone.symm.trans hslot) (Option.some_ne_none i).symm

/-- With no room the first route goes, and the new one comes last. -/
theorem live_addRouteTo_of_full {l : Routes} (hl : l ≠ []) {dest : UInt8}
    (hslot : l.slotFor dest = none) (hop : UInt8) :
    (l.addRouteTo dest hop stateValid).live = l.live.tail ++ [⟨dest, hop, stateValid⟩] ∧
      l.live.length = l.length := by
  rcases slotFor_cases l dest with ⟨pre, e, post, -, hsome, -⟩ | ⟨-, hd, hv⟩
  · exact absurd (hslot.symm.trans hsome) (Option.some_ne_none _).symm
  · rw [addRouteTo_full hd hv hl, live_append, live_eq_self hv,
      live_eq_self fun e he => hv e (List.mem_of_mem_tail he),
      live_cons_of_valid [] (show stateValid ≠ stateInvalid by decide)]
    exact ⟨rfl, rfl⟩

/-- The route that is deleted goes, if the slot is in use. -/
theorem live_deleteRoute {pre post : Routes} {e : RoutingTableEntry}
    (h : Tidy (pre ++ e :: post)) (hpre : ∀ f ∈ pre, f.dest ≠ e.dest)
    (he : e.state ≠ stateInvalid) :
    ((pre ++ e :: post).deleteRoute pre.length).live =
      (pre ++ e :: post).live.filter fun f => f.dest ≠ e.dest := by
  have hpost := (List.pairwise_cons.mp (List.pairwise_append.mp h).2.1).1
  -- the slot that is shifted in at the end is out of use
  have hlast : live ((pre ++ e :: post).getLast?.toList.map fun f =>
      { f with state := stateInvalid }) = [] := by
    refine live_eq_nil.mpr fun f hf => ?_
    obtain ⟨g, -, rfl⟩ := List.mem_map.mp hf
    rfl
  rw [deleteRoute, live_append, hlast, List.append_nil, List.eraseIdx_append_of_length_le le_rfl,
    Nat.sub_self, List.eraseIdx_cons_zero, live_append, live_append, live_cons_of_valid post he,
    List.filter_append, List.filter_cons_of_neg (by simp)]
  congr 1
  · refine (List.filter_eq_self.mpr fun f hf => ?_).symm
    exact decide_eq_true (hpre f (List.mem_of_mem_filter hf))
  · refine (List.filter_eq_self.mpr fun f hf => ?_).symm
    obtain ⟨hf, hv⟩ := List.mem_filter.mp hf
    exact decide_eq_true (hpost f hf (of_decide_eq_true hv)).symm

end Routes

/-- The route to a destination over a next hop. -/
def routeVia (p : UInt8 × UInt8) : RoutingTableEntry := ⟨p.1, p.2, stateValid⟩

theorem renew_map_routeVia (l : List (UInt8 × UInt8)) (dest hop : UInt8) :
    Routes.renew (l.map routeVia) (routeVia (dest, hop)) =
      (FifoMap.put l dest hop).map routeVia := by
  rw [Routes.renew, FifoMap.put, List.map_map, List.map_map]
  refine List.map_congr_left fun p _ => ?_
  exact (apply_ite routeVia (p.1 = dest) (dest, hop) p).symm

/-- A call of one of the operations, with the state that is the default. -/
inductive RouteCall where
  | addRouteTo (dest nextHop : UInt8)
  | deleteRouteTo (dest : UInt8)
  | clearRoutingTable
  deriving DecidableEq

/-- The table, and what it is for: the next hops of the destinations that have a
route, in the order they came, with room for ten of them. -/
structure RouteRecord where
  table : RoutingTable
  record : FifoMap UInt8 UInt8 routingTableSize

namespace RouteRecord

def step (s : RouteRecord) : RouteCall → Option RouteRecord
  | .addRouteTo dest nextHop =>
    some ⟨s.table.addRouteTo dest nextHop, s.record.insert dest nextHop⟩
  | .deleteRouteTo dest => some ⟨(s.table.deleteRouteTo dest).2, s.record.erase dest⟩
  | .clearRoutingTable => some ⟨s.table.clearRoutingTable, .empty⟩

/-- The slots in use stand in the order their destinations came. -/
def InOrder (s : RouteRecord) : Prop :=
  s.table.routes.live = s.record.entries.map routeVia

instance (s : RouteRecord) : Decidable s.InOrder :=
  inferInstanceAs (Decidable (s.table.routes.live = s.record.entries.map routeVia))

/-- A route that another one makes go is the oldest of all, and a deletion
answers whether there was a route. -/
def Faithful (s : RouteRecord) : RouteCall → Prop
  | .addRouteTo dest nextHop =>
    ∀ e ∈ s.table.routes, e.state ≠ stateInvalid → e.dest ≠ dest →
      (s.table.addRouteTo dest nextHop).getRouteTo e.dest = none →
      s.record.oldest = some e.dest
  | .deleteRouteTo dest => (s.table.deleteRouteTo dest).1 = (s.table.getRouteTo dest).isSome
  | .clearRoutingTable => True

/-- A new route gets a slot with no slot in use behind it, and a route that is
not there is deleted only where no slot names its destination. -/
def Unstale (s : RouteRecord) : RouteCall → Prop
  | .addRouteTo dest _ =>
    (s.table.getRouteTo dest).isSome ∨
      ∀ i ∈ s.table.routes.slotFor dest, ∀ e ∈ s.table.routes.drop (i + 1),
        e.state = stateInvalid
  | .deleteRouteTo dest =>
    (s.table.getRouteTo dest).isSome ∨ ∀ e ∈ s.table.routes, e.dest ≠ dest
  | .clearRoutingTable => True

/-- In order, the table finds what the record holds. -/
theorem getRouteTo_eq_lookup {s : RouteRecord} (h : s.InOrder) (dest : UInt8) :
    s.table.getRouteTo dest = (s.record.lookup dest).map fun hop => routeVia (dest, hop) := by
  rw [RoutingTable.getRouteTo, Routes.getRouteTo_eq_find, h, FifoMap.lookup, List.find?_map,
    Option.map_map]
  show Option.map _ (s.record.entries.find? fun p => p.1 = dest) = _
  refine Option.map_congr fun p hp => ?_
  have hd : p.1 = dest := by simpa using List.find?_some hp
  exact congrArg routeVia (Prod.ext hd rfl)

theorem getRouteTo_isSome {s : RouteRecord} (h : s.InOrder) {dest : UInt8} :
    (s.table.getRouteTo dest).isSome ↔ dest ∈ s.record.keys := by
  rw [getRouteTo_eq_lookup h, Option.isSome_map, FifoMap.lookup_isSome]

/-- A route goes for another one only if the record loses it, the oldest. -/
theorem faithful_of_inOrder {s : RouteRecord} (h : s.InOrder) {dest hop : UInt8}
    (h' : InOrder ⟨s.table.addRouteTo dest hop, s.record.insert dest hop⟩) :
    s.Faithful (.addRouteTo dest hop) := by
  intro e he hv hne hnone
  have hsome : (s.record.lookup e.dest).isSome := by
    rw [FifoMap.lookup_isSome, ← getRouteTo_isSome h, RoutingTable.getRouteTo_of_mem he hv]
    rfl
  have hlost := getRouteTo_eq_lookup h' e.dest
  rw [hnone] at hlost
  have hlost := Option.map_eq_none_iff.mp hlost.symm
  exact ((FifoMap.lookup_insert_eq_none hne hsome hop).mp hlost).2.2

instance (s : RouteRecord) : (c : RouteCall) → Decidable (s.Faithful c)
  | .addRouteTo _ _ => inferInstanceAs (Decidable (∀ e ∈ s.table.routes, _))
  | .deleteRouteTo _ => inferInstanceAs (Decidable (_ = _))
  | .clearRoutingTable => .isTrue trivial

instance (s : RouteRecord) : (c : RouteCall) → Decidable (s.Unstale c)
  | .addRouteTo dest _ => inferInstanceAs (Decidable (_ ∨ ∀ i ∈ s.table.routes.slotFor dest, _))
  | .deleteRouteTo _ => inferInstanceAs (Decidable (_ ∨ ∀ e ∈ s.table.routes, _))
  | .clearRoutingTable => .isTrue trivial

theorem length_live {s : RouteRecord} (h : s.InOrder) :
    s.table.routes.live.length = s.record.entries.length := by
  rw [h, List.length_map]

/-- A new route keeps the order if the slots behind its own are out of use. -/
theorem inOrder_addRouteTo {s : RouteRecord} (h : s.InOrder) {dest hop : UInt8}
    (hc : s.Unstale (.addRouteTo dest hop)) :
    InOrder ⟨s.table.addRouteTo dest hop, s.record.insert dest hop⟩ := by
  show (s.table.routes.addRouteTo dest hop stateValid).live = List.map routeVia _
  have hlen := s.table.length_routes
  have hlive := length_live h
  by_cases hroute : (s.table.getRouteTo dest).isSome
  · rw [FifoMap.entries_insert_of_mem ((getRouteTo_isSome h).mp hroute),
      Routes.live_addRouteTo_of_route s.table.tidy hroute, h]
    exact renew_map_routeVia ..
  · have hnew := mt (getRouteTo_isSome h).mpr hroute
    have hnone := Option.not_isSome_iff_eq_none.mp hroute
    rcases hslot : s.table.routes.slotFor dest with _ | i
    · have hne : s.table.routes ≠ [] := List.ne_nil_of_length_pos (by rw [hlen]; decide)
      obtain ⟨heq, hfull⟩ := Routes.live_addRouteTo_of_full hne hslot hop
      rw [FifoMap.entries_insert_of_full hnew (by decide) (by omega), heq, h, List.map_append,
        List.map_tail]
      rfl
    · obtain ⟨heq, hlt⟩ :=
        Routes.live_addRouteTo_of_slot hnone hslot (hc.resolve_left hroute i hslot) hop
      rw [FifoMap.entries_insert_of_lt hnew (by omega), heq, h, List.map_append]
      rfl

/-- A slot in use behind the one of a new route is out of order then. -/
theorem unstale_of_inOrder {s : RouteRecord} (h : s.InOrder) {dest hop : UInt8}
    (h' : InOrder ⟨s.table.addRouteTo dest hop, s.record.insert dest hop⟩) :
    s.Unstale (.addRouteTo dest hop) := by
  by_cases hroute : (s.table.getRouteTo dest).isSome
  · exact .inl hroute
  · refine .inr fun i hi => ?_
    have hnew := mt (getRouteTo_isSome h).mpr hroute
    have hdead := Routes.getRouteTo_eq_none.mp (Option.not_isSome_iff_eq_none.mp hroute)
    have hlen := s.table.length_routes
    have hlive := length_live h
    rw [InOrder] at h h'
    change (s.table.routes.addRouteTo dest hop stateValid).live = List.map routeVia _ at h'
    rcases Routes.slotFor_cases s.table.routes dest with
      ⟨pre, e, post, hl, hslot, -, he⟩ | ⟨hnone, -⟩
    · -- the slot taken is out of use, and there is room in the record
      obtain rfl : pre.length = i := Option.some_inj.mp (hslot.symm.trans hi)
      have hev : e.state = stateInvalid := by
        rcases he with he | ⟨he, -⟩
        · exact hdead e (hl ▸ by simp) he
        · exact he
      rw [Routes.addRouteTo_of_slot hslot] at h'
      rw [hl] at hlive hlen hdead h h' ⊢
      have hle : (Routes.live pre).length ≤ pre.length := List.length_filter_le ..
      have hle' : (Routes.live post).length ≤ post.length := List.length_filter_le ..
      rw [Routes.live_append, Routes.live_cons_of_invalid post hev] at hlive h
      rw [List.length_append, List.length_cons] at hlen
      rw [List.length_append] at hlive
      rw [Routes.set_split, Routes.live_append,
        Routes.live_cons_of_valid post (show stateValid ≠ stateInvalid by decide),
        FifoMap.entries_insert_of_lt hnew (by omega), List.map_append, ← h, List.append_assoc] at h'
      rw [List.append_cons, List.drop_left' (by simp)]
      refine Routes.live_eq_nil.mp ?_
      -- the new route is the first of these, and none of them is to its destination
      have h' := List.append_cancel_left h'
      rcases hpost : Routes.live post with _ | ⟨f, l⟩
      · rfl
      · rw [hpost, List.cons_append, List.cons_eq_cons] at h'
        have hf : f ∈ Routes.live post := hpost ▸ List.mem_cons_self
        obtain ⟨hf, hv⟩ := List.mem_filter.mp hf
        exact absurd (hdead f (by simp [hf]) (h'.1 ▸ rfl)) (of_decide_eq_true hv)
    · exact absurd (hnone.symm.trans hi) (Option.some_ne_none i).symm

theorem deletes_iff {s : RouteRecord} (h : s.InOrder) (dest : UInt8) :
    s.Unstale (.deleteRouteTo dest) ↔ s.Faithful (.deleteRouteTo dest) ∧
      InOrder ⟨(s.table.deleteRouteTo dest).2, s.record.erase dest⟩ := by
  have herase : (s.record.erase dest).entries.map routeVia =
      s.table.routes.live.filter fun e => e.dest ≠ dest := by
    rw [h, List.filter_map]
    rfl
  show (_ ∨ _) ↔ (s.table.deleteRouteTo dest).1 = (s.table.getRouteTo dest).isSome ∧
    (s.table.deleteRouteTo dest).2.routes.live = (s.record.erase dest).entries.map routeVia
  rw [herase]
  rcases s.table.deleteRouteTo_cases dest with
    ⟨hd, hcall⟩ | ⟨pre, e, post, hl, he, hpre, htrue, hcall⟩
  · -- no slot names the destination: nothing happens
    have hnone : s.table.getRouteTo dest = none :=
      Routes.getRouteTo_eq_none.mpr fun e he hed => absurd hed (hd e he)
    rw [hcall, hnone]
    refine iff_of_true (.inr hd) ⟨rfl, (List.filter_eq_self.mpr fun e he => ?_).symm⟩
    exact decide_eq_true (hd e (List.mem_of_mem_filter he))
  · -- a slot does: the answer is true, whether the slot is in use or not
    subst he
    have hnot : ¬ ∀ f ∈ s.table.routes, f.dest ≠ e.dest := fun h => h e (hl ▸ by simp) rfl
    have htidy := s.table.tidy
    rw [htrue, hcall, or_iff_left hnot, eq_comm]
    rw [hl] at htidy ⊢
    rw [RoutingTable.getRouteTo, hl, Routes.getRouteTo_split htidy hpre]
    by_cases hv : e.state = stateInvalid
    · have hfalse : ¬ true = (none : Option RoutingTableEntry).isSome := by decide
      rw [if_pos hv]
      exact iff_of_false hfalse fun h => hfalse h.1
    · rw [if_neg hv]
      exact iff_of_true rfl ⟨rfl, Routes.live_deleteRoute htidy hpre hv⟩

/-- **In order, a call that meets no stale slot is answered as the record has it
and keeps the order, and no other call does.** -/
theorem unstale_iff_step {s : RouteRecord} (h : s.InOrder) (c : RouteCall) :
    s.Unstale c ↔ s.Faithful c ∧ ∀ s' ∈ s.step c, s'.InOrder := by
  have hnext : ∀ t : RouteRecord, (∀ s' ∈ some t, s'.InOrder) ↔ t.InOrder := by
    simp
  cases c with
  | addRouteTo dest hop =>
    rw [step, hnext]
    constructor
    · intro hc
      have h' := inOrder_addRouteTo h hc
      exact ⟨faithful_of_inOrder h h', h'⟩
    · rintro ⟨-, h'⟩
      exact unstale_of_inOrder h h'
  | deleteRouteTo dest =>
    rw [step, hnext]
    exact deletes_iff h dest
  | clearRoutingTable =>
    rw [step, hnext]
    refine iff_of_true trivial ⟨trivial, Routes.live_eq_nil.mpr fun e he => ?_⟩
    obtain ⟨f, -, rfl⟩ := List.mem_map.mp he
    rfl

/-- A table as it is constructed, whatever its slots hold. -/
def fresh (l : Routes) (hlen : l.length = routingTableSize)
    (hinvalid : ∀ e ∈ l, e.state = stateInvalid) : RouteRecord :=
  ⟨RoutingTable.ofInvalid l hlen hinvalid, .empty⟩

/-- **A table of which no call meets a stale slot is the record**: the route
that makes place is the oldest, a deletion answers whether there was a route,
and the routes found are those of the record.  The slots are in order as long
as no call meets a stale slot, and no longer. -/
theorem unstale_iff {l : Routes} (hlen : l.length = routingTableSize)
    (hinvalid : ∀ e ∈ l, e.state = stateInvalid) (calls : List RouteCall) :
    (AllSteps step Unstale (fresh l hlen hinvalid) calls ↔
      AllSteps step (fun s c => s.Faithful c ∧ ∀ s' ∈ s.step c, s'.InOrder)
        (fresh l hlen hinvalid) calls) ∧
    (AllSteps step Unstale (fresh l hlen hinvalid) calls →
      ∀ t, run step (fresh l hlen hinvalid) calls = some t → ∀ dest,
        t.table.getRouteTo dest = (t.record.lookup dest).map fun hop => routeVia (dest, hop)) := by
  have hfresh : (fresh l hlen hinvalid).InOrder := Routes.live_eq_nil.mpr hinvalid
  have hkeep : ∀ s c s', InOrder s → s.Unstale c → s.step c = some s' → s'.InOrder :=
    fun s c s' h hc hs => ((unstale_iff_step h c).mp hc).2 s' hs
  constructor
  · exact allSteps_iff (fun s c h => unstale_iff_step h c) hkeep hfresh
  · intro hall t ht
    exact getRouteTo_eq_lookup (run_induct hkeep hfresh hall ht)

/-- All slots name node 0. -/
def zeroed : Routes := List.replicate routingTableSize ⟨0, 0, stateInvalid⟩

/-- Routes to the nodes 1 to 11, one deleted and one renewed. -/
def orderlyCalls : List RouteCall :=
  (List.range 10).map (fun i => .addRouteTo (UInt8.ofNat (i + 1)) 2) ++
    [.deleteRouteTo 4, .addRouteTo 1 3, .addRouteTo 11 2, .addRouteTo 12 2]

theorem orderlyCalls_unstale :
    AllSteps step Unstale (fresh zeroed (by decide) (by decide)) orderlyCalls ∧
      AllSteps step (fun s c => s.Faithful c ∧ ∀ s' ∈ s.step c, s'.InOrder)
        (fresh zeroed (by decide) (by decide)) orderlyCalls := by
  have h : AllSteps step Unstale (fresh zeroed (by decide) (by decide)) orderlyCalls := by decide
  exact ⟨h, (unstale_iff (by decide) (by decide) orderlyCalls).1.mp h⟩

/-- The table is cleared with node 2 in the second slot, where it gets its next
route, and node 3 then gets the first slot. -/
def staleCalls : List RouteCall :=
  [.addRouteTo 1 9, .addRouteTo 2 9, .clearRoutingTable, .addRouteTo 2 9] ++
    (List.range 9).map (fun i => .addRouteTo (UInt8.ofNat (i + 3)) 9) ++ [.addRouteTo 12 9]

theorem staleCalls_unfaithful :
    ¬ AllSteps step Faithful (fresh zeroed (by decide) (by decide)) staleCalls := by decide

end RouteRecord
