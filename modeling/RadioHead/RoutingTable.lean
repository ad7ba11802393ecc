/-
The routing table of `RHRouter`.

Ten slots, each with a destination, a next hop and a state.  A slot in use is
always the first one that names its destination, whatever the slots out of use
still hold; the table carries that with it, and so has at most one route to a
destination.

* `Routes` — the array of slots, and the operations as loops over it;
* `RoutingTable` — the array with its invariant;
* `getRouteTo_addRouteTo` — a route just added is found;
* `getRouteTo_addRouteTo_of_ne` — the others stay as they were, while there is
  room for one more destination (`Room`, `room_of_card`);
* `nextHop_foldl_addRouteTo` — the next hops after many routes have been added;
* `getRouteTo_foldl_iff` — how long a route stays while others are added;
* `TableOp`, `bounded_map` — any calls of the operations, from slots out of use.
-/
import Mathlib

/-- `RH_ROUTING_TABLE_SIZE`. -/
def routingTableSize : ℕ := 10

/-- `RouteState`: `Invalid`. -/
def stateInvalid : UInt8 := 0

/-- `RouteState`: `Valid`. -/
def stateValid : UInt8 := 2

structure RoutingTableEntry where
  dest : UInt8
  nextHop : UInt8
  state : UInt8
  deriving DecidableEq, Repr

/-- `_routes`. -/
abbrev Routes := List RoutingTableEntry

namespace Routes

/-- A slot in use is the first that names its destination. -/
def Tidy (l : Routes) : Prop := l.Pairwise fun e f => f.state ≠ stateInvalid → e.dest ≠ f.dest

/-- The first slot in use that names `dest`. -/
def getRouteTo (l : Routes) (dest : UInt8) : Option RoutingTableEntry :=
  l.find? fun e => e.dest = dest ∧ e.state ≠ stateInvalid

/-- The slots after `index` move down by one; the last one is left, out of use. -/
def deleteRoute (l : Routes) (index : ℕ) : Routes :=
  l.eraseIdx index ++ l.getLast?.toList.map fun e => { e with state := stateInvalid }

/-- `addRouteTo`: the first slot that names `dest`, else the first slot out of
use, else every slot out of use once the oldest route has gone. -/
def addRouteTo (l : Routes) (dest nextHop state : UInt8) : Routes :=
  match l.findIdx? fun e => e.dest = dest with
  | some i => l.set i ⟨dest, nextHop, state⟩
  | none =>
    match l.findIdx? fun e => e.state = stateInvalid with
    | some i => l.set i ⟨dest, nextHop, state⟩
    | none =>
      (l.deleteRoute 0).map fun e => if e.state = stateInvalid then ⟨dest, nextHop, state⟩ else e

def clearRoutingTable (l : Routes) : Routes := l.map fun e => { e with state := stateInvalid }

/-- A loop that looks for the first slot with a property splits the array there. -/
theorem findIdx?_split {p : RoutingTableEntry → Bool} {l : Routes} {i : ℕ}
    (h : l.findIdx? p = some i) :
    ∃ pre e post, l = pre ++ e :: post ∧ i = pre.length ∧ p e = true ∧
      ∀ f ∈ pre, p f = false := by
  induction l generalizing i with
  | nil => cases h
  | cons e l ih =>
    rw [List.findIdx?_cons] at h
    by_cases he : p e = true
    · rw [if_pos he, Option.some_inj] at h
      exact ⟨[], e, l, rfl, h.symm, he, by simp⟩
    · rw [if_neg he, Option.map_eq_some_iff] at h
      obtain ⟨j, hj, rfl⟩ := h
      obtain ⟨pre, f, post, rfl, rfl, hf, hpre⟩ := ih hj
      refine ⟨e :: pre, f, post, rfl, rfl, hf, ?_⟩
      intro g hg
      rcases List.mem_cons.mp hg with rfl | hg
      · exact Bool.eq_false_iff.mpr he
      · exact hpre g hg

theorem set_split (pre post : Routes) (e f : RoutingTableEntry) :
    (pre ++ e :: post).set pre.length f = pre ++ f :: post := by
  rw [List.set_append_right _ _ le_rfl, Nat.sub_self, List.set_cons_zero]

/-- Slots out of use may be put in the place of others. -/
theorem Tidy.replace {pre post : Routes} {e f : RoutingTableEntry}
    (h : Tidy (pre ++ e :: post)) (hpre : ∀ g ∈ pre, g.dest ≠ f.dest)
    (hpost : ∀ g ∈ post, g.state ≠ stateInvalid → f.dest ≠ g.dest) :
    Tidy (pre ++ f :: post) := by
  obtain ⟨h₁, h₂, h₃⟩ := List.pairwise_append.mp h
  refine List.pairwise_append.mpr ⟨h₁, ?_, ?_⟩
  · exact List.pairwise_cons.mpr ⟨hpost, (List.pairwise_cons.mp h₂).2⟩
  · intro a ha b hb
    rcases List.mem_cons.mp hb with rfl | hb
    · exact fun _ => hpre a ha
    · exact h₃ a ha b (List.mem_cons_of_mem _ hb)

theorem length_deleteRoute {l : Routes} {i : ℕ} (hi : i < l.length) :
    (l.deleteRoute i).length = l.length := by
  obtain ⟨e, he⟩ : ∃ e, l.getLast? = some e :=
    Option.isSome_iff_exists.mp (List.getLast?_isSome.mpr (List.ne_nil_of_length_pos (by omega)))
  rw [deleteRoute, he]
  simp only [Option.toList_some, List.map_cons, List.map_nil, List.length_append,
    List.length_eraseIdx_of_lt hi, List.length_singleton]
  omega

/-- Deleting a slot keeps the order of the others. -/
theorem Tidy.deleteRoute {l : Routes} (h : Tidy l) (i : ℕ) : Tidy (l.deleteRoute i) := by
  refine List.pairwise_append.mpr ⟨h.sublist (List.eraseIdx_sublist l i), ?_, ?_⟩
  · cases l.getLast? with
    | none => exact List.Pairwise.nil
    | some e => exact List.pairwise_singleton _ _
  · intro a _ b hb
    obtain ⟨e, -, rfl⟩ := List.mem_map.mp hb
    exact fun hb => absurd rfl hb

/-- With no slot to spare, only the last one is out of use after the oldest
route has gone: it gets the new route. -/
theorem addRouteTo_full {l : Routes} {dest nextHop state : UInt8}
    (hd : ∀ e ∈ l, e.dest ≠ dest) (hv : ∀ e ∈ l, e.state ≠ stateInvalid) (hl : l ≠ []) :
    l.addRouteTo dest nextHop state = l.tail ++ [⟨dest, nextHop, state⟩] := by
  have h₁ : l.findIdx? (fun e => e.dest = dest) = none :=
    List.findIdx?_eq_none_iff.mpr fun e he => decide_eq_false (hd e he)
  have h₂ : l.findIdx? (fun e => e.state = stateInvalid) = none :=
    List.findIdx?_eq_none_iff.mpr fun e he => decide_eq_false (hv e he)
  have htail : (l.tail.map fun e =>
      if e.state = stateInvalid then ⟨dest, nextHop, state⟩ else e) = l.tail :=
    (List.map_congr_left fun e he => if_neg (hv e (List.mem_of_mem_tail he))).trans
      (List.map_id' _)
  rw [addRouteTo, h₁, h₂]
  show (l.deleteRoute 0).map _ = _
  rw [Routes.deleteRoute, List.eraseIdx_zero, List.getLast?_eq_some_getLast hl]
  simp only [Option.toList_some, List.map_cons, List.map_nil, List.map_append, htail, if_pos]

/-- The slot `addRouteTo` puts a route to `dest` in: the first that names it,
else the first out of use. -/
def slotFor (l : Routes) (dest : UInt8) : Option ℕ :=
  (l.findIdx? fun e => e.dest = dest).or (l.findIdx? fun e => e.state = stateInvalid)

/-- Either there is such a slot, and no slot in front of it names the
destination, or all slots are in use for others. -/
theorem slotFor_cases (l : Routes) (dest : UInt8) :
    (∃ pre e post, l = pre ++ e :: post ∧ l.slotFor dest = some pre.length ∧
      (∀ f ∈ pre, f.dest ≠ dest) ∧
      (e.dest = dest ∨ e.state = stateInvalid ∧ ∀ f ∈ post, f.dest ≠ dest)) ∨
    l.slotFor dest = none ∧ (∀ e ∈ l, e.dest ≠ dest) ∧ ∀ e ∈ l, e.state ≠ stateInvalid := by
  rcases h₁ : l.findIdx? fun e => e.dest = dest with _ | i
  · have hd : ∀ e ∈ l, e.dest ≠ dest := fun e he =>
      of_decide_eq_false (List.findIdx?_eq_none_iff.mp h₁ e he)
    rcases h₂ : l.findIdx? fun e => e.state = stateInvalid with _ | i
    · refine .inr ⟨?_, hd, fun e he => of_decide_eq_false (List.findIdx?_eq_none_iff.mp h₂ e he)⟩
      rw [slotFor, h₁, h₂, Option.none_or]
    · obtain ⟨pre, e, post, rfl, rfl, he, -⟩ := findIdx?_split h₂
      refine .inl ⟨pre, e, post, rfl, ?_, fun f hf => hd f (by simp [hf]),
        .inr ⟨of_decide_eq_true he, fun f hf => hd f (by simp [hf])⟩⟩
      rw [slotFor, h₁, h₂, Option.none_or]
  · obtain ⟨pre, e, post, rfl, rfl, he, hpre⟩ := findIdx?_split h₁
    refine .inl ⟨pre, e, post, rfl, ?_, fun f hf => of_decide_eq_false (hpre f hf),
      .inl (of_decide_eq_true he)⟩
    rw [slotFor, h₁, Option.some_or]

theorem addRouteTo_of_slot {l : Routes} {dest : UInt8} {i : ℕ} (h : l.slotFor dest = some i)
    (nextHop state : UInt8) : l.addRouteTo dest nextHop state = l.set i ⟨dest, nextHop, state⟩ := by
  rw [slotFor] at h
  rw [addRouteTo]
  rcases h₁ : l.findIdx? fun e => e.dest = dest with _ | j
  · rw [h₁, Option.none_or] at h
    rw [h₁, h]
  · rw [h₁, Option.some_or, Option.some_inj] at h
    rw [h₁, h]

/-- What `addRouteTo` does: it puts the route in the place of a slot, naming
the destination or out of use; if there is none, at the end. -/
theorem addRouteTo_cases (l : Routes) (dest nextHop state : UInt8) :
    (∃ pre e post, l = pre ++ e :: post ∧
      l.addRouteTo dest nextHop state = pre ++ ⟨dest, nextHop, state⟩ :: post ∧
      (∀ f ∈ pre, f.dest ≠ dest) ∧
      (e.dest = dest ∨ e.state = stateInvalid ∧ ∀ f ∈ post, f.dest ≠ dest)) ∨
    (∀ e ∈ l, e.dest ≠ dest) ∧ ∀ e ∈ l, e.state ≠ stateInvalid := by
  rcases slotFor_cases l dest with ⟨pre, e, post, rfl, hslot, hpre, he⟩ | ⟨-, hfull⟩
  · refine .inl ⟨pre, e, post, rfl, ?_, hpre, he⟩
    rw [addRouteTo_of_slot hslot]
    exact set_split ..
  · exact .inr hfull

theorem length_addRouteTo (l : Routes) (dest nextHop state : UInt8) :
    (l.addRouteTo dest nextHop state).length = l.length := by
  rcases addRouteTo_cases l dest nextHop state with ⟨pre, e, post, rfl, h, -⟩ | ⟨hd, hv⟩
  · simp [h]
  · by_cases hl : l = []
    · subst hl
      simp [addRouteTo, Routes.deleteRoute]
    · rw [addRouteTo_full hd hv hl, List.length_append, List.length_tail, List.length_singleton]
      have := List.length_pos_of_ne_nil hl
      omega

theorem Tidy.addRouteTo {l : Routes} (h : Tidy l) (dest nextHop state : UInt8) :
    Tidy (l.addRouteTo dest nextHop state) := by
  rcases addRouteTo_cases l dest nextHop state with
    ⟨pre, e, post, rfl, heq, hpre, he⟩ | ⟨hd, hv⟩
  · rw [heq]
    refine h.replace hpre ?_
    intro g hg hgv
    rcases he with rfl | ⟨-, hpost⟩
    · -- the slots behind the first one that names the destination are out of use
      exact (List.pairwise_cons.mp (List.pairwise_append.mp h).2.1).1 g hg hgv
    · exact (hpost g hg).symm
  · by_cases hl : l = []
    · subst hl
      exact List.Pairwise.nil
    · rw [addRouteTo_full hd hv hl]
      refine List.pairwise_append.mpr ⟨h.sublist (List.tail_sublist l), by simp, ?_⟩
      intro a ha b hb _
      rw [List.mem_singleton.mp hb]
      exact hd a (List.mem_of_mem_tail ha)

theorem Tidy.clearRoutingTable (l : Routes) : Tidy l.clearRoutingTable := by
  refine List.pairwise_map.mpr (List.pairwise_of_forall ?_)
  intro _ _ h
  exact absurd rfl h

/-- In a tidy array the first slot that names a destination decides. -/
theorem getRouteTo_split {pre post : Routes} {e : RoutingTableEntry}
    (h : Tidy (pre ++ e :: post)) (hpre : ∀ f ∈ pre, f.dest ≠ e.dest) :
    (pre ++ e :: post).getRouteTo e.dest = if e.state = stateInvalid then none else some e := by
  have hnone : pre.find? (fun f => f.dest = e.dest ∧ f.state ≠ stateInvalid) = none :=
    List.find?_eq_none.mpr fun f hf => by simp [hpre f hf]
  rw [getRouteTo, List.find?_append, hnone, Option.none_or, List.find?_cons]
  by_cases he : e.state = stateInvalid
  · rw [if_pos he]
    simp only [he, ne_eq, not_true_eq_false, and_false, decide_false]
    refine List.find?_eq_none.mpr fun f hf => ?_
    have := (List.pairwise_cons.mp (List.pairwise_append.mp h).2.1).1 f hf
    simp only [decide_eq_true_eq, not_and, not_not]
    intro hfe
    by_contra hfv
    exact this hfv hfe.symm
  · rw [if_neg he]
    simp [he]

end Routes

/-- The routing table. -/
structure RoutingTable where
  routes : Routes
  length_routes : routes.length = routingTableSize
  tidy : routes.Tidy

namespace RoutingTable

open Routes

def getRouteTo (t : RoutingTable) (dest : UInt8) : Option RoutingTableEntry :=
  t.routes.getRouteTo dest

def addRouteTo (t : RoutingTable) (dest nextHop : UInt8) (state : UInt8 := stateValid) :
    RoutingTable where
  routes := t.routes.addRouteTo dest nextHop state
  length_routes := (length_addRouteTo ..).trans t.length_routes
  tidy := t.tidy.addRouteTo dest nextHop state

/-- `deleteRouteTo`: the first slot that names `dest`, in use or not. -/
def deleteRouteTo (t : RoutingTable) (dest : UInt8) : Bool × RoutingTable :=
  match h : t.routes.findIdx? fun e => e.dest = dest with
  | none => (false, t)
  | some i =>
    (true,
      { routes := t.routes.deleteRoute i
        length_routes :=
          (length_deleteRoute (List.findIdx?_eq_some_iff_getElem.mp h).1).trans t.length_routes
        tidy := t.tidy.deleteRoute i })

/-- `clearRoutingTable`, on whatever the slots hold. -/
def cleared (l : Routes) (h : l.length = routingTableSize) : RoutingTable where
  routes := l.clearRoutingTable
  length_routes := (List.length_map _).trans h
  tidy := Tidy.clearRoutingTable l

/-- The next hop of the route to `dest`, if there is one. -/
def nextHop (t : RoutingTable) (dest : UInt8) : Option UInt8 := (t.getRouteTo dest).map (·.nextHop)

theorem getRouteTo_cleared (l : Routes) (h : l.length = routingTableSize) (dest : UInt8) :
    (cleared l h).getRouteTo dest = none := by
  refine List.find?_eq_none.mpr ?_
  intro e he
  obtain ⟨f, -, rfl⟩ := List.mem_map.mp he
  simp

/-- There is a slot for `dest`: one that names it, or one out of use. -/
def Room (t : RoutingTable) (dest : UInt8) : Prop :=
  ∃ e ∈ t.routes, e.dest = dest ∨ e.state = stateInvalid

/-- With no room all slots are in use, for other destinations. -/
theorem forall_of_not_room {t : RoutingTable} {dest : UInt8} (h : ¬ t.Room dest) :
    ∀ e ∈ t.routes, e.dest ≠ dest ∧ e.state ≠ stateInvalid := by
  intro e he
  constructor
  · exact fun hd => h ⟨e, he, .inl hd⟩
  · exact fun hv => h ⟨e, he, .inr hv⟩

theorem routes_eq_cons (t : RoutingTable) : ∃ e l, t.routes = e :: l :=
  List.exists_cons_of_length_pos (by rw [t.length_routes]; decide)

/-- With no room the oldest route makes place, and the new one comes last. -/
theorem routes_addRouteTo_full {t : RoutingTable} {dest : UInt8} (hfull : ¬ t.Room dest)
    (hop state : UInt8) :
    (t.addRouteTo dest hop state).routes = t.routes.tail ++ [⟨dest, hop, state⟩] := by
  have hslot := forall_of_not_room hfull
  obtain ⟨e, l, hl⟩ := t.routes_eq_cons
  exact addRouteTo_full (fun e he => (hslot e he).1) (fun e he => (hslot e he).2)
    (hl ▸ List.cons_ne_nil e l)

/-- A route just added is found. -/
theorem getRouteTo_addRouteTo (t : RoutingTable) (dest hop : UInt8) {state : UInt8}
    (hs : state ≠ stateInvalid) :
    (t.addRouteTo dest hop state).getRouteTo dest = some ⟨dest, hop, state⟩ := by
  have htidy := (t.addRouteTo dest hop state).tidy
  show (t.routes.addRouteTo dest hop state).getRouteTo dest = _
  have hsplit : ∃ pre post, t.routes.addRouteTo dest hop state = pre ++ ⟨dest, hop, state⟩ :: post ∧
      ∀ f ∈ pre, f.dest ≠ dest := by
    rcases addRouteTo_cases t.routes dest hop state with
      ⟨pre, _, post, -, heq, hpre, -⟩ | ⟨hd, hv⟩
    · exact ⟨pre, post, heq, hpre⟩
    · have hne : t.routes ≠ [] :=
        List.ne_nil_of_length_pos (by rw [t.length_routes]; decide)
      exact ⟨t.routes.tail, [], addRouteTo_full hd hv hne,
        fun f hf => hd f (List.mem_of_mem_tail hf)⟩
  obtain ⟨pre, post, heq, hpre⟩ := hsplit
  have h : (t.routes.addRouteTo dest hop state).Tidy := htidy
  rw [heq] at h ⊢
  exact (getRouteTo_split h hpre).trans (if_neg hs)

/-- With room, one slot is taken: one that gives no route to any other destination. -/
theorem routes_addRouteTo_of_room {t : RoutingTable} {dest d : UInt8} (hroom : t.Room dest)
    (hne : d ≠ dest) (hop state : UInt8) :
    ∃ pre e post, t.routes = pre ++ e :: post ∧
      (t.addRouteTo dest hop state).routes = pre ++ ⟨dest, hop, state⟩ :: post ∧
      ¬ (e.dest = d ∧ e.state ≠ stateInvalid) := by
  rcases addRouteTo_cases t.routes dest hop state with
    ⟨pre, e, post, hl, heq, -, he⟩ | ⟨hd, hv⟩
  · refine ⟨pre, e, post, hl, heq, ?_⟩
    rintro ⟨hed, hev⟩
    rcases he with he | ⟨he, -⟩
    · exact hne (hed.symm.trans he)
    · exact hev he
  · obtain ⟨e, he, hed | hev⟩ := hroom
    · exact absurd hed (hd e he)
    · exact absurd hev (hv e he)

/-- The other routes stay, if there is room. -/
theorem getRouteTo_addRouteTo_of_ne {t : RoutingTable} {dest d : UInt8} (hroom : t.Room dest)
    (hne : d ≠ dest) (hop state : UInt8) :
    (t.addRouteTo dest hop state).getRouteTo d = t.getRouteTo d := by
  obtain ⟨pre, e, post, hl, heq, hskip⟩ := routes_addRouteTo_of_room hroom hne hop state
  have hnew : ¬ (dest = d ∧ state ≠ stateInvalid) := fun h => hne h.1.symm
  show (t.addRouteTo dest hop state).routes.getRouteTo d = t.routes.getRouteTo d
  rw [heq, hl]
  simp only [Routes.getRouteTo, List.find?_append, List.find?_cons, decide_eq_false hskip,
    decide_eq_false hnew]

/-- With no room the route in the first slot goes, whatever it is to. -/
theorem getRouteTo_addRouteTo_full {t : RoutingTable} {dest d : UInt8} (hfull : ¬ t.Room dest)
    (hne : d ≠ dest) (hop state : UInt8) :
    (t.addRouteTo dest hop state).getRouteTo d =
      if t.routes.head?.map (·.dest) = some d then none else t.getRouteTo d := by
  have hslot := forall_of_not_room hfull
  have htidy := t.tidy
  obtain ⟨e, l, hl⟩ := t.routes_eq_cons
  have hnew : ¬ (dest = d ∧ state ≠ stateInvalid) := fun h => hne h.1.symm
  rw [getRouteTo, routes_addRouteTo_full hfull, getRouteTo, hl, List.tail_cons, List.head?_cons,
    Option.map_some, Routes.getRouteTo, Routes.getRouteTo, List.find?_append,
    List.find?_singleton, decide_eq_false hnew, if_neg Bool.false_ne_true, Option.or_none,
    List.find?_cons]
  rw [hl] at htidy hslot
  by_cases hed : e.dest = d
  · rw [if_pos (congrArg some hed)]
    refine List.find?_eq_none.mpr fun f hf => ?_
    have hfe := (List.pairwise_cons.mp htidy).1 f hf (hslot f (List.mem_cons_of_mem e hf)).2
    simp only [decide_eq_true_eq, not_and]
    exact fun hfd => absurd (hed.trans hfd.symm) hfe
  · rw [if_neg (fun h => hed (Option.some_inj.mp h)), decide_eq_false (fun h => hed h.1)]

/-- What `deleteRouteTo` does: it deletes the first slot that names the
destination, if there is one. -/
theorem deleteRouteTo_cases (t : RoutingTable) (dest : UInt8) :
    (∀ e ∈ t.routes, e.dest ≠ dest) ∧ t.deleteRouteTo dest = (false, t) ∨
    ∃ pre e post, t.routes = pre ++ e :: post ∧ e.dest = dest ∧ (∀ f ∈ pre, f.dest ≠ dest) ∧
      (t.deleteRouteTo dest).1 = true ∧
      (t.deleteRouteTo dest).2.routes = t.routes.deleteRoute pre.length := by
  rw [deleteRouteTo]
  split
  · next h =>
    exact .inl ⟨fun e he => of_decide_eq_false (List.findIdx?_eq_none_iff.mp h e he), rfl⟩
  · next i h =>
    obtain ⟨pre, e, post, hl, rfl, he, hpre⟩ := findIdx?_split h
    exact .inr ⟨pre, e, post, hl, of_decide_eq_true he,
      fun f hf => of_decide_eq_false (hpre f hf), rfl, rfl⟩

/-- A route deleted is not found, whatever slots behind it name its destination;
the others stay. -/
theorem getRouteTo_deleteRouteTo (t : RoutingTable) (dest d : UInt8) :
    (t.deleteRouteTo dest).2.getRouteTo d = if d = dest then none else t.getRouteTo d := by
  have htidy := t.tidy
  rcases t.deleteRouteTo_cases dest with ⟨hnot, hcall⟩ | ⟨pre, e, post, hl, hed, hpre, -, hcall⟩
  · rw [hcall]
    split
    · next hd =>
      refine List.find?_eq_none.mpr fun e he => ?_
      have := hnot e he
      simp [hd, this]
    · rfl
  · rw [getRouteTo, hcall, getRouteTo]
    rw [hl] at htidy ⊢
    -- the copy that is left in the last slot is out of use
    have hlast : List.find? (fun f : RoutingTableEntry => f.dest = d ∧ f.state ≠ stateInvalid)
        ((pre ++ e :: post).getLast?.toList.map fun f => { f with state := stateInvalid }) =
          none := by
      refine List.find?_eq_none.mpr fun f hf => ?_
      obtain ⟨g, -, rfl⟩ := List.mem_map.mp hf
      simp
    rw [Routes.deleteRoute, List.eraseIdx_append_of_length_le le_rfl, Nat.sub_self,
      List.eraseIdx_cons_zero, Routes.getRouteTo, Routes.getRouteTo, List.find?_append, hlast,
      Option.or_none, List.find?_append, List.find?_append, List.find?_cons]
    by_cases hd : d = dest
    · have h₁ : pre.find? (fun f => f.dest = d ∧ f.state ≠ stateInvalid) = none := by
        refine List.find?_eq_none.mpr fun f hf => ?_
        have := hpre f hf
        simp [hd, this]
      have h₂ : post.find? (fun f => f.dest = d ∧ f.state ≠ stateInvalid) = none := by
        refine List.find?_eq_none.mpr fun f hf => ?_
        have := (List.pairwise_cons.mp (List.pairwise_append.mp htidy).2.1).1 f hf
        simp only [decide_eq_true_eq, not_and]
        exact fun hfd hfv => this hfv (hed.trans (hd.symm.trans hfd.symm))
      rw [if_pos hd, h₁, h₂]
      rfl
    · rw [if_neg hd, decide_eq_false fun h => hd (h.1.symm.trans hed)]

theorem nextHop_addRouteTo (t : RoutingTable) (dest hop : UInt8) :
    (t.addRouteTo dest hop).nextHop dest = some hop := by
  rw [nextHop, getRouteTo_addRouteTo t dest hop (by decide), Option.map_some]

/-- A slot in use holds the route to its destination. -/
theorem getRouteTo_of_mem {t : RoutingTable} {e : RoutingTableEntry} (he : e ∈ t.routes)
    (hv : e.state ≠ stateInvalid) : t.getRouteTo e.dest = some e := by
  obtain ⟨pre, post, hl⟩ := List.append_of_mem he
  have h := t.tidy
  rw [hl] at h
  show t.routes.getRouteTo e.dest = _
  rw [hl]
  refine (getRouteTo_split h ?_).trans (if_neg hv)
  intro f hf
  exact (List.pairwise_append.mp h).2.2 f hf e List.mem_cons_self hv

/-- There is room for a destination as long as all destinations, with it, are
no more than the slots. -/
theorem room_of_card {t : RoutingTable} {A : Finset UInt8} {dest : UInt8}
    (hA : ∀ d, (t.nextHop d).isSome → d ∈ A) (hd : dest ∈ A) (hcard : A.card ≤ routingTableSize) :
    t.Room dest := by
  by_contra hfull
  have hslot := forall_of_not_room hfull
  -- the destinations of the ten slots are distinct, and `dest` is none of them
  have hnodup : (t.routes.map (·.dest)).Nodup := by
    refine List.pairwise_map.mpr (t.tidy.imp_of_mem ?_)
    intro e f _ hf h
    exact h (hslot f hf).2
  have hsub : (t.routes.map (·.dest)).toFinset ⊆ A.erase dest := by
    intro d hd
    obtain ⟨e, he, rfl⟩ := List.mem_map.mp (List.mem_toFinset.mp hd)
    have hroute := getRouteTo_of_mem he (hslot e he).2
    exact Finset.mem_erase.mpr ⟨(hslot e he).1, hA e.dest (by simp [nextHop, hroute])⟩
  have hle := Finset.card_le_card hsub
  rw [List.toFinset_card_of_nodup hnodup, List.length_map, t.length_routes,
    Finset.card_erase_of_mem hd] at hle
  have := Finset.card_pos.mpr ⟨dest, hd⟩
  omega

/-- Every slot is in use, none for `dest`, and the first one is for `d`. -/
def Evicts (t : RoutingTable) (dest d : UInt8) : Prop :=
  (∀ e ∈ t.routes, e.state ≠ stateInvalid ∧ e.dest ≠ dest) ∧
    t.routes.head?.map (·.dest) = some d

instance (t : RoutingTable) (dest d : UInt8) : Decidable (t.Evicts dest d) :=
  inferInstanceAs (Decidable (_ ∧ _))

/-- The other routes stay, but for the oldest one when there is no room. -/
theorem getRouteTo_addRouteTo_other (t : RoutingTable) {dest d : UInt8} (hne : d ≠ dest)
    (hop state : UInt8) :
    (t.addRouteTo dest hop state).getRouteTo d =
      if t.Evicts dest d then none else t.getRouteTo d := by
  by_cases hroom : t.Room dest
  · rw [getRouteTo_addRouteTo_of_ne hroom hne, if_neg]
    rintro ⟨hfull, -⟩
    obtain ⟨e, he, hed | hev⟩ := hroom
    · exact (hfull e he).2 hed
    · exact (hfull e he).1 hev
  · have hslot := forall_of_not_room hroom
    rw [getRouteTo_addRouteTo_full hroom hne]
    exact if_congr ⟨fun h => ⟨fun e he => (hslot e he).symm, h⟩, fun h => h.2⟩ rfl rfl

/-- Once a route has been deleted a slot is out of use, if one named its
destination. -/
theorem evicts_deleteRouteTo {t : RoutingTable} {gone dest d : UInt8} :
    (t.deleteRouteTo gone).2.Evicts dest d ↔
      (∀ e ∈ t.routes, e.dest ≠ gone) ∧ t.Evicts dest d := by
  rcases t.deleteRouteTo_cases gone with ⟨hnot, hcall⟩ | ⟨pre, e, post, hl, he, -, -, hcall⟩
  · rw [hcall]
    exact ⟨fun h => ⟨hnot, h⟩, fun h => h.2⟩
  · refine iff_of_false ?_ fun h => h.1 e (hl ▸ by simp) he
    rintro ⟨hused, -⟩
    have hlast : ∃ f ∈ (t.deleteRouteTo gone).2.routes, f.state = stateInvalid := by
      rw [hcall, Routes.deleteRoute,
        List.getLast?_eq_some_getLast (show t.routes ≠ [] from hl ▸ by simp)]
      exact ⟨_, List.mem_append_right _ (List.mem_singleton_self _), rfl⟩
    obtain ⟨f, hf, hv⟩ := hlast
    exact (hused f hf).1 hv

/-- Routes over one next hop, added one after another, with room for each. -/
theorem getRouteTo_foldl_addRouteTo {l : List UInt8} {hop : UInt8} {t : RoutingTable}
    (hroom : ∀ pre a post, l = pre ++ a :: post →
      (pre.foldl (fun t d => t.addRouteTo d hop) t).Room a) (d : UInt8) :
    (l.foldl (fun t d => t.addRouteTo d hop) t).getRouteTo d =
      if d ∈ l then some ⟨d, hop, stateValid⟩ else t.getRouteTo d := by
  induction l generalizing t with
  | nil => rfl
  | cons a l ih =>
    have hroom' : ∀ pre b post, l = pre ++ b :: post →
        (pre.foldl (fun t d => t.addRouteTo d hop) (t.addRouteTo a hop)).Room b := by
      intro pre b post h
      exact hroom (a :: pre) b post (congrArg (a :: ·) h)
    rw [List.foldl_cons, ih hroom']
    by_cases hd : d ∈ l
    · rw [if_pos hd, if_pos (List.mem_cons_of_mem a hd)]
    · rw [if_neg hd]
      by_cases hda : d = a
      · rw [if_pos (hda ▸ List.mem_cons_self), hda, getRouteTo_addRouteTo t a hop (by decide)]
      · rw [if_neg (by simp [hda, hd])]
        exact getRouteTo_addRouteTo_of_ne (hroom [] a l rfl) hda hop stateValid

/-- No other destinations get a route. -/
theorem nextHop_addRouteTo_isSome {t : RoutingTable} {dest hop d : UInt8}
    (h : ((t.addRouteTo dest hop).nextHop d).isSome) : d = dest ∨ (t.nextHop d).isSome := by
  by_cases hd : d = dest
  · exact .inl hd
  · refine .inr ?_
    rw [nextHop, Option.isSome_map, getRouteTo_addRouteTo_other t hd] at h
    rw [nextHop, Option.isSome_map]
    split at h
    · cases h
    · exact h

theorem nextHop_foldl_isSome {A : Finset UInt8} {l : List UInt8} (hl : ∀ d ∈ l, d ∈ A)
    {hop : UInt8} {t : RoutingTable} (hA : ∀ d, (t.nextHop d).isSome → d ∈ A) (d : UInt8)
    (h : ((l.foldl (fun t d => t.addRouteTo d hop) t).nextHop d).isSome) : d ∈ A := by
  induction l generalizing t with
  | nil => exact hA d h
  | cons a l ih =>
    rw [List.forall_mem_cons] at hl
    refine ih hl.2 (fun d hd => ?_) h
    rcases nextHop_addRouteTo_isSome hd with rfl | hd
    · exact hl.1
    · exact hA d hd

/-- The next hops then, if all destinations have room together. -/
theorem nextHop_foldl_addRouteTo {A : Finset UInt8} (hcard : A.card ≤ routingTableSize)
    {l : List UInt8} (hl : ∀ d ∈ l, d ∈ A) (hop d : UInt8) {t : RoutingTable}
    (hA : ∀ d, (t.nextHop d).isSome → d ∈ A) :
    (l.foldl (fun t d => t.addRouteTo d hop) t).nextHop d =
      if d ∈ l then some hop else t.nextHop d := by
  have hroom : ∀ pre a post, l = pre ++ a :: post →
      (pre.foldl (fun t d => t.addRouteTo d hop) t).Room a := by
    rintro pre a post rfl
    refine room_of_card (nextHop_foldl_isSome (fun d hd => hl d ?_) hA) (hl a ?_) hcard
    · exact List.mem_append_left _ hd
    · exact List.mem_append_right _ List.mem_cons_self
  rw [nextHop, getRouteTo_foldl_addRouteTo hroom]
  split <;> rfl

/-- The number of slots out of use. -/
def free (t : RoutingTable) : ℕ := t.routes.countP fun e => e.state = stateInvalid

theorem room_of_free {t : RoutingTable} (h : 0 < t.free) (dest : UInt8) : t.Room dest := by
  obtain ⟨e, he, hv⟩ := List.countP_pos_iff.mp h
  exact ⟨e, he, .inr (of_decide_eq_true hv)⟩

/-- A route takes one slot at most. -/
theorem free_le_addRouteTo (t : RoutingTable) (dest hop : UInt8) :
    t.free ≤ (t.addRouteTo dest hop).free + 1 := by
  rcases addRouteTo_cases t.routes dest hop stateValid with ⟨pre, e, post, hl, heq, -⟩ | ⟨-, hv⟩
  · show t.routes.countP _ ≤ (t.routes.addRouteTo dest hop stateValid).countP _ + 1
    rw [heq, hl, List.countP_append, List.countP_append, List.countP_cons, List.countP_cons]
    split <;> omega
  · have h0 : t.free = 0 := List.countP_eq_zero.mpr fun e he => by simpa using hv e he
    omega

/-- The routes then, if there is a free slot for each. -/
theorem getRouteTo_foldl_of_free {l : List UInt8} {t : RoutingTable} (hfree : l.length ≤ t.free)
    (hop d : UInt8) : (l.foldl (fun t d => t.addRouteTo d hop) t).getRouteTo d =
      if d ∈ l then some ⟨d, hop, stateValid⟩ else t.getRouteTo d := by
  have hleft : ∀ (pre : List UInt8) (t : RoutingTable),
      t.free ≤ (pre.foldl (fun t d => t.addRouteTo d hop) t).free + pre.length := by
    intro pre
    induction pre with
    | nil => exact fun _ => le_rfl
    | cons a pre ih =>
      intro t
      have h₁ := free_le_addRouteTo t a hop
      have h₂ := ih (t.addRouteTo a hop)
      rw [List.foldl_cons, List.length_cons]
      omega
  refine getRouteTo_foldl_addRouteTo ?_ d
  rintro pre a post rfl
  have := hleft pre t
  rw [List.length_append, List.length_cons] at hfree
  exact room_of_free (by omega) a

/-! ### How long a route stays -/

instance (t : RoutingTable) (dest : UInt8) : Decidable (t.Room dest) :=
  inferInstanceAs (Decidable (∃ e ∈ t.routes, _))

/-- The slot that holds the route to `dest`. -/
def slotOf (t : RoutingTable) (dest : UInt8) : ℕ :=
  t.routes.findIdx fun e => e.dest = dest ∧ e.state ≠ stateInvalid

/-- How often the oldest route is retired while routes to `l` are added: the
times all slots are in use, and none of them names the destination. -/
def retirements (hop : UInt8) : RoutingTable → List UInt8 → ℕ
  | _, [] => 0
  | t, d :: l => (if t.Room d then 0 else 1) + retirements hop (t.addRouteTo d hop) l

theorem slotOf_addRouteTo {t : RoutingTable} {dest d : UInt8} (hroom : t.Room dest)
    (hne : d ≠ dest) (hop : UInt8) : (t.addRouteTo dest hop).slotOf d = t.slotOf d := by
  obtain ⟨pre, e, post, hl, heq, hskip⟩ := routes_addRouteTo_of_room hroom hne hop stateValid
  have hnew : ¬ (dest = d ∧ stateValid ≠ stateInvalid) := fun h => hne h.1.symm
  rw [slotOf, slotOf, heq, hl, List.findIdx_append, List.findIdx_append, List.findIdx_cons,
    List.findIdx_cons, decide_eq_false hskip, decide_eq_false hnew]

/-- When the oldest route is retired, the others move down by one slot. -/
theorem slotOf_addRouteTo_full {t : RoutingTable} {dest d : UInt8} (hfull : ¬ t.Room dest)
    (hroute : (t.getRouteTo d).isSome) (hpos : 0 < t.slotOf d) (hop : UInt8) :
    (t.addRouteTo dest hop).slotOf d + 1 = t.slotOf d := by
  have hlt : t.slotOf d < t.routes.length :=
    List.findIdx_lt_length.mpr (List.find?_isSome.mp hroute)
  obtain ⟨e, l, hl⟩ := t.routes_eq_cons
  rw [slotOf, hl, List.findIdx_cons] at hpos hlt
  rw [slotOf, slotOf, routes_addRouteTo_full hfull, hl, List.tail_cons, List.findIdx_cons]
  rcases he : decide (e.dest = d ∧ e.state ≠ stateInvalid) with _ | _
  · rw [he, cond_false, List.length_cons] at hlt
    rw [cond_false, List.findIdx_append, if_pos (by omega)]
  · rw [he, cond_true] at hpos
    exact absurd hpos (lt_irrefl 0)

/-- The route in the first slot is to its destination. -/
theorem slotOf_eq_zero {t : RoutingTable} {d : UInt8} (hroute : (t.getRouteTo d).isSome) :
    t.slotOf d = 0 ↔ t.routes.head?.map (·.dest) = some d := by
  have htidy := t.tidy
  obtain ⟨e, l, hl⟩ := t.routes_eq_cons
  rw [getRouteTo, Routes.getRouteTo, hl, List.find?_cons] at hroute
  rw [hl] at htidy
  rw [slotOf, hl, List.findIdx_cons, List.head?_cons, Option.map_some, Option.some_inj]
  by_cases he : e.dest = d ∧ e.state ≠ stateInvalid
  · rw [decide_eq_true he]
    exact iff_of_true rfl he.1
  · rw [decide_eq_false he] at hroute ⊢
    refine iff_of_false (Nat.succ_ne_zero _) ?_
    intro hed
    obtain ⟨f, hf, hfd⟩ := List.find?_isSome.mp hroute
    have hfd := of_decide_eq_true hfd
    exact (List.pairwise_cons.mp htidy).1 f hf hfd.2 (hed.trans hfd.1.symm)

/-- A route that is not there is not added with others. -/
theorem getRouteTo_foldl_none {dest : UInt8} {l : List UInt8} (hl : dest ∉ l) (hop : UInt8)
    {t : RoutingTable} (hroute : t.getRouteTo dest = none) :
    (l.foldl (fun t d => t.addRouteTo d hop) t).getRouteTo dest = none := by
  induction l generalizing t with
  | nil => exact hroute
  | cons a l ih =>
    rw [List.mem_cons, not_or] at hl
    refine ih hl.2 ?_
    rw [getRouteTo_addRouteTo_other t hl.1, hroute, ite_self]

/-- **A route that is not renewed stays exactly as long as no more routes are
retired than lie in the slots before it.** -/
theorem getRouteTo_foldl_iff {dest : UInt8} {e : RoutingTableEntry} {l : List UInt8}
    (hl : dest ∉ l) (hop : UInt8) {t : RoutingTable} (hroute : t.getRouteTo dest = some e) :
    (l.foldl (fun t d => t.addRouteTo d hop) t).getRouteTo dest =
      if t.retirements hop l ≤ t.slotOf dest then some e else none := by
  induction l generalizing t with
  | nil => exact hroute.trans (if_pos (Nat.zero_le _)).symm
  | cons a l ih =>
    rw [List.mem_cons, not_or] at hl
    have hsome : (t.getRouteTo dest).isSome := Option.isSome_of_eq_some hroute
    rw [List.foldl_cons, retirements]
    by_cases hroom : t.Room a
    · have hkept := (getRouteTo_addRouteTo_of_ne hroom hl.1 hop stateValid).trans hroute
      rw [if_pos hroom, Nat.zero_add, ih hl.2 hkept, slotOf_addRouteTo hroom hl.1]
    · have hother := getRouteTo_addRouteTo_full hroom hl.1 hop stateValid
      rw [if_neg hroom]
      rcases Nat.eq_zero_or_pos (t.slotOf dest) with hzero | hpos
      · -- it is the oldest one itself
        rw [if_pos ((slotOf_eq_zero hsome).mp hzero)] at hother
        rw [getRouteTo_foldl_none hl.2 hop hother, if_neg (by omega)]
      · rw [if_neg (mt (slotOf_eq_zero hsome).mpr hpos.ne'), hroute] at hother
        have hslot := slotOf_addRouteTo_full hroom hsome hpos hop
        rw [ih hl.2 hother]
        exact if_congr (by omega) rfl rfl

/-! ### Any calls of the operations -/

/-- `retireOldestRoute`. -/
def retireOldestRoute (t : RoutingTable) : RoutingTable where
  routes := t.routes.deleteRoute 0
  length_routes := by
    rw [length_deleteRoute (by rw [t.length_routes]; decide), t.length_routes]
  tidy := t.tidy.deleteRoute 0

def clearRoutingTable (t : RoutingTable) : RoutingTable := cleared t.routes t.length_routes

/-- Slots all out of use, whatever else they hold. -/
def ofInvalid (l : Routes) (hlen : l.length = routingTableSize)
    (h : ∀ e ∈ l, e.state = stateInvalid) : RoutingTable where
  routes := l
  length_routes := hlen
  tidy := List.pairwise_iff_forall_sublist.mpr fun hsub hf =>
    absurd (h _ (hsub.subset (by simp))) hf

/-- A call of one of the operations. -/
inductive TableOp where
  | addRouteTo (dest nextHop state : UInt8)
  | deleteRouteTo (dest : UInt8)
  | retireOldestRoute
  | clearRoutingTable
  deriving DecidableEq

def apply (t : RoutingTable) : TableOp → RoutingTable
  | .addRouteTo dest nextHop state => t.addRouteTo dest nextHop state
  | .deleteRouteTo dest => (t.deleteRouteTo dest).2
  | .retireOldestRoute => t.retireOldestRoute
  | .clearRoutingTable => t.clearRoutingTable

/-- No two slots in use have the same destination. -/
theorem pairwise_dest (t : RoutingTable) :
    t.routes.Pairwise fun e f =>
      e.state ≠ stateInvalid → f.state ≠ stateInvalid → e.dest ≠ f.dest := by
  refine t.tidy.imp ?_
  intro e f h _ hf
  exact h hf

/-- **The table is a map from destinations to routes, bounded by its slots**:
after any calls of its operations. -/
theorem bounded_map {l : Routes} (hlen : l.length = routingTableSize)
    (hinvalid : ∀ e ∈ l, e.state = stateInvalid) (ops : List TableOp) :
    let t := ops.foldl apply (ofInvalid l hlen hinvalid)
    (t.routes.Pairwise fun e f =>
      e.state ≠ stateInvalid → f.state ≠ stateInvalid → e.dest ≠ f.dest) ∧
    (∀ dest hop state : UInt8, state ≠ stateInvalid →
      (t.addRouteTo dest hop state).getRouteTo dest = some ⟨dest, hop, state⟩ ∧
      ∀ d, d ≠ dest → (t.addRouteTo dest hop state).getRouteTo d =
        if t.Evicts dest d then none else t.getRouteTo d) ∧
    ∀ dest : UInt8, (t.deleteRouteTo dest).2.getRouteTo dest = none ∧
      ∀ d, d ≠ dest → (t.deleteRouteTo dest).2.getRouteTo d = t.getRouteTo d := by
  intro t
  refine ⟨t.pairwise_dest, ?_, ?_⟩
  · intro dest hop state hs
    exact ⟨getRouteTo_addRouteTo t dest hop hs,
      fun d hd => getRouteTo_addRouteTo_other t hd hop state⟩
  · intro dest
    constructor
    · rw [getRouteTo_deleteRouteTo, if_pos rfl]
    · intro d hd
      rw [getRouteTo_deleteRouteTo, if_neg hd]

/-- Routes to the nodes 0 to 10 over node 2, in slots that all name node 7: the
last one is one too many. -/
def crowded : RoutingTable :=
  ((List.range 11).map fun i => TableOp.addRouteTo (UInt8.ofNat i) 2 stateValid).foldl apply
    (ofInvalid (List.replicate routingTableSize ⟨7, 3, stateInvalid⟩) (by decide) (by decide))

theorem crowded_bounded_map :
    crowded.Evicts 11 1 ∧
      (crowded.addRouteTo 11 5).getRouteTo 11 = some ⟨11, 5, stateValid⟩ ∧
      (crowded.addRouteTo 11 5).getRouteTo 1 = none ∧
      (crowded.addRouteTo 11 5).getRouteTo 10 = crowded.getRouteTo 10 ∧
      (crowded.deleteRouteTo 7).2.getRouteTo 7 = none := by
  have hevicts : crowded.Evicts 11 1 := by decide
  obtain ⟨-, hadd, hdelete⟩ := bounded_map
    (l := List.replicate routingTableSize ⟨7, 3, stateInvalid⟩) (by decide) (by decide)
    ((List.range 11).map fun i => TableOp.addRouteTo (UInt8.ofNat i) 2 stateValid)
  obtain ⟨hnew, hother⟩ := hadd 11 5 stateValid (by decide)
  refine ⟨hevicts, hnew, ?_, ?_, (hdelete 7).1⟩
  · exact (hother 1 (by decide)).trans (if_pos hevicts)
  · exact (hother 10 (by decide)).trans (if_neg (by decide))

end RoutingTable
