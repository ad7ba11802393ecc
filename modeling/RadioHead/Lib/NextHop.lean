/-
Following next hops.

Every node keeps at most one next hop towards a target: a partial function
from nodes to nodes.  Following it from a node either ends at the target, or at
a node without a next hop, or never.

* `Follows` — the nodes visited on the way to the target;
* `Follows.nodup` — a way that ends there visits no node twice;
* `LoopFree` — from every node that has a next hop the target is reached;
* `loopFree_update_iff` — setting one next hop keeps a network free of loops
  exactly if the way from the new next hop does not lead through the node.
-/
import Mathlib

namespace NextHop

variable {α : Type*} {hop hop' : α → Option α} {t u v w : α} {l l' : List α}

/-- From `v`, following the next hops visits the nodes `l`, the last one being
the target `t`. -/
inductive Follows (hop : α → Option α) (t : α) : α → List α → Prop where
  | here : Follows hop t t [t]
  | next {v u : α} {l : List α} (hne : v ≠ t) (hv : hop v = some u) (h : Follows hop t u l) :
      Follows hop t v (v :: l)

theorem Follows.unique (h : Follows hop t v l) (h' : Follows hop t v l') : l = l' := by
  induction h generalizing l' with
  | here =>
    cases h' with
    | here => rfl
    | next hne _ _ => exact absurd rfl hne
  | next hne hv _ ih =>
    cases h' with
    | here => exact absurd rfl hne
    | next _ hv' h' =>
      rw [hv, Option.some_inj] at hv'
      subst hv'
      rw [ih h']

/-- The way from a node visited is the rest of the way. -/
theorem Follows.of_mem (h : Follows hop t v l) (hw : w ∈ l) :
    ∃ l', Follows hop t w l' ∧ l' <:+ l := by
  induction h with
  | here =>
    rw [List.mem_singleton.mp hw]
    exact ⟨[t], .here, List.suffix_refl _⟩
  | next hne hv h ih =>
    rcases List.mem_cons.mp hw with rfl | hw
    · exact ⟨_, .next hne hv h, List.suffix_refl _⟩
    · obtain ⟨l', h', hsuf⟩ := ih hw
      exact ⟨l', h', hsuf.trans (List.suffix_cons _ _)⟩

/-- A node visited twice would be visited for ever. -/
theorem Follows.nodup (h : Follows hop t v l) : l.Nodup := by
  induction h with
  | here => exact List.nodup_singleton t
  | @next v u l hne hv h ih =>
    refine List.nodup_cons.mpr ⟨?_, ih⟩
    intro hmem
    obtain ⟨l', h', hsuf⟩ := h.of_mem hmem
    have hlen := hsuf.length_le
    rw [← (Follows.next hne hv h).unique h', List.length_cons] at hlen
    omega

/-- Only the next hops of the nodes visited matter. -/
theorem Follows.congr (h : Follows hop t v l) (hl : ∀ w ∈ l, hop w = hop' w) :
    Follows hop' t v l := by
  induction h with
  | here => exact .here
  | next hne hv _ ih =>
    rw [List.forall_mem_cons] at hl
    exact .next hne (hl.1 ▸ hv) (ih hl.2)

variable (hop t)

/-- From every node that has a next hop the target is reached, with no node
visited twice. -/
def LoopFree : Prop := ∀ v, (hop v).isSome → ∃ l, Follows hop t v l ∧ l.Nodup

variable {hop t} [DecidableEq α]

theorem Follows.update (h : Follows hop t u l) (hv : v ∉ l) :
    Follows (Function.update hop v (some u)) t u l := by
  refine h.congr ?_
  intro w hw
  rw [Function.update_of_ne (ne_of_mem_of_not_mem hw hv)]

/-- A way that came through `v` now goes on by its new next hop. -/
theorem Follows.reroute (hu : Follows hop t u l) (hvl : v ∉ l) (hvt : v ≠ t)
    (hw : Follows hop t w l') : ∃ l', Follows (Function.update hop v (some u)) t w l' := by
  have hu' := hu.update hvl
  induction hw with
  | here => exact ⟨_, .here⟩
  | @next w x _ hne hx _ ih =>
    by_cases hwv : w = v
    · subst hwv
      exact ⟨_, .next hvt (Function.update_self ..) hu'⟩
    · obtain ⟨l'', h''⟩ := ih
      exact ⟨_, .next hne (by rw [Function.update_of_ne hwv]; exact hx) h''⟩

/-- **Setting the next hop of `v` to `u` keeps a network free of loops exactly
if the way from `u` does not lead through `v`.** -/
theorem loopFree_update_iff (hfree : LoopFree hop t) (hvt : v ≠ t) :
    LoopFree (Function.update hop v (some u)) t ↔ ∃ l, Follows hop t u l ∧ v ∉ l := by
  constructor
  · intro h
    obtain ⟨l, hl, hnodup⟩ := h v (by rw [Function.update_self]; rfl)
    cases hl with
    | here => exact absurd rfl hvt
    | next _ hv hl =>
      rw [Function.update_self, Option.some_inj] at hv
      subst hv
      have hvl := (List.nodup_cons.mp hnodup).1
      refine ⟨_, hl.congr ?_, hvl⟩
      intro w hw
      rw [Function.update_of_ne (ne_of_mem_of_not_mem hw hvl)]
  · rintro ⟨l, hl, hvl⟩ w hw
    by_cases hwv : w = v
    · subst hwv
      have h := Follows.next hvt (Function.update_self w (some u) hop) (hl.update hvl)
      exact ⟨_, h, h.nodup⟩
    · rw [Function.update_of_ne hwv] at hw
      obtain ⟨lw, hlw, -⟩ := hfree w hw
      obtain ⟨l', hl'⟩ := hl.reroute hvl hvt hlw
      exact ⟨l', hl', hl'.nodup⟩

end NextHop
