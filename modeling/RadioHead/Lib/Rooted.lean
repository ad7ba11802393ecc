/-
Rooted trees, as graphs.

Each node but the root has one above it, and is near that one and the ones
below.  A tree is given by what is above a node and how deep it lies.

* `Rooted` — a tree of nodes by which of them are near each other;
* `Rooted.induct` — induction from the root down;
* `way` — the nodes on the way from the root to a node;
* `climb` — the nodes on the way from a node to the root.
-/
import Mathlib

variable {α : Type*}

/-- A tree: each node but `root` has one above it. -/
structure Rooted (nodes : Finset α) (near : α → List α) (root : α) where
  up : α → α
  depth : α → ℕ
  depth_root : depth root = 0
  up_mem : ∀ v ∈ nodes, v ≠ root → up v ∈ nodes
  depth_up : ∀ v ∈ nodes, v ≠ root → depth v = depth (up v) + 1
  mem_near : ∀ v w, w ∈ near v ↔
    v ∈ nodes ∧ w ∈ nodes ∧ (v ≠ root ∧ w = up v ∨ w ≠ root ∧ v = up w)
  nodup : ∀ v, (near v).Nodup

namespace Rooted

variable {nodes : Finset α} {near : α → List α} {root v w : α} {i j k : ℕ}

/-- The node `k` edges above `v`. -/
def climb (T : Rooted nodes near root) (v : α) (k : ℕ) : α := T.up^[k] v

/-- The `k` nodes from `v` up, the last one first. -/
def wayUp (T : Rooted nodes near root) : ℕ → α → List α
  | 0, _ => []
  | k + 1, v => T.wayUp k (T.up v) ++ [v]

/-- The nodes on the way from `root`, which is left out, to `v`. -/
def way (T : Rooted nodes near root) (v : α) : List α := T.wayUp (T.depth v) v

variable (T : Rooted nodes near root)

theorem way_root : T.way root = [] := by
  rw [way, T.depth_root]
  rfl

theorem way_eq (hv : v ∈ nodes) (hne : v ≠ root) : T.way v = T.way (T.up v) ++ [v] := by
  rw [way, T.depth_up v hv hne]
  rfl

/-- What holds of `root`, and of a node if of the one above it. -/
theorem induct {P : α → Prop} (hroot : P root)
    (hup : ∀ v ∈ nodes, v ≠ root → P (T.up v) → P v) : ∀ v ∈ nodes, P v := by
  suffices h : ∀ n v, v ∈ nodes → T.depth v = n → P v from fun v hv => h _ v hv rfl
  intro n
  induction n with
  | zero =>
    intro v hv hn
    by_cases hne : v = root
    · exact hne ▸ hroot
    · rw [T.depth_up v hv hne] at hn
      omega
  | succ n ih =>
    intro v hv hn
    by_cases hne : v = root
    · exact hne ▸ hroot
    · rw [T.depth_up v hv hne] at hn
      exact hup v hv hne (ih _ (T.up_mem v hv hne) (by omega))

theorem length_way : ∀ v ∈ nodes, (T.way v).length = T.depth v := by
  refine T.induct ?_ ?_
  · rw [way_root, T.depth_root, List.length_nil]
  · intro v hv hne ih
    rw [T.way_eq hv hne, List.length_append, ih, T.depth_up v hv hne, List.length_singleton]

theorem mem_way : ∀ v ∈ nodes, ∀ w ∈ T.way v, w ∈ nodes ∧ w ≠ root ∧ T.depth w ≤ T.depth v := by
  refine T.induct ?_ ?_
  · intro w hw
    rw [way_root] at hw
    exact absurd hw List.not_mem_nil
  · intro v hv hne ih w hw
    rw [T.way_eq hv hne] at hw
    rcases List.mem_append.mp hw with hw | hw
    · obtain ⟨hw, hroot, hle⟩ := ih w hw
      refine ⟨hw, hroot, hle.trans ?_⟩
      rw [T.depth_up v hv hne]
      exact Nat.le_succ _
    · rw [List.mem_singleton.mp hw]
      exact ⟨hv, hne, le_rfl⟩

theorem root_notMem_way (hv : v ∈ nodes) : root ∉ T.way v :=
  fun h => (T.mem_way v hv root h).2.1 rfl

/-- A node is not on the way to the one above it. -/
theorem notMem_way_up (hv : v ∈ nodes) (hne : v ≠ root) : v ∉ T.way (T.up v) := by
  intro h
  have hle := (T.mem_way _ (T.up_mem v hv hne) v h).2.2
  have hdepth := T.depth_up v hv hne
  omega

/-- The one above it is on the way to a node, unless it is `root`. -/
theorem up_mem_way (hv : v ∈ nodes) (hne : v ≠ root) (hup : T.up v ≠ root) :
    T.up v ∈ T.way v := by
  rw [T.way_eq hv hne, T.way_eq (T.up_mem v hv hne) hup]
  simp

/-! ### The way up -/

theorem climb_succ (v : α) (k : ℕ) : T.climb v (k + 1) = T.up (T.climb v k) :=
  Function.iterate_succ_apply' T.up k v

theorem climb_mem (hv : v ∈ nodes) (hk : k ≤ T.depth v) :
    T.climb v k ∈ nodes ∧ T.depth (T.climb v k) + k = T.depth v := by
  induction k with
  | zero => exact ⟨hv, rfl⟩
  | succ k ih =>
    obtain ⟨hmem, hdepth⟩ := ih (by omega)
    have hne : T.climb v k ≠ root := by
      intro h
      rw [h, T.depth_root] at hdepth
      omega
    rw [climb_succ]
    have := T.depth_up _ hmem hne
    exact ⟨T.up_mem _ hmem hne, by omega⟩

theorem climb_ne_root (hv : v ∈ nodes) (hk : k < T.depth v) : T.climb v k ≠ root := by
  intro h
  have hdepth := (T.climb_mem hv hk.le).2
  rw [h, T.depth_root] at hdepth
  omega

theorem climb_depth (hv : v ∈ nodes) : T.climb v (T.depth v) = root := by
  obtain ⟨hmem, hdepth⟩ := T.climb_mem hv le_rfl
  by_contra hne
  have := T.depth_up _ hmem hne
  omega

theorem climb_inj (hv : v ∈ nodes) (hi : i ≤ T.depth v) (hj : j ≤ T.depth v)
    (h : T.climb v i = T.climb v j) : i = j := by
  have hi' := (T.climb_mem hv hi).2
  have hj' := (T.climb_mem hv hj).2
  rw [h] at hi'
  omega

theorem climb_ne (hv : v ∈ nodes) (hi : i ≤ T.depth v) (hj : j ≤ T.depth v) (hij : i ≠ j) :
    T.climb v i ≠ T.climb v j :=
  fun h => hij (T.climb_inj hv hi hj h)

/-- Neighbours on the way. -/
theorem climb_near (hv : v ∈ nodes) (hk : k < T.depth v) :
    T.climb v (k + 1) ∈ near (T.climb v k) ∧ T.climb v k ∈ near (T.climb v (k + 1)) := by
  have hne := T.climb_ne_root hv hk
  have hmem := (T.climb_mem hv hk.le).1
  have hmem' := (T.climb_mem hv hk).1
  rw [T.mem_near, T.mem_near]
  exact ⟨⟨hmem, hmem', .inl ⟨hne, T.climb_succ v k⟩⟩, hmem', hmem, .inr ⟨hne, T.climb_succ v k⟩⟩

end Rooted
