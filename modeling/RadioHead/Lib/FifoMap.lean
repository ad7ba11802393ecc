/-
Maps that keep the order in which their keys came, with room for a fixed
number of them.

A key that is there already gets its new value in its old place; another one
comes last, and if there is no room the key that came first makes place for it.

* `FifoMap` — the entries, in the order of their keys;
* `insert`, `erase`, `lookup`, `oldest` — what it is for;
* `entries_insert_of_mem`, `entries_insert_of_lt`, `entries_insert_of_full` —
  what an insertion does to the entries;
* `lookup_insert_eq_none` — the one key it takes from the map.
-/
import Mathlib

structure FifoMap (κ ν : Type*) (cap : ℕ) where
  entries : List (κ × ν)
  nodup : (entries.map Prod.fst).Nodup
  length_le : entries.length ≤ cap

namespace FifoMap

variable {κ ν : Type*} {cap : ℕ} [DecidableEq κ]

def keys (m : FifoMap κ ν cap) : List κ := m.entries.map Prod.fst

def empty : FifoMap κ ν cap := ⟨[], List.nodup_nil, Nat.zero_le cap⟩

def lookup (m : FifoMap κ ν cap) (k : κ) : Option ν :=
  (m.entries.find? fun p => p.1 = k).map Prod.snd

/-- The key that has been there for the longest time. -/
def oldest (m : FifoMap κ ν cap) : Option κ := m.keys.head?

/-- The entries with a new value for `k`. -/
def put (l : List (κ × ν)) (k : κ) (v : ν) : List (κ × ν) :=
  l.map fun p => if p.1 = k then (k, v) else p

theorem fst_put (l : List (κ × ν)) (k : κ) (v : ν) : (put l k v).map Prod.fst = l.map Prod.fst := by
  rw [put, List.map_map]
  refine List.map_congr_left fun p _ => ?_
  by_cases h : p.1 = k
  · simp [h]
  · simp [h]

/-- A new key comes last; the first ones go as far as there is no room. -/
def insert (m : FifoMap κ ν cap) (k : κ) (v : ν) : FifoMap κ ν cap :=
  if h : k ∈ m.keys then
    { entries := put m.entries k v
      nodup := (fst_put m.entries k v).symm ▸ m.nodup
      length_le := (List.length_map _).trans_le m.length_le }
  else
    { entries := (m.entries ++ [(k, v)]).drop (m.entries.length + 1 - cap)
      nodup := by
        rw [List.map_drop, List.map_append, List.map_singleton]
        refine List.Nodup.sublist (List.drop_sublist ..) ?_
        exact List.nodup_append_comm.mp (List.nodup_cons.mpr ⟨h, m.nodup⟩)
      length_le := by
        rw [List.length_drop, List.length_append, List.length_singleton]
        omega }

def erase (m : FifoMap κ ν cap) (k : κ) : FifoMap κ ν cap where
  entries := m.entries.filter fun p => p.1 ≠ k
  nodup := m.nodup.sublist (List.filter_sublist.map Prod.fst)
  length_le := (List.length_filter_le ..).trans m.length_le

theorem lookup_isSome {m : FifoMap κ ν cap} {k : κ} : (m.lookup k).isSome ↔ k ∈ m.keys := by
  rw [lookup, Option.isSome_map, List.find?_isSome, keys, List.mem_map]
  simp

theorem entries_insert_of_mem {m : FifoMap κ ν cap} {k : κ} (h : k ∈ m.keys) (v : ν) :
    (m.insert k v).entries = put m.entries k v := by rw [insert, dif_pos h]

theorem entries_insert_of_lt {m : FifoMap κ ν cap} {k : κ} (h : k ∉ m.keys)
    (hlt : m.entries.length < cap) (v : ν) :
    (m.insert k v).entries = m.entries ++ [(k, v)] := by
  rw [insert, dif_neg h]
  simp only [Nat.sub_eq_zero_of_le (Nat.succ_le_of_lt hlt), List.drop_zero]

/-- With no room the first key makes place. -/
theorem entries_insert_of_full {m : FifoMap κ ν cap} {k : κ} (h : k ∉ m.keys) (hcap : 0 < cap)
    (hfull : m.entries.length = cap) (v : ν) :
    (m.insert k v).entries = m.entries.tail ++ [(k, v)] := by
  rw [insert, dif_neg h]
  simp only [hfull, Nat.add_sub_cancel_left, List.drop_one]
  exact List.tail_append_of_ne_nil (List.ne_nil_of_length_pos (by omega))

theorem keys_insert (m : FifoMap κ ν cap) (k : κ) (v : ν) :
    (m.insert k v).keys =
      if k ∈ m.keys then m.keys else (m.keys ++ [k]).drop (m.keys.length + 1 - cap) := by
  by_cases h : k ∈ m.keys
  · rw [if_pos h, keys, entries_insert_of_mem h, fst_put, keys]
  · rw [if_neg h, keys, insert, dif_neg h, List.map_drop, List.map_append, keys, List.length_map]
    rfl

/-- **The only key that goes for another one is the oldest, and it goes only if
there is no room.** -/
theorem lookup_insert_eq_none {m : FifoMap κ ν cap} {k k' : κ} (hne : k' ≠ k)
    (h : (m.lookup k').isSome) (v : ν) :
    (m.insert k v).lookup k' = none ↔
      k ∉ m.keys ∧ m.keys.length = cap ∧ m.oldest = some k' := by
  have hmem := lookup_isSome.mp h
  rw [← Option.not_isSome_iff_eq_none, lookup_isSome, keys_insert]
  by_cases hk : k ∈ m.keys
  · rw [if_pos hk]
    exact iff_of_false (not_not.mpr hmem) fun h => h.1 hk
  · have hle : m.keys.length ≤ cap := (List.length_map _).trans_le m.length_le
    rw [if_neg hk]
    rcases hle.lt_or_eq with hlt | heq
    · rw [Nat.sub_eq_zero_of_le (Nat.succ_le_of_lt hlt), List.drop_zero]
      refine iff_of_false (not_not.mpr (List.mem_append_left _ hmem)) ?_
      exact fun h => hlt.ne h.2.1
    · obtain ⟨a, l, hl⟩ := List.exists_cons_of_ne_nil (List.ne_nil_of_mem hmem)
      have hnodup : (a :: l).Nodup := hl ▸ m.nodup
      rw [heq, Nat.add_sub_cancel_left, oldest, hl, List.head?_cons]
      simp only [List.cons_append, List.drop_one, List.tail_cons, List.mem_append,
        List.mem_singleton, hne, or_false, Option.some_inj]
      rw [hl, List.mem_cons] at hmem
      constructor
      · intro hnot
        exact ⟨hl ▸ hk, trivial, (hmem.resolve_right hnot).symm⟩
      · rintro ⟨-, -, rfl⟩
        exact (List.nodup_cons.mp hnodup).1

end FifoMap
