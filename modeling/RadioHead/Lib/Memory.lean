/-
Octet memory.

A buffer of a C program is a function from offsets to octets; reads past its
end are reads of whatever lies there.  `memcpy` is `write` of what `load`
yields.
-/
import Mathlib

/-- The contents of memory, from the start of a buffer. -/
abbrev Mem := ℕ → UInt8

namespace Mem

/-- The `n` octets from offset `off`. -/
def load (m : Mem) (off n : ℕ) : List UInt8 := (List.range n).map fun i => m (off + i)

/-- The octets `l` written from offset `off`. -/
def write (m : Mem) (off : ℕ) (l : List UInt8) : Mem :=
  fun i => if off ≤ i then l.getD (i - off) (m i) else m i

@[simp] theorem length_load (m : Mem) (off n : ℕ) : (m.load off n).length = n := by
  simp [load]

@[simp] theorem getElem_load (m : Mem) (off n i : ℕ) (h : i < (m.load off n).length) :
    (m.load off n)[i] = m (off + i) := by
  simp [load]

theorem take_load {k n : ℕ} (h : k ≤ n) (m : Mem) (off : ℕ) :
    (m.load off n).take k = m.load off k := by
  rw [load, ← List.map_take, List.take_range, Nat.min_eq_left h, load]

theorem drop_load (m : Mem) (off n k : ℕ) :
    (m.load off n).drop k = m.load (off + k) (n - k) := by
  refine List.ext_getElem (by simp) fun i h₁ h₂ => ?_
  rw [List.getElem_drop, getElem_load, getElem_load, Nat.add_assoc]

@[simp] theorem write_nil (m : Mem) (off : ℕ) : m.write off [] = m := by
  funext i
  simp [write]

theorem write_get {l : List UInt8} {i : ℕ} (h : i < l.length) (m : Mem) (off : ℕ) :
    m.write off l (off + i) = l[i] := by
  simp [write, h]

/-- Below the octets written nothing changes. -/
theorem write_lt {m : Mem} {off : ℕ} {l : List UInt8} {i : ℕ} (h : i < off) :
    m.write off l i = m i := if_neg (by omega)

/-- Nor above them. -/
theorem write_ge {m : Mem} {off : ℕ} {l : List UInt8} {i : ℕ} (h : off + l.length ≤ i) :
    m.write off l i = m i := by
  rw [write, if_pos (by omega), List.getD_eq_default _ _ (by omega)]

/-- Reading back part of what was written. -/
theorem load_write {l : List UInt8} {i n : ℕ} (h : i + n ≤ l.length) (m : Mem) (off : ℕ) :
    (m.write off l).load (off + i) n = (l.drop i).take n := by
  refine List.ext_getElem (by simp; omega) fun j h₁ h₂ => ?_
  rw [length_load] at h₁
  have hj : i + j < l.length := by omega
  rw [getElem_load, Nat.add_assoc, write_get hj]
  simp

theorem load_write_self (m : Mem) (off : ℕ) (l : List UInt8) :
    (m.write off l).load off l.length = l := by
  simpa using load_write (show 0 + l.length ≤ l.length by omega) m off

/-- Writing on where a write has ended. -/
theorem write_append (m : Mem) (off : ℕ) (l l' : List UInt8) :
    m.write off (l ++ l') = (m.write off l).write (off + l.length) l' := by
  funext i
  rcases lt_or_ge i (off + l.length) with hi | hi
  · rw [write_lt hi, write, write]
    split
    · rw [List.getD_append _ _ _ _ (by omega)]
    · rfl
  · rw [write, write, if_pos (by omega), if_pos hi, List.getD_append_right _ _ _ _ (by omega),
      write_ge hi, Nat.sub_add_eq]

/-- The second of two writes in the same place is the one that counts. -/
theorem write_write {l l' : List UInt8} (h : l.length ≤ l'.length) (m : Mem) (off : ℕ) :
    (m.write off l).write off l' = m.write off l' := by
  funext i
  rcases lt_or_ge i off with hi | hi
  · rw [write_lt hi, write_lt hi, write_lt hi]
  · rcases lt_or_ge i (off + l'.length) with hl | hl
    · obtain ⟨j, rfl⟩ := Nat.exists_eq_add_of_le hi
      have hj : j < l'.length := by omega
      rw [write_get hj, write_get hj]
    · rw [write_ge hl, write_ge (by omega), write_ge hl]

/-- Overwriting one of the octets written. -/
theorem write_set {l : List UInt8} {i : ℕ} (h : i < l.length) (m : Mem) (off : ℕ) (a : UInt8) :
    (m.write off l).write (off + i) [a] = m.write off (l.set i a) := by
  have hlen : (l.set i a).length = l.length := List.length_set
  funext k
  by_cases hk : k = off + i
  · subst hk
    rw [write_get (by omega)]
    have := write_get (show 0 < [a].length by simp) (m.write off l) (off + i)
    rw [Nat.add_zero] at this
    simp [this]
  · have hskip : (m.write off l).write (off + i) [a] k = m.write off l k := by
      rcases lt_or_gt_of_ne hk with hlt | hgt
      · exact write_lt hlt
      · exact write_ge hgt
    rw [hskip]
    rcases lt_or_ge k off with ho | ho
    · rw [write_lt ho, write_lt ho]
    · obtain ⟨j, rfl⟩ := Nat.exists_eq_add_of_le ho
      rcases lt_or_ge j l.length with hj | hj
      · rw [write_get hj, write_get (by omega), List.getElem_set_ne (by omega)]
      · rw [write_ge (by omega), write_ge (by omega)]

/-- Past `k` a write leaves octets of its list past `k`, or what was there. -/
theorem write_mem_drop {k i : ℕ} (h : k ≤ i) (m : Mem) (l : List UInt8) :
    m.write 0 l i ∈ l.drop k ∨ m.write 0 l i = m i := by
  by_cases hi : i < l.length
  · left
    have hget := write_get hi m 0
    rw [Nat.zero_add] at hget
    rw [hget]
    refine List.mem_drop_iff_getElem.mpr ⟨i - k, by omega, ?_⟩
    congr 1
    omega
  · exact .inr (write_ge (by omega))

end Mem
