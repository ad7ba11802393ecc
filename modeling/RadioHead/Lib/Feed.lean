/-
A queue that is fed while it is looked at.

One side puts elements into a queue whenever it likes; the other side looks at
the queue now and then and, if there is anything, takes the first element.
Between two looks any number of elements may come: a batch, which can be empty.

* `taken`, `left` — what the looks have taken, and what is still in the queue;
* `taken_append_left` — nothing gets lost or out of order;
* `left_of_slow` — where no two elements come between the same two looks, none
  has to wait.
-/
import Mathlib

namespace Feed

variable {α : Type*}

/-- What the looks take, from the queue `q`, with the batches that come before
each of them. -/
def taken : List α → List (List α) → List α
  | _, [] => []
  | q, b :: bs => (q ++ b).take 1 ++ taken ((q ++ b).drop 1) bs

/-- What is in the queue after the last look. -/
def left : List α → List (List α) → List α
  | q, [] => q
  | q, b :: bs => left ((q ++ b).drop 1) bs

@[simp] theorem taken_nil (q : List α) : taken q [] = [] := rfl

@[simp] theorem left_nil (q : List α) : left q [] = q := rfl

theorem taken_append (bs bs' : List (List α)) :
    ∀ q : List α, taken q (bs ++ bs') = taken q bs ++ taken (left q bs) bs' := by
  induction bs with
  | nil => exact fun _ => rfl
  | cons b bs ih =>
    intro q
    rw [List.cons_append, taken, taken, left, ih, List.append_assoc]

/-- **Nothing gets lost or out of order.** -/
theorem taken_append_left (bs : List (List α)) :
    ∀ q : List α, taken q bs ++ left q bs = q ++ bs.flatten := by
  induction bs with
  | nil => exact fun q => by simp
  | cons b bs ih =>
    intro q
    rw [taken, left, List.append_assoc, ih, ← List.append_assoc, List.take_append_drop,
      List.flatten_cons, List.append_assoc]

/-- One more look takes one element, if there is one. -/
theorem taken_concat (q : List α) (bs : List (List α)) (b : List α) :
    taken q (bs ++ [b]) = taken q bs ++ (left q bs ++ b).take 1 := by
  rw [taken_append, taken, taken_nil, List.append_nil]

theorem length_taken_concat (q : List α) (bs : List (List α)) (b : List α) :
    (taken q (bs ++ [b])).length =
      if left q bs ++ b = [] then (taken q bs).length else (taken q bs).length + 1 := by
  rw [taken_concat, List.length_append, List.length_take]
  split_ifs with h
  · rw [h]
    rfl
  · have := List.length_pos_iff.mpr h
    omega

/-- Where no two elements come between the same two looks, none has to wait. -/
theorem left_of_slow {bs : List (List α)} (h : ∀ b ∈ bs, b.length ≤ 1) : left [] bs = [] := by
  induction bs with
  | nil => rfl
  | cons b bs ih =>
    rw [List.forall_mem_cons] at h
    rw [left, List.nil_append, List.drop_eq_nil_of_le h.1]
    exact ih h.2

theorem taken_of_slow {bs : List (List α)} (h : ∀ b ∈ bs, b.length ≤ 1) :
    taken [] bs = bs.flatten := by
  have hall := taken_append_left bs []
  rwa [left_of_slow h, List.append_nil, List.nil_append] at hall

end Feed
