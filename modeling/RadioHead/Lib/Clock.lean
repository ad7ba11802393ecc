/-
A clock of 32 bits that wraps around.

A program that waits for a time span reads the clock once at the start, and
then again and again, and looks at what is left: the span less the difference
of the two readings, in 32 bits, taken as a signed number.

* `reading` — the clock, as a function of the time that has really passed;
* `timeLeft_pos_iff` — when there is time left, by the clock;
* `le_of_timeLeft_le` — when there is none, the span has really passed, however
  often the clock has wrapped around;
* `timeLeft_pos_iff_of_lt`, `timeLeft_add` — what is left is exact, where the clock
  is read again before half a turn more has passed;
* `exists_elapsed_gt` — a clock that is read often enough shows at last that a
  span has passed.
-/
import Mathlib

namespace Clock

/-- What the clock reads after `t` ticks, counted from any moment. -/
def reading (t : ℕ) : UInt32 := UInt32.ofNat t

/-- The ticks between two readings, as far as the clock can tell. -/
def elapsed (start now : UInt32) : UInt32 := now - start

/-- What is left of a time span, as a signed number. -/
def timeLeft (span start now : UInt32) : Int32 := (span - elapsed start now).toInt32

/-- The clock tells how much time has passed but for whole turns. -/
theorem elapsed_reading {s t : ℕ} (h : s ≤ t) :
    (elapsed (reading s) (reading t)).toNat = (t - s) % 2 ^ 32 := by
  obtain ⟨d, rfl⟩ := Nat.exists_eq_add_of_le h
  rw [elapsed, UInt32.toNat_sub]
  show (2 ^ 32 - s % 2 ^ 32 + (s + d) % 2 ^ 32) % 2 ^ 32 = _
  omega

/-- It never tells more than has passed. -/
theorem elapsed_reading_le {s t : ℕ} (h : s ≤ t) :
    (elapsed (reading s) (reading t)).toNat ≤ t - s :=
  (elapsed_reading h).trans_le (Nat.mod_le _ _)

/-- A number taken as signed is positive below half of the range. -/
theorem toInt32_pos_iff (x : UInt32) : 0 < x.toInt32 ↔ 0 < x.toNat ∧ x.toNat < 2 ^ 31 := by
  have hx := x.toNat_lt
  have hint : x.toInt32.toInt = if 2 * x.toNat < 2 ^ 32 then (x.toNat : ℤ) else x.toNat - 2 ^ 32 :=
    BitVec.toInt_eq_toNat_cond x.toBitVec
  rw [Int32.lt_iff_toInt_lt, hint]
  show (0 : ℤ) < _ ↔ _
  split <;> omega

/-- There is time left until the span has passed; and again once half a turn
more has passed unobserved. -/
theorem timeLeft_pos_iff {span start now : UInt32} (hspan : span.toNat < 2 ^ 31) :
    0 < timeLeft span start now ↔
      (elapsed start now).toNat < span.toNat ∨
        span.toNat + 2 ^ 31 < (elapsed start now).toNat := by
  have hlt := (elapsed start now).toNat_lt
  rw [timeLeft, toInt32_pos_iff, UInt32.toNat_sub]
  omega

/-- **When there is no time left the span has passed.** -/
theorem le_of_timeLeft_le {span : UInt32} {s t : ℕ} (hspan : span.toNat < 2 ^ 31) (h : s ≤ t)
    (hleft : ¬ 0 < timeLeft span (reading s) (reading t)) : s + span.toNat ≤ t := by
  rw [timeLeft_pos_iff hspan, not_or, Nat.not_lt] at hleft
  have hle := hleft.1.trans (elapsed_reading_le h)
  omega

/-- Read again before half a turn more has passed, the clock shows if there is
time left. -/
theorem timeLeft_pos_iff_of_lt {span : UInt32} {s t : ℕ} (hspan : span.toNat < 2 ^ 31)
    (h : s ≤ t) (hlt : t < s + span.toNat + 2 ^ 31) :
    0 < timeLeft span (reading s) (reading t) ↔ t < s + span.toNat := by
  rw [timeLeft_pos_iff hspan, elapsed_reading h, Nat.mod_eq_of_lt (by omega)]
  omega

/-- And how much. -/
theorem timeLeft_add {span : UInt32} {s t : ℕ} (h : s ≤ t) (hlt : t < s + span.toNat) :
    t + (timeLeft span (reading s) (reading t)).toUInt32.toNat = s + span.toNat := by
  have hspan := span.toNat_lt
  have helapsed : (elapsed (reading s) (reading t)).toNat = t - s := by
    rw [elapsed_reading h, Nat.mod_eq_of_lt (by omega)]
  rw [timeLeft, UInt32.toUInt32_toInt32,
    UInt32.toNat_sub_of_le _ _ (UInt32.le_iff_toNat_le.mpr (by omega)), helapsed]
  omega

/-- A clock that is read often enough shows at last that a span has passed. -/
theorem exists_elapsed_gt {span : ℕ} {time : ℕ → ℕ} (hmono : Monotone time)
    (hgap : ∀ n, time (n + 1) + span < time n + 2 ^ 32) (hpast : ∃ n, time 0 + span < time n) :
    ∃ n, span < (elapsed (reading (time 0)) (reading (time (n + 1)))).toNat := by
  -- the first reading after the span is not a whole turn late
  have hspec := Nat.find_spec hpast
  have hfirst := fun m (hm : m < Nat.find hpast) => Nat.find_min hpast hm
  generalize Nat.find hpast = n at hspec hfirst
  cases n with
  | zero => omega
  | succ n =>
    have hbefore := hfirst n (Nat.lt_succ_self n)
    have hnext := hgap n
    refine ⟨n, ?_⟩
    rw [elapsed_reading (hmono (Nat.zero_le _)), Nat.mod_eq_of_lt (by omega)]
    omega

end Clock
