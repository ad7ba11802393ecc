/-
Polling loops.

`while (there is time left) if (body()) return true; return false;` — a loop
that looks for something again and again until it is there or it is too late.
What a turn of the loop meets with comes from outside: the turns are a list, and
when it ends before the loop does, the loop has not returned.

* `loop` — the loop;
* `loop_rel` — what every turn does, the loop does;
* `passed`, `ending` — the turns that it passes, and the one that it ends with,
  where the body decides by the turn alone;
* `loop_eq`, `loop_eq_of_still` — the loop in terms of these;
* `ending_inTime_iff` — if it ends in time;
* `endless`, `Ends` — the loop that only its body ends, over a schedule that
  goes on for ever; `endless_of_ends` — it ends with the first turn that does.
-/
import Mathlib

namespace Polling

variable {σ ι : Type*}

/-- The loop over the turns `ps`: its result, none if it has not returned, and
the state. -/
def loop (inTime : ι → Bool) (body : σ → ι → Bool × σ) : σ → List ι → Option Bool × σ
  | s, [] => (none, s)
  | s, p :: ps =>
    if inTime p then
      if (body s p).1 then (some true, (body s p).2) else loop inTime body (body s p).2 ps
    else (some false, s)

variable {inTime : ι → Bool} {body : σ → ι → Bool × σ}

/-- What every turn does, the loop does. -/
theorem loop_rel {R : σ → σ → Prop} (hrefl : ∀ s, R s s)
    (htrans : ∀ {s t u}, R s t → R t u → R s u) (hbody : ∀ s p, R s (body s p).2) (ps : List ι) :
    ∀ s, R s (loop inTime body s ps).2 := by
  induction ps with
  | nil => exact hrefl
  | cons p ps ih =>
    intro s
    rw [loop]
    split_ifs
    · exact hbody s p
    · exact htrans (hbody s p) (ih _)
    · exact hrefl s

/-- The state after turns none of which ends the loop. -/
def pass (body : σ → ι → Bool × σ) (s : σ) (ps : List ι) : σ := ps.foldl (fun s p => (body s p).2) s

/-! ### A loop that only its body ends -/

/-- A loop that has not returned goes on with the turns that come after. -/
theorem loop_append_of_none {s : σ} {ps : List ι} (h : (loop inTime body s ps).1 = none)
    (qs : List ι) :
    loop inTime body s (ps ++ qs) = loop inTime body (loop inTime body s ps).2 qs := by
  induction ps generalizing s with
  | nil => rfl
  | cons p ps ih =>
    rw [loop] at h
    rw [List.cons_append, loop, loop]
    split_ifs at h ⊢
    exact ih h

/-- `while (1) if (body()) break;`. -/
def endless (body : σ → ι → Bool × σ) : σ → List ι → Option Bool × σ := loop (fun _ => true) body

/-- The first `n` turns of a schedule that goes on for ever. -/
def firstTurns (A : ℕ → ι) (n : ℕ) : List ι := (List.range n).map A

theorem firstTurns_succ (A : ℕ → ι) (n : ℕ) : firstTurns A (n + 1) = firstTurns A n ++ [A n] := by
  rw [firstTurns, List.range_succ, List.map_append, List.map_singleton, firstTurns]

/-- The loop, if it comes to turn `n`, ends with it. -/
def Ends (body : σ → ι → Bool × σ) (s : σ) (A : ℕ → ι) (n : ℕ) : Prop :=
  (body (pass body s (firstTurns A n)) (A n)).1 = true

instance (s : σ) (A : ℕ → ι) (n : ℕ) : Decidable (Ends body s A n) :=
  inferInstanceAs (Decidable (_ = true))

section Endless

variable {A : ℕ → ι} {s : σ}

theorem pass_firstTurns_succ (n : ℕ) :
    pass body s (firstTurns A (n + 1)) = (body (pass body s (firstTurns A n)) (A n)).2 := by
  rw [firstTurns_succ, pass, List.foldl_append]
  rfl

/-- One turn more, where the loop has not returned. -/
theorem endless_succ {n : ℕ}
    (h : endless body s (firstTurns A n) = (none, pass body s (firstTurns A n))) :
    endless body s (firstTurns A (n + 1)) =
      (if Ends body s A n then some true else none, pass body s (firstTurns A (n + 1))) := by
  rw [endless] at h
  rw [pass_firstTurns_succ, firstTurns_succ, endless, loop_append_of_none (by rw [h]), h, loop,
    if_pos rfl]
  by_cases hend : Ends body s A n
  · rw [if_pos hend, if_pos (show (body (pass body s (firstTurns A n)) (A n)).1 = true from hend)]
  · rw [if_neg hend, if_neg (show ¬ (body (pass body s (firstTurns A n)) (A n)).1 = true from hend)]
    rfl

/-- The loop goes on as long as no turn ends it. -/
theorem endless_of_not_ends {n : ℕ} (h : ∀ m < n, ¬ Ends body s A m) :
    endless body s (firstTurns A n) = (none, pass body s (firstTurns A n)) := by
  induction n with
  | zero => rfl
  | succ n ih =>
    rw [endless_succ (ih fun m hm => h m (by omega)), if_neg (h n (by omega))]

/-- **The loop ends with the first turn that ends it.** -/
theorem endless_of_ends {n : ℕ} (h : Ends body s A n) (hbefore : ∀ m < n, ¬ Ends body s A m) :
    endless body s (firstTurns A (n + 1)) = (some true, pass body s (firstTurns A (n + 1))) := by
  rw [endless_succ (endless_of_not_ends hbefore), if_pos h]

/-- If a turn ends the loop, there is a first one that does. -/
theorem exists_first_ends (h : ∃ n, Ends body s A n) :
    ∃ n, Ends body s A n ∧ ∀ m < n, ¬ Ends body s A m :=
  ⟨Nat.find h, Nat.find_spec h, fun _ hm => Nat.find_min h hm⟩

end Endless

/-- A turn ends the loop, for a body that decides by the turn alone wherever
`inv` holds. -/
structure Decides (body : σ → ι → Bool × σ) (inv : σ → Prop) (done : ι → Bool) : Prop where
  result : ∀ s p, inv s → (body s p).1 = done p
  keep : ∀ s p, inv s → done p = false → inv (body s p).2

section Decides

variable {inv : σ → Prop} {done : ι → Bool}

theorem Decides.pass (h : Decides body inv done) {ps : List ι} (hps : ∀ p ∈ ps, done p = false) :
    ∀ {s : σ}, inv s → inv (pass body s ps) := by
  induction ps with
  | nil => exact id
  | cons p ps ih =>
    intro s hs
    rw [List.forall_mem_cons] at hps
    exact ih hps.2 (h.keep s p hs hps.1)

/-- The turns that the loop passes: those before the first one that comes too
late or ends it. -/
def passed (inTime done : ι → Bool) (ps : List ι) : List ι :=
  ps.takeWhile fun p => inTime p && !done p

/-- The turn with which the loop ends. -/
def ending (inTime done : ι → Bool) (ps : List ι) : Option ι :=
  ps.find? fun p => !inTime p || done p

theorem passed_cons (p : ι) (ps : List ι) :
    passed inTime done (p :: ps) =
      if inTime p = true ∧ done p = false then p :: passed inTime done ps else [] := by
  rw [passed, List.takeWhile_cons]
  cases inTime p <;> cases done p <;> rfl

theorem ending_cons (p : ι) (ps : List ι) :
    ending inTime done (p :: ps) =
      if inTime p = true ∧ done p = false then ending inTime done ps else some p := by
  rw [ending, List.find?_cons]
  cases inTime p <;> cases done p <;> rfl

theorem done_of_mem_passed {p : ι} {ps : List ι} (h : p ∈ passed inTime done ps) :
    done p = false := by
  have := List.mem_takeWhile_imp h
  simpa using (Bool.and_eq_true_iff.mp this).2

/-- The turns passed and the one the loop ends with are where the turns are
split by it. -/
theorem split_iff {pre ps : List ι} {q : ι} :
    (passed inTime done ps = pre ∧ ending inTime done ps = some q) ↔
      (∃ rest, ps = pre ++ q :: rest) ∧ (∀ p ∈ pre, inTime p = true ∧ done p = false) ∧
        ¬ (inTime q = true ∧ done q = false) := by
  induction ps generalizing pre with
  | nil => simp [ending]
  | cons p ps ih =>
    rw [passed_cons, ending_cons]
    by_cases hp : inTime p = true ∧ done p = false
    · rw [if_pos hp, if_pos hp]
      cases pre with
      | nil =>
        simp only [List.cons_ne_nil, false_and, List.nil_append, List.cons.injEq, false_iff]
        rintro ⟨⟨rest, rfl, -⟩, -, hq⟩
        exact hq hp
      | cons p' pre =>
        simp only [List.cons.injEq, List.cons_append, List.forall_mem_cons, and_assoc]
        have := @ih pre
        constructor
        · rintro ⟨rfl, hpre, hq⟩
          obtain ⟨⟨rest, hrest⟩, hall, hend⟩ := this.mp ⟨hpre, hq⟩
          exact ⟨⟨rest, rfl, hrest⟩, hp.1, hp.2, hall, hend⟩
        · rintro ⟨⟨rest, rfl, hrest⟩, -, -, hall, hend⟩
          exact ⟨rfl, this.mpr ⟨⟨rest, hrest⟩, hall, hend⟩⟩
    · rw [if_neg hp, if_neg hp]
      cases pre with
      | nil =>
        simp only [true_and, Option.some_inj, List.nil_append, List.cons.injEq]
        constructor
        · rintro rfl
          exact ⟨⟨ps, rfl, rfl⟩, by simp, hp⟩
        · rintro ⟨⟨rest, rfl, -⟩, -, -⟩
          rfl
      | cons p' pre =>
        refine iff_of_false (fun h => List.cons_ne_nil _ _ h.1.symm) ?_
        rintro ⟨⟨rest, hrest⟩, hall, -⟩
        rw [List.cons_append, List.cons.injEq] at hrest
        obtain ⟨rfl, -⟩ := hrest
        exact hp (hall p List.mem_cons_self)

/-- **The course of the loop**: the turns it passes, and the one it ends with. -/
theorem loop_eq (h : Decides body inv done) (ps : List ι) :
    ∀ {s : σ}, inv s → loop inTime body s ps =
      match ending inTime done ps with
      | none => (none, pass body s (passed inTime done ps))
      | some p =>
        if inTime p then (some true, (body (pass body s (passed inTime done ps)) p).2)
        else (some false, pass body s (passed inTime done ps)) := by
  induction ps with
  | nil => exact fun _ => rfl
  | cons p ps ih =>
    intro s hs
    rw [loop, passed_cons, ending_cons, h.result s p hs]
    rcases hp : inTime p with _ | _
    · simp [hp, pass]
    · rcases hd : done p with _ | _
      · simpa [pass] using ih (h.keep s p hs hd)
      · simp [hp, pass]

/-- The loop ends in time if there is a turn to end it in time. -/
theorem ending_inTime_iff (ps : List ι) :
    (∃ p ∈ ending inTime done ps, inTime p = true) ↔ ∃ p ∈ ps.takeWhile inTime, done p = true := by
  induction ps with
  | nil => simp [ending]
  | cons p ps ih =>
    rw [ending_cons, List.takeWhile_cons]
    rcases hp : inTime p with _ | _
    · simp [hp]
    · rcases hd : done p with _ | _
      · simpa [hd] using ih
      · simp [hp, hd]

/-- It ends if there is a turn to end it, or one that comes too late. -/
theorem ending_isSome {ps : List ι} (h : ∃ p ∈ ps, inTime p = false) :
    ∃ p, ending inTime done ps = some p := by
  obtain ⟨p, hp, hlate⟩ := h
  refine Option.isSome_iff_exists.mp (List.find?_isSome.mpr ⟨p, hp, ?_⟩)
  rw [hlate]
  rfl

/-- A loop whose last turn leaves the state as it is: if it is ended in time, if
it comes to a turn that is too late, and the state after the turns passed. -/
theorem loop_eq_of_still (h : Decides body inv done)
    (hstill : ∀ s p, inv s → done p = true → (body s p).2 = s) (ps : List ι) {s : σ} (hs : inv s) :
    loop inTime body s ps =
      (if ∃ p ∈ ps.takeWhile inTime, done p = true then some true
        else if ∃ p ∈ ps, inTime p = false then some false else none,
        pass body s (passed inTime done ps)) := by
  have hpass := h.pass (fun p (hp : p ∈ passed inTime done ps) => done_of_mem_passed hp) hs
  rw [loop_eq h ps hs]
  simp only [← ending_inTime_iff]
  rcases he : ending inTime done ps with _ | p
  · have hlate : ¬ ∃ p ∈ ps, inTime p = false := by
      intro h
      obtain ⟨p, hp⟩ : ∃ p, ending inTime done ps = some p := ending_isSome h
      exact Option.some_ne_none p (hp.symm.trans he)
    simp [hlate]
  · rcases hp : inTime p with _ | _
    · have hlate : ∃ p ∈ ps, inTime p = false := ⟨p, List.mem_of_find?_eq_some he, hp⟩
      simp [hp, hlate]
    · have hdone : done p = true := by
        have := List.find?_some he
        simpa [hp] using this
      simp [hp, hstill _ p hpass hdone]

end Decides

end Polling
