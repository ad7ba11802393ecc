/-
Runs of a step function.

A machine is a function `step : σ → ε → Option σ`: the state after an event,
or `none` when the event cannot happen in that state.  This file packages the
one induction every safety proof over such a machine needs:

* `run` — the state after a list of events;
* `AllSteps` — a predicate of state and event that every step of a run meets;
* `allSteps_of_mem` — a condition on the events alone;
* `run_induct` — a property that holds initially and is preserved by the
  steps meeting such a predicate holds at the end of every run made of them;
* `run_pays`, `run_descends` — what the steps take from a bound, and how long a
  run is that lowers one;
* `run_simulated` — a run of one machine matched by one of another;
* `allSteps_iff`, `allSteps_iff_prefixes`, `allSteps_iff_kept` — two such
  predicates compared, and such a predicate with a property of the states a run
  comes through.
-/
import Mathlib

namespace Run

variable {σ ε : Type*} {step : σ → ε → Option σ}

/-- Feed a list of events to the machine, one after another. -/
def run (step : σ → ε → Option σ) : σ → List ε → Option σ
  | s, [] => some s
  | s, e :: es => (step s e).bind fun s' => run step s' es

@[simp] theorem run_nil (s : σ) : run step s [] = some s := rfl

theorem run_cons {s : σ} {e : ε} {es : List ε} {t : σ} :
    run step s (e :: es) = some t ↔ ∃ s', step s e = some s' ∧ run step s' es = some t := by
  rw [run, Option.bind_eq_some_iff]

theorem run_append {s : σ} {es fs : List ε} {t : σ} :
    run step s (es ++ fs) = some t ↔
      ∃ s', run step s es = some s' ∧ run step s' fs = some t := by
  induction es generalizing s with
  | nil => simp
  | cons e es ih =>
    rw [List.cons_append, run_cons]
    constructor
    · rintro ⟨s₁, h₁, h₂⟩
      obtain ⟨s₂, h₃, h₄⟩ := ih.mp h₂
      exact ⟨s₂, run_cons.mpr ⟨s₁, h₁, h₃⟩, h₄⟩
    · rintro ⟨s₂, h, h₄⟩
      obtain ⟨s₁, h₁, h₃⟩ := run_cons.mp h
      exact ⟨s₁, h₁, ih.mpr ⟨s₂, h₃, h₄⟩⟩

/-- Every step of the run meets `ok`, in the state the step starts from. -/
def AllSteps (step : σ → ε → Option σ) (ok : σ → ε → Prop) : σ → List ε → Prop
  | _, [] => True
  | s, e :: es => ok s e ∧ ∀ s' ∈ step s e, AllSteps step ok s' es

instance AllSteps.decidable {ok : σ → ε → Prop} [∀ s e, Decidable (ok s e)] :
    ∀ (s : σ) (es : List ε), Decidable (AllSteps step ok s es)
  | _, [] => .isTrue trivial
  | s, e :: es =>
    have : DecidablePred fun s' => AllSteps step ok s' es := fun s' => AllSteps.decidable s' es
    inferInstanceAs (Decidable (ok s e ∧ ∀ s' ∈ step s e, AllSteps step ok s' es))

/-- Invariants of runs: what holds at the start and is preserved by every
step meeting `ok` holds at the end of every run made of such steps. -/
theorem run_induct {ok : σ → ε → Prop} {inv : σ → Prop}
    (hstep : ∀ s e s', inv s → ok s e → step s e = some s' → inv s') :
    ∀ {es : List ε} {s t : σ}, inv s → AllSteps step ok s es →
      run step s es = some t → inv t := by
  intro es
  induction es with
  | nil =>
    intro s t hs _ h
    rw [run_nil, Option.some_inj] at h
    exact h ▸ hs
  | cons e es ih =>
    intro s t hs hok h
    obtain ⟨s', h₁, h₂⟩ := run_cons.mp h
    exact ih (hstep s e s' hs hok.1 h₁) (hok.2 s' h₁) h₂

/-- `run_induct` with no condition on the steps. -/
theorem run_invariant {inv : σ → Prop}
    (hstep : ∀ s e s', inv s → step s e = some s' → inv s')
    {es : List ε} {s t : σ} (hs : inv s) (h : run step s es = some t) : inv t := by
  have hall : ∀ (es : List ε) (s : σ), AllSteps step (fun _ _ => True) s es := by
    intro es
    induction es with
    | nil => exact fun _ => trivial
    | cons e es ih => exact fun s => ⟨trivial, fun s' _ => ih s'⟩
  exact run_induct (fun s e s' hi _ => hstep s e s' hi) hs (hall es s) h

/-- The costs of the steps of a run together. -/
def total (step : σ → ε → Option σ) (cost : σ → ε → ℕ) : σ → List ε → ℕ
  | _, [] => 0
  | s, e :: es => cost s e + (step s e).elim 0 fun s' => total step cost s' es

/-- What every step takes from a bound at least is bounded in the whole run. -/
theorem run_pays {cost : σ → ε → ℕ} {ok : σ → ε → Prop} {inv : ℕ → σ → Prop}
    (hstep : ∀ m s e s', inv m s → ok s e → step s e = some s' →
      ∃ n, cost s e + n ≤ m ∧ inv n s') :
    ∀ {es : List ε} {m : ℕ} {s t : σ}, inv m s → AllSteps step ok s es →
      run step s es = some t → ∃ n, total step cost s es + n ≤ m ∧ inv n t := by
  intro es
  induction es with
  | nil =>
    intro m s t hs _ h
    rw [run_nil, Option.some_inj] at h
    exact ⟨m, (Nat.zero_add m).le, h ▸ hs⟩
  | cons e es ih =>
    intro m s t hs hok h
    obtain ⟨s', h₁, h₂⟩ := run_cons.mp h
    obtain ⟨n, hle, hs'⟩ := hstep m s e s' hs hok.1 h₁
    obtain ⟨n', hle', ht⟩ := ih hs' (hok.2 s' h₁) h₂
    refine ⟨n', ?_, ht⟩
    rw [total, h₁]
    show cost s e + total step cost s' es + n' ≤ m
    omega

theorem total_one {es : List ε} {s t : σ} (h : run step s es = some t) :
    total step (fun _ _ => 1) s es = es.length := by
  induction es generalizing s with
  | nil => rfl
  | cons e es ih =>
    obtain ⟨s', h₁, h₂⟩ := run_cons.mp h
    rw [total, h₁]
    show 1 + total step (fun _ _ => 1) s' es = _
    rw [ih h₂, List.length_cons, Nat.add_comm]

/-- A bound that every step lowers bounds the length of the runs. -/
theorem run_descends {ok : σ → ε → Prop} {inv : ℕ → σ → Prop}
    (hstep : ∀ m s e s', inv m s → ok s e → step s e = some s' → ∃ n < m, inv n s')
    {es : List ε} {m : ℕ} {s t : σ} (hs : inv m s) (hok : AllSteps step ok s es)
    (h : run step s es = some t) : ∃ n, es.length + n ≤ m ∧ inv n t := by
  rw [← total_one h]
  refine run_pays ?_ hs hok h
  intro m s e s' hs hok h
  obtain ⟨n, hlt, hn⟩ := hstep m s e s' hs hok h
  exact ⟨n, by omega, hn⟩

/-- Forward simulation: where the steps of a machine are matched by runs of
another one, so are its runs. -/
theorem run_simulated {τ δ : Type*} {step' : τ → δ → Option τ} {R : σ → τ → Prop}
    (hstep : ∀ s e s' t, R s t → step s e = some s' →
      ∃ ds t', run step' t ds = some t' ∧ R s' t') :
    ∀ {es : List ε} {s s' : σ} {t : τ}, R s t → run step s es = some s' →
      ∃ ds t', run step' t ds = some t' ∧ R s' t' := by
  intro es
  induction es with
  | nil =>
    intro s s' t hR h
    rw [run_nil, Option.some_inj] at h
    exact ⟨[], t, rfl, h ▸ hR⟩
  | cons e es ih =>
    intro s s' t hR h
    obtain ⟨s₁, h₁, h₂⟩ := run_cons.mp h
    obtain ⟨ds, t₁, hrun, hR₁⟩ := hstep s e s₁ t hR h₁
    obtain ⟨ds', t', hrun', hR'⟩ := ih hR₁ h₂
    exact ⟨ds ++ ds', t', run_append.mpr ⟨t₁, hrun, hrun'⟩, hR'⟩

/-- A condition on the events alone. -/
theorem allSteps_of_mem {ok : ε → Prop} {es : List ε} (h : ∀ e ∈ es, ok e) (s : σ) :
    AllSteps step (fun _ e => ok e) s es := by
  induction es generalizing s with
  | nil => exact trivial
  | cons e es ih =>
    refine ⟨h e List.mem_cons_self, ?_⟩
    intro s' _
    exact ih (fun e' he' => h e' (List.mem_cons_of_mem e he')) s'

/-- Two conditions on steps that agree wherever an invariant holds agree on
whole runs, if the steps meeting them preserve it. -/
theorem allSteps_iff {ok ok' : σ → ε → Prop} {inv : σ → Prop}
    (heq : ∀ s e, inv s → (ok s e ↔ ok' s e))
    (hstep : ∀ s e s', inv s → ok s e → step s e = some s' → inv s') :
    ∀ {es : List ε} {s : σ}, inv s → (AllSteps step ok s es ↔ AllSteps step ok' s es) := by
  intro es
  induction es with
  | nil => exact fun _ => Iff.rfl
  | cons e es ih =>
    intro s hs
    constructor
    · rintro ⟨h, hrest⟩
      exact ⟨(heq s e hs).mp h, fun s' hs' => (ih (hstep s e s' hs h hs')).mp (hrest s' hs')⟩
    · rintro ⟨h, hrest⟩
      have h' := (heq s e hs).mpr h
      exact ⟨h', fun s' hs' => (ih (hstep s e s' hs h' hs')).mpr (hrest s' hs')⟩

/-- **A condition on steps that decides, where `inv` holds, if the step keeps
`P`, is met by all steps of a run exactly if `P` holds in every state the run
comes through.** -/
theorem allSteps_iff_prefixes {ok : σ → ε → Prop} {inv P : σ → Prop}
    (hinv : ∀ s e s', inv s → step s e = some s' → inv s')
    (hnone : ∀ s e, step s e = none → ok s e)
    (hok : ∀ s e s', inv s → P s → step s e = some s' → (ok s e ↔ P s')) :
    ∀ {es : List ε} {s : σ}, inv s → P s →
      (AllSteps step ok s es ↔ ∀ fs t, fs <+: es → run step s fs = some t → P t) := by
  intro es
  induction es with
  | nil =>
    intro s _ hs
    refine iff_of_true trivial ?_
    intro fs t hfs hrun
    rw [List.prefix_nil.mp hfs, run_nil, Option.some_inj] at hrun
    exact hrun ▸ hs
  | cons e es ih =>
    intro s hi hs
    constructor
    · rintro ⟨he, hrest⟩ fs t hfs hrun
      rcases List.prefix_cons_iff.mp hfs with rfl | ⟨gs, rfl, hgs⟩
      · rw [run_nil, Option.some_inj] at hrun
        exact hrun ▸ hs
      · obtain ⟨s', hs', hrun⟩ := run_cons.mp hrun
        have hi' := hinv s e s' hi hs'
        have hP' := (hok s e s' hi hs hs').mp he
        exact (ih hi' hP').mp (hrest s' hs') gs t hgs hrun
    · intro h
      have he : ok s e := by
        rcases hs' : step s e with _ | s'
        · exact hnone s e hs'
        · refine (hok s e s' hi hs hs').mpr (h [e] s' ?_ ?_)
          · exact List.prefix_append [e] es
          · exact run_cons.mpr ⟨s', hs', rfl⟩
      refine ⟨he, ?_⟩
      intro s' hs'
      refine (ih (hinv s e s' hi hs') ((hok s e s' hi hs hs').mp he)).mpr ?_
      intro fs t hfs hrun
      exact h (e :: fs) t (List.cons_prefix_cons.mpr ⟨rfl, hfs⟩) (run_cons.mpr ⟨s', hs', hrun⟩)

/-- `allSteps_iff_prefixes` where no invariant is needed. -/
theorem allSteps_iff_kept {ok : σ → ε → Prop} {P : σ → Prop}
    (hnone : ∀ s e, step s e = none → ok s e)
    (hok : ∀ s e s', P s → step s e = some s' → (ok s e ↔ P s')) {es : List ε} {s : σ}
    (hs : P s) : AllSteps step ok s es ↔ ∀ fs t, fs <+: es → run step s fs = some t → P t := by
  have hinv : ∀ s e s', (fun _ : σ => True) s → step s e = some s' → (fun _ : σ => True) s' :=
    fun _ _ _ _ _ => trivial
  exact allSteps_iff_prefixes hinv hnone (fun s e s' _ => hok s e s') trivial hs

/-- Invariants of the runs of one event. -/
theorem run_replicate_invariant {inv : σ → Prop} {e : ε}
    (hstep : ∀ s s', inv s → step s e = some s' → inv s') {n : ℕ} {s t : σ} (hs : inv s)
    (h : run step s (List.replicate n e) = some t) : inv t := by
  induction n generalizing s with
  | zero =>
    rw [List.replicate_zero, run_nil, Option.some_inj] at h
    exact h ▸ hs
  | succ n ih =>
    obtain ⟨s', hs', h⟩ := run_cons.mp h
    exact ih (hstep s s' hs hs') h

/-- A state in which `e` cannot happen any more is reached through every other
one that is reached by `e` alone. -/
theorem run_replicate_through {s s' t : σ} {e : ε} {m n : ℕ}
    (hs' : run step s (List.replicate m e) = some s')
    (ht : run step s (List.replicate n e) = some t) (hend : step t e = none) :
    ∃ r, run step s' (List.replicate r e) = some t := by
  rcases le_or_gt m n with hle | hlt
  · obtain ⟨r, rfl⟩ := Nat.exists_eq_add_of_le hle
    rw [List.replicate_add, run_append] at ht
    obtain ⟨s'', h, hr⟩ := ht
    rw [hs', Option.some_inj] at h
    exact ⟨r, h ▸ hr⟩
  · obtain ⟨r, rfl⟩ := Nat.exists_eq_add_of_lt hlt
    rw [show n + r + 1 = n + (r + 1) by omega, List.replicate_add, run_append] at hs'
    obtain ⟨s'', h, hr⟩ := hs'
    rw [ht, Option.some_inj] at h
    subst h
    rw [List.replicate_succ, run_cons, hend] at hr
    obtain ⟨_, hnone, -⟩ := hr
    exact absurd hnone (Option.some_ne_none _).symm

end Run
