/-
A medium shared by nodes that exchange messages.

Whatever is sent stays in the air, where any node may handle it: once, again
and again, or never, and in any order.  So every topology, changing or not,
every loss and every repetition is among the runs.  With each message goes what
led to it: which node handled which message before, back to a message that was
sent unprompted.

* `Net`, `Event`, `step` — the nodes and the air, and what can happen;
* `Holds.step`, `run_holds` — invariants of nodes and messages, from what the
  calls of a node and its reactions to a message do to them.
-/
import RadioHead.Lib.Run

open Run

namespace Medium

variable {α σ φ ε δ : Type*}

/-- A message in the air, and the messages whose handling led to it, the last
one first, each with the node that handled it. -/
structure Flight (α φ : Type*) where
  frame : φ
  causes : List (α × φ)
  deriving DecidableEq

structure Net (α σ φ : Type*) where
  node : α → σ
  air : List (Flight α φ)

/-- A node is called, or handles one of the messages in the air. -/
inductive Event (α ε δ : Type*) where
  | call (v : α) (e : ε)
  | handle (v : α) (i : ℕ) (d : δ)

/-- The network when no message has been sent yet. -/
def start (node : α → σ) : Net α σ φ := ⟨node, []⟩

variable [DecidableEq α]

/-- Node `v` gets to the state `r.1` and sends the messages `r.2`. -/
def Net.emit (net : Net α σ φ) (v : α) (r : σ × List φ) (causes : List (α × φ)) : Net α σ φ where
  node := Function.update net.node v r.1
  air := net.air ++ r.2.map fun f => ⟨f, causes⟩

variable (nodes : Finset α) (call : ε → σ → σ × List φ) (react : δ → φ → σ → σ × List φ)

def step (net : Net α σ φ) : Event α ε δ → Option (Net α σ φ)
  | .call v e => if v ∈ nodes then some (net.emit v (call e (net.node v)) []) else none
  | .handle v i d =>
    if v ∈ nodes then
      net.air[i]?.map fun p =>
        net.emit v (react d p.frame (net.node v)) ((v, p.frame) :: p.causes)
    else none

/-- `I` holds of all nodes, and `J` of all messages. -/
structure Holds (I : α → σ → Prop) (J : Flight α φ → Prop) (net : Net α σ φ) : Prop where
  node : ∀ v ∈ nodes, I v (net.node v)
  air : ∀ p ∈ net.air, J p

variable {nodes call react} {I : α → σ → Prop} {J : Flight α φ → Prop}

theorem Holds.emit {net : Net α σ φ} (h : Holds nodes I J net) {v : α} {r : σ × List φ}
    {causes : List (α × φ)} (hv : v ∈ nodes → I v r.1) (hr : ∀ f ∈ r.2, J ⟨f, causes⟩) :
    Holds nodes I J (net.emit v r causes) where
  node w hw := by
    show I w (Function.update net.node v r.1 w)
    by_cases hwv : w = v
    · subst hwv
      rw [Function.update_self]
      exact hv hw
    · rw [Function.update_of_ne hwv]
      exact h.node w hw
  air p hp := by
    rcases List.mem_append.mp hp with hp | hp
    · exact h.air p hp
    · obtain ⟨f, hf, rfl⟩ := List.mem_map.mp hp
      exact hr f hf

/-- A step keeps what its call, or its reaction, keeps of the node that makes it. -/
theorem Holds.step {net net' : Net α σ φ} {e : Event α ε δ} (h : Holds nodes I J net)
    (hcall : ∀ v c, e = .call v c → v ∈ nodes →
      I v (call c (net.node v)).1 ∧ ∀ f ∈ (call c (net.node v)).2, J ⟨f, []⟩)
    (hreact : ∀ v i d p, e = .handle v i d → v ∈ nodes → net.air[i]? = some p →
      I v (react d p.frame (net.node v)).1 ∧
        ∀ f ∈ (react d p.frame (net.node v)).2, J ⟨f, (v, p.frame) :: p.causes⟩)
    (hstep : step nodes call react net e = some net') : Holds nodes I J net' := by
  cases e with
  | call v e =>
    obtain ⟨hv, hstep⟩ := Option.ite_none_right_eq_some.mp hstep
    obtain rfl := Option.some_inj.mp hstep
    obtain ⟨hI, hJ⟩ := hcall v e rfl hv
    exact h.emit (fun _ => hI) hJ
  | handle v i d =>
    obtain ⟨hv, hstep⟩ := Option.ite_none_right_eq_some.mp hstep
    obtain ⟨p, hp, rfl⟩ := Option.map_eq_some_iff.mp hstep
    obtain ⟨hI, hJ⟩ := hreact v i d p rfl hv hp
    exact h.emit (fun _ => hI) hJ

/-- What the calls among the events and the reactions of a single node keep
holds throughout. -/
theorem run_holds_of_mem {es : List (Event α ε δ)}
    (hcall : ∀ v ∈ nodes, ∀ e s, .call v e ∈ es → I v s →
      I v (call e s).1 ∧ ∀ f ∈ (call e s).2, J ⟨f, []⟩)
    (hreact : ∀ v ∈ nodes, ∀ d p s, I v s → J p →
      I v (react d p.frame s).1 ∧ ∀ f ∈ (react d p.frame s).2, J ⟨f, (v, p.frame) :: p.causes⟩)
    {node : α → σ} (hnode : ∀ v ∈ nodes, I v (node v)) {net : Net α σ φ}
    (hrun : run (step nodes call react) (start node) es = some net) :
    Holds nodes I J net := by
  have hstart : Holds nodes I J (start node) := ⟨hnode, by simp [start]⟩
  refine run_induct ?_ hstart (allSteps_of_mem (fun _ h => h) (start node)) hrun
  intro net e net' h hmem hstep
  refine h.step ?_ ?_ hstep
  · rintro v c rfl hv
    exact hcall v hv c (net.node v) hmem (h.node v hv)
  · rintro v i d p rfl hv hp
    exact hreact v hv d p (net.node v) (h.node v hv) (h.air p (List.mem_of_getElem? hp))

/-- What all calls and reactions of a single node keep holds throughout. -/
theorem run_holds
    (hcall : ∀ v ∈ nodes, ∀ e s, I v s →
      I v (call e s).1 ∧ ∀ f ∈ (call e s).2, J ⟨f, []⟩)
    (hreact : ∀ v ∈ nodes, ∀ d p s, I v s → J p →
      I v (react d p.frame s).1 ∧ ∀ f ∈ (react d p.frame s).2, J ⟨f, (v, p.frame) :: p.causes⟩)
    {node : α → σ} (hnode : ∀ v ∈ nodes, I v (node v)) {es : List (Event α ε δ)}
    {net : Net α σ φ} (hrun : run (step nodes call react) (start node) es = some net) :
    Holds nodes I J net :=
  run_holds_of_mem (fun v hv e s _ => hcall v hv e s) hreact hnode hrun

end Medium
