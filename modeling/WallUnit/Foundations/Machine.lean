import Mathlib.Logic.Basic
import Mathlib.Data.Option.Basic

/-!
Owns labelled partial machines: an initial state, a step function that answers
`none` when a label is not enabled, runs over label lists, and the induction
rules that lift a fact about one step to a fact about every run. A label names
the task that moves and the answers its environment gives, so one label list is
one interleaving.

Does not own any program; every machine of the development instantiates this
one.
-/

namespace WallUnit.Foundations

/-- A deterministic step function over labelled nondeterminism. -/
structure Machine (State Label : Type) where
  init : State
  step : State → Label → Option State

namespace Machine

variable {State Label : Type} (machine : Machine State Label)

def runFrom (state : State) : List Label → Option State
  | [] => some state
  | label :: rest => (machine.step state label).bind fun next => runFrom next rest

def run (labels : List Label) : Option State :=
  machine.runFrom machine.init labels

/-- Every step taken satisfies a condition on the state before it. -/
def Along (condition : State → Label → Prop) : State → List Label → Prop
  | _, [] => True
  | state, label :: rest =>
      condition state label ∧
        match machine.step state label with
        | none => True
        | some next => Along condition next rest

/-- Every state visited, the last one included, has a property. -/
def Always (holds : State → Prop) : State → List Label → Prop
  | state, [] => holds state
  | state, label :: rest =>
      holds state ∧
        match machine.step state label with
        | none => True
        | some next => Always holds next rest

instance decidableAlong (condition : State → Label → Prop)
    [∀ state label, Decidable (condition state label)] :
    ∀ state labels, Decidable (machine.Along condition state labels)
  | _, [] => isTrue trivial
  | state, label :: rest => by
      unfold Along
      cases machine.step state label with
      | none => infer_instance
      | some next =>
          have := decidableAlong condition next rest
          infer_instance

theorem runFrom_cons (state : State) (label : Label) (rest : List Label) :
    machine.runFrom state (label :: rest) =
      (machine.step state label).bind fun next => machine.runFrom next rest := rfl

variable {machine}

theorem runFrom_cons_eq_some {state final : State} {label : Label} {rest : List Label} :
    machine.runFrom state (label :: rest) = some final ↔
      ∃ next, machine.step state label = some next ∧ machine.runFrom next rest = some final := by
  rw [runFrom_cons, Option.bind_eq_some_iff]

theorem along_cons {condition : State → Label → Prop} {state next : State} {label : Label}
    {rest : List Label} (stepped : machine.step state label = some next) :
    machine.Along condition state (label :: rest) ↔
      condition state label ∧ machine.Along condition next rest := by
  simp only [Along, stepped]

theorem Along.append {condition : State → Label → Prop} {state middle : State}
    {left right : List Label} (first : machine.Along condition state left)
    (ran : machine.runFrom state left = some middle)
    (second : machine.Along condition middle right) :
    machine.Along condition state (left ++ right) := by
  induction left generalizing state with
  | nil =>
      obtain rfl : state = middle := Option.some.inj ran
      exact second
  | cons label rest inductionHypothesis =>
      obtain ⟨next, stepped, ran⟩ := runFrom_cons_eq_some.mp ran
      obtain ⟨here, first⟩ := (along_cons stepped).mp first
      exact (along_cons stepped).mpr ⟨here, inductionHypothesis first ran⟩

theorem Along.and {left right : State → Label → Prop} {state : State} {labels : List Label}
    (first : machine.Along left state labels) (second : machine.Along right state labels) :
    machine.Along (fun state label => left state label ∧ right state label) state labels := by
  induction labels generalizing state with
  | nil => trivial
  | cons label rest inductionHypothesis =>
      refine ⟨⟨first.1, second.1⟩, ?_⟩
      have firstRest := first.2
      have secondRest := second.2
      cases stepped : machine.step state label with
      | none => trivial
      | some next =>
          simp only [stepped] at firstRest secondRest
          exact inductionHypothesis firstRest secondRest

theorem runFrom_append {state middle : State} {left : List Label} (right : List Label)
    (ran : machine.runFrom state left = some middle) :
    machine.runFrom state (left ++ right) = machine.runFrom middle right := by
  induction left generalizing state with
  | nil =>
      obtain rfl : state = middle := Option.some.inj ran
      rfl
  | cons label rest inductionHypothesis =>
      obtain ⟨next, stepped, ran⟩ := runFrom_cons_eq_some.mp ran
      rw [List.cons_append, runFrom_cons, stepped, Option.bind_some, inductionHypothesis ran]

/-! ### Induction over runs -/

/-- A history invariant: it may speak about the labels already executed. The
condition is assumed of every step. -/
theorem history_invariant (holds : List Label → State → Prop) {condition : State → Label → Prop}
    (preserved : ∀ past state label next, holds past state → condition state label →
      machine.step state label = some next → holds (past ++ [label]) next)
    {labels : List Label} (past : List Label) {state final : State} (start : holds past state)
    (along : machine.Along condition state labels)
    (ran : machine.runFrom state labels = some final) :
    holds (past ++ labels) final := by
  induction labels generalizing past state with
  | nil =>
      obtain rfl : state = final := Option.some.inj ran
      simpa using start
  | cons label rest inductionHypothesis =>
      obtain ⟨next, stepped, ran⟩ := runFrom_cons_eq_some.mp ran
      obtain ⟨here, along⟩ := (along_cons stepped).mp along
      have rest := inductionHypothesis (past ++ [label])
        (preserved past state label next start here stepped) along ran
      rwa [List.append_assoc] at rest

theorem invariant_along {condition : State → Label → Prop} {holds : State → Prop}
    (start : holds machine.init)
    (preserved : ∀ state label next, holds state → condition state label →
      machine.step state label = some next → holds next)
    {labels : List Label} {final : State} (along : machine.Along condition machine.init labels)
    (ran : machine.run labels = some final) : holds final :=
  history_invariant (fun _ => holds) (fun _ state label next => preserved state label next) []
    start along ran

theorem along_true (state : State) (labels : List Label) :
    machine.Along (fun _ _ => True) state labels := by
  induction labels generalizing state with
  | nil => trivial
  | cons label rest inductionHypothesis =>
      refine ⟨trivial, ?_⟩
      cases machine.step state label with
      | none => trivial
      | some next => exact inductionHypothesis next

/-- A state invariant of every reachable state. -/
theorem invariant {holds : State → Prop} (start : holds machine.init)
    (preserved : ∀ state label next, holds state → machine.step state label = some next →
      holds next)
    {labels : List Label} {final : State} (ran : machine.run labels = some final) :
    holds final :=
  invariant_along start (fun state label next kept _ => preserved state label next kept)
    (machine.along_true _ _) ran

/-- When an invariant and the condition on a step imply another fact about the
step, that fact holds along the run. -/
theorem Along.of_invariant {invariant : State → Prop} {condition goal : State → Label → Prop}
    (preserved : ∀ state label next, invariant state → condition state label →
      machine.step state label = some next → invariant next)
    (implies : ∀ state label, invariant state → condition state label → goal state label)
    {state : State} {labels : List Label} (start : invariant state)
    (along : machine.Along condition state labels) : machine.Along goal state labels := by
  induction labels generalizing state with
  | nil => trivial
  | cons label rest inductionHypothesis =>
      refine ⟨implies state label start along.1, ?_⟩
      have tail := along.2
      cases stepped : machine.step state label with
      | none => trivial
      | some next =>
          simp only [stepped] at tail
          exact inductionHypothesis (preserved state label next start along.1 stepped) tail

theorem always_cons {holds : State → Prop} {state next : State} {label : Label}
    {rest : List Label} (stepped : machine.step state label = some next) :
    machine.Always holds state (label :: rest) ↔ holds state ∧ machine.Always holds next rest := by
  simp only [Always, stepped]

theorem Always.head {holds : State → Prop} {state : State} {labels : List Label}
    (always : machine.Always holds state labels) : holds state := by
  cases labels with
  | nil => exact always
  | cons label rest => exact always.1

theorem Always.final {holds : State → Prop} {state final : State} {labels : List Label}
    (always : machine.Always holds state labels)
    (ran : machine.runFrom state labels = some final) : holds final := by
  induction labels generalizing state with
  | nil =>
      obtain rfl : state = final := Option.some.inj ran
      exact always
  | cons label rest inductionHypothesis =>
      obtain ⟨next, stepped, ran⟩ := runFrom_cons_eq_some.mp ran
      exact inductionHypothesis ((always_cons stepped).mp always).2 ran

/-- A property that survives every step which meets a condition holds in every state
of a run whose steps all meet it. -/
theorem Along.always {holds : State → Prop} {condition : State → Label → Prop}
    (preserved : ∀ state label next, holds state → condition state label →
      machine.step state label = some next → holds next)
    {state : State} {labels : List Label} (start : holds state)
    (along : machine.Along condition state labels) : machine.Always holds state labels := by
  induction labels generalizing state with
  | nil => exact start
  | cons label rest inductionHypothesis =>
      refine ⟨start, ?_⟩
      have tail := along.2
      cases stepped : machine.step state label with
      | none => trivial
      | some next =>
          simp only [stepped] at tail
          exact inductionHypothesis (preserved state label next start along.1 stepped) tail

/-- When an invariant implies a property, survives every step that meets a
condition, and the property is lost at every step that does not, a run keeps the
property exactly when all its steps meet the condition. -/
theorem always_iff_along (invariant : State → Prop) {holds : State → Prop}
    {condition : State → Label → Prop} (sound : ∀ state, invariant state → holds state)
    (preserved : ∀ state label next, invariant state → condition state label →
      machine.step state label = some next → invariant next)
    (broken : ∀ state label next, invariant state → ¬ condition state label →
      machine.step state label = some next → ¬ holds next)
    {labels : List Label} {state final : State} (start : invariant state)
    (ran : machine.runFrom state labels = some final) :
    machine.Always holds state labels ↔ machine.Along condition state labels := by
  induction labels generalizing state with
  | nil => exact ⟨fun _ => trivial, fun _ => sound state start⟩
  | cons label rest inductionHypothesis =>
      obtain ⟨next, stepped, ran⟩ := runFrom_cons_eq_some.mp ran
      rw [always_cons stepped, along_cons stepped]
      constructor
      · rintro ⟨-, tail⟩
        have meets : condition state label := by
          by_contra fails
          exact broken state label next start fails stepped tail.head
        have kept := preserved state label next start meets stepped
        exact ⟨meets, (inductionHypothesis kept ran).mp tail⟩
      · rintro ⟨meets, tail⟩
        have kept := preserved state label next start meets stepped
        exact ⟨sound state start, (inductionHypothesis kept ran).mpr tail⟩

/-- A machine whose steps, seen through a projection, are another one's has that
machine's runs. -/
theorem runFrom_projected {Traced : Type} {observed : Machine Traced Label}
    {project : Traced → State}
    (steps : ∀ state label, (observed.step state label).map project =
      machine.step (project state) label) (labels : List Label) (state : Traced) :
    (observed.runFrom state labels).map project = machine.runFrom (project state) labels := by
  induction labels generalizing state with
  | nil => rfl
  | cons label rest inductionHypothesis =>
      rw [runFrom_cons, runFrom_cons, ← steps]
      cases observed.step state label with
      | none => rfl
      | some next => exact inductionHypothesis next

end Machine

end WallUnit.Foundations
