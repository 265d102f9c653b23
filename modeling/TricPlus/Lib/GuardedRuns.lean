import Mathlib

/-!
Runs of a system whose every step meets a condition on the state it starts from.
-/

namespace GuardedRuns

variable {State Event : Type}

/-- Where runs lead whose steps all meet the condition. -/
inductive Reaches (step : State → Event → State → Prop) (condition : State → Event → Prop)
    (start : State) : State → Prop where
  | refl : Reaches step condition start start
  | next {state after : State} {event : Event} (reached : Reaches step condition start state)
      (met : condition state event) (stepped : step state event after) :
      Reaches step condition start after

variable {step : State → Event → State → Prop} {condition weaker : State → Event → Prop}
  {start state after : State}

theorem Reaches.invariant (kept : State → Prop) (atStart : kept start)
    (keeps : ∀ {state after event}, kept state → condition state event →
      step state event after → kept after)
    (reached : Reaches step condition start state) : kept state := by
  induction reached with
  | refl => exact atStart
  | next before met stepped ih => exact keeps ih met stepped

/-- No condition at all. -/
def anyStep : State → Event → Prop := fun _ _ => True

section Along

variable (next : State → Event → State)

/-- The condition holds wherever the run takes a step. -/
def Along (condition : State → Event → Prop) : State → List Event → Prop
  | _, [] => True
  | state, event :: events => condition state event ∧ Along condition (next state event) events

variable {next} {allowed : State → Event → Prop} {kept : State → Prop} {events : List Event}

theorem Along.invariant (along : Along next condition state events) (atStart : kept state)
    (keeps : ∀ {state event}, kept state → condition state event → kept (next state event)) :
    kept (events.foldl next state) := by
  induction events generalizing state with
  | nil => exact atStart
  | cons event events ih => exact ih along.2 (keeps atStart along.1)

theorem Along.and (first : Along next condition state events)
    (second : Along next allowed state events) :
    Along next (fun state event => condition state event ∧ allowed state event) state events := by
  induction events generalizing state with
  | nil => trivial
  | cons event events ih => exact ⟨⟨first.1, second.1⟩, ih first.2 second.2⟩

theorem Along.weaken (along : Along next condition state events)
    (weakens : ∀ state event, condition state event → allowed state event) :
    Along next allowed state events := by
  induction events generalizing state with
  | nil => trivial
  | cons event events ih => exact ⟨weakens _ _ along.1, ih along.2⟩

theorem Along.gives (along : Along next condition state events) (atStart : kept state)
    (keeps : ∀ {state event}, kept state → condition state event → kept (next state event))
    (follows : ∀ {state event}, kept state → condition state event → allowed state event) :
    Along next allowed state events := by
  induction events generalizing state with
  | nil => trivial
  | cons event events ih =>
      exact ⟨follows atStart along.1, ih along.2 (keeps atStart along.1)⟩

instance Along.decidable (next : State → Event → State) (condition : State → Event → Prop)
    [∀ state event, Decidable (condition state event)] :
    (state : State) → (events : List Event) → Decidable (Along next condition state events)
  | _, [] => isTrue trivial
  | state, event :: events =>
      haveI := Along.decidable next condition (next state event) events
      inferInstanceAs (Decidable (condition state event ∧ _))

theorem Along.broken {sound broken : State → Prop} (along : Along next allowed state events)
    (atStart : sound state)
    (soundly : ∀ {state event}, sound state → allowed state event → sound (next state event))
    (breaks : ∀ {state event}, sound state → allowed state event → ¬ condition state event →
      broken (next state event))
    (stays : ∀ {state event}, sound state → allowed state event → broken state →
      broken (next state event))
    (violated : ¬ Along next condition state events) : broken (events.foldl next state) := by
  induction events generalizing state with
  | nil => exact absurd trivial violated
  | cons event events ih =>
      rcases along with ⟨here, later⟩
      have soundNext := soundly atStart here
      by_cases holds : condition state event
      · exact ih later soundNext (fun rest => violated ⟨holds, rest⟩)
      · have kept := @Along.invariant State Event allowed (next state event) next
          (fun state => sound state ∧ broken state) events later
          ⟨soundNext, breaks atStart here holds⟩
          (fun sofar permitted => ⟨soundly sofar.1 permitted, stays sofar.1 permitted sofar.2⟩)
        exact kept.2

end Along

end GuardedRuns
