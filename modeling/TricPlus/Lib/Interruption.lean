import TricPlus.Lib.RelyGuarantee

/-!
Programs that are stopped after some of their calls.

A program over calls that are programs themselves can be stopped inside one of them.
Where each of these changes what is seen of the state at most once, what is seen then is
what is seen between two of the calls.
-/

namespace AtomicProgram

variable {sig other : Signature} {Time σ ρ α β : Type}

namespace Program

def firstCalls : Nat → Program sig α → Program sig (Option α)
  | _, .done result => .done (some result)
  | _, .panic => .panic
  | 0, .call _ _ => .done none
  | calls + 1, .call request next =>
      .call request (fun reply => (next reply).firstCalls calls)

/-- At most one of the calls is not quiet. -/
def Once (quiet : sig.Call → Prop) : Program sig α → Prop
  | .done _ => True
  | .panic => True
  | .call request next =>
      (quiet request ∧ ∀ reply, (next reply).Once quiet) ∨ ∀ reply, (next reply).Uses quiet

theorem Uses.firstCalls {allowed : sig.Call → Prop} {program : Program sig α}
    (uses : program.Uses allowed) (calls : Nat) : (program.firstCalls calls).Uses allowed := by
  induction program generalizing calls with
  | done result => cases calls <;> trivial
  | panic => cases calls <;> trivial
  | call request next ih =>
      cases calls with
      | zero => trivial
      | succ calls => exact ⟨uses.1, fun reply => ih reply (uses.2 reply) calls⟩

theorem MakesOnly.firstCalls {allowed : sig.Call → Prop} {program : Program sig α}
    (makes : program.MakesOnly allowed) (calls : Nat) :
    (program.firstCalls calls).MakesOnly allowed := by
  induction program generalizing calls with
  | done result => cases calls <;> trivial
  | panic => exact absurd makes id
  | call request next ih =>
      cases calls with
      | zero => trivial
      | succ calls => exact ⟨makes.1, fun reply _ => ih reply (makes.2 reply trivial) calls⟩

end Program

section Stopped

variable (object : Object sig Time σ) (clock : Nat → Time) {seen : σ → ρ}
  {quiet : sig.Call → Prop}

private theorem run_firstCalls_bind (body : Program sig α) (rest : α → Program sig β)
    (calls ticks : Nat) (state : σ) :
    (∃ result later after left, run object clock body ticks state = ⟨some result, later, after⟩ ∧
        run object clock ((body.bind rest).firstCalls calls) ticks state =
          run object clock ((rest result).firstCalls left) later after) ∨
      (run object clock ((body.bind rest).firstCalls calls) ticks state).state =
        (run object clock (body.firstCalls calls) ticks state).state := by
  induction body generalizing calls ticks state with
  | done result => exact Or.inl ⟨result, ticks, state, calls, rfl, rfl⟩
  | panic => exact Or.inr (by cases calls <;> rfl)
  | call request next ih =>
      cases calls with
      | zero => exact Or.inr rfl
      | succ calls =>
          simp only [Program.bind, Program.firstCalls, run]
          rcases object.step request (clock ticks) state with ⟨reply, after⟩
          cases reply with
          | none => exact Or.inr rfl
          | some reply => exact ih reply calls (ticks + 1) after

private theorem run_firstCalls_zero
    (implement : (request : other.Call) → Program sig (other.Reply request))
    (program : Program other α) (ticks : Nat) (state : σ) :
    (run object clock ((program.firstCalls 0).translate implement) ticks state).state = state := by
  cases program <;> rfl

private theorem seen_run_quiet
    (silent : ∀ request time state, quiet request →
      seen (object.step request time state).2 = seen state)
    {program : Program sig α} (uses : program.Uses quiet) (ticks : Nat) (state : σ) :
    seen (run object clock program ticks state).state = seen state := by
  apply run_uses_invariant object clock (fun _ after => seen after = seen state) _ uses rfl
  intro request ticks after isQuiet same
  rw [silent request (clock ticks) after isQuiet, same]

private theorem seen_firstCalls
    (silent : ∀ request time state, quiet request →
      seen (object.step request time state).2 = seen state)
    {program : Program sig α} (once : program.Once quiet) (calls ticks : Nat) (state : σ) :
    seen (run object clock (program.firstCalls calls) ticks state).state = seen state ∨
      seen (run object clock (program.firstCalls calls) ticks state).state =
        seen (run object clock program ticks state).state := by
  induction program generalizing calls ticks state with
  | done result => exact Or.inl (by cases calls <;> rfl)
  | panic => exact Or.inl (by cases calls <;> rfl)
  | call request next ih =>
      cases calls with
      | zero => exact Or.inl rfl
      | succ calls =>
          simp only [Program.firstCalls, run]
          rcases stepped : object.step request (clock ticks) state with ⟨reply, after⟩
          cases reply with
          | none => exact Or.inr rfl
          | some reply =>
              rcases once with ⟨isQuiet, others⟩ | others
              · have same := silent request (clock ticks) state isQuiet
                rw [stepped] at same
                rw [← same]
                exact ih reply (others reply) calls (ticks + 1) after
              · right
                rw [seen_run_quiet object clock silent ((others reply).firstCalls calls),
                  seen_run_quiet object clock silent (others reply)]

end Stopped

/-- A program over implemented calls, stopped at any moment, is seen as it is between two
of the calls. -/
theorem stopped_between_calls (object : Object other Time σ) (clock : Nat → Time) (seen : σ → ρ)
    {quiet : other.Call → Prop}
    {implement : (request : sig.Call) → Program other (sig.Reply request)}
    (silent : ∀ request time state, quiet request →
      seen (object.step request time state).2 = seen state)
    (once : ∀ request, (implement request).Once quiet) (program : Program sig α)
    (calls ticks : Nat) (state : σ) :
    ∃ whole,
      seen (run object clock ((program.translate implement).firstCalls calls) ticks
          state).state =
        seen (run object clock ((program.firstCalls whole).translate implement) ticks
          state).state := by
  induction program generalizing calls ticks state with
  | done result => exact ⟨0, by cases calls <;> rfl⟩
  | panic => exact ⟨0, by cases calls <;> rfl⟩
  | call request next ih =>
      rcases run_firstCalls_bind object clock (implement request)
        (fun reply => (next reply).translate implement) calls ticks state with
        ⟨reply, later, after, left, ran, same⟩ | inside
      · rcases ih reply left later after with ⟨whole, between⟩
        refine ⟨whole + 1, ?_⟩
        simp only [Program.translate, Program.firstCalls]
        rw [same, run_bind, ran]
        exact between
      · rcases seen_firstCalls object clock silent (once request) calls ticks state with
          before | after
        · refine ⟨0, ?_⟩
          simp only [Program.translate, Program.firstCalls]
          rw [inside, before]
          rfl
        · refine ⟨1, ?_⟩
          simp only [Program.translate, Program.firstCalls]
          rw [inside, after, run_bind]
          rcases run object clock (implement request) ticks state with ⟨result, later, last⟩
          cases result with
          | none => rfl
          | some reply =>
              exact (congrArg seen
                (run_firstCalls_zero object clock implement (next reply) later last)).symm

end AtomicProgram
