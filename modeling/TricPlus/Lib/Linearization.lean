import TricPlus.Lib.RelyGuarantee

/-!
Linearization at fixed points.

Calls of one object are implemented by programs over another.  Where each implementation
makes exactly one call that matters, its point, and all its other calls leave the view of
the state alone, any interleaving of programs over the implementations is an interleaving
of the same programs over the calls: each takes effect at its point, with its reply.
-/

namespace AtomicProgram

variable {sig other : Signature} {Time σ τ α β : Type}

/-- A call made by one of several programs. -/
structure Move (sig : Signature) (Time : Type) where
  who : Nat
  request : sig.Call
  time : Time

def Move.moment (move : Move sig Time) : Nat × Time := (move.who, move.time)

/-- The programs come to their ends by these moves. -/
inductive Scheduled (object : Object sig Time σ) :
    List (Program sig α) → List (Move sig Time) → σ → List (Option α) → σ → Prop where
  | finished (results : List (Option α)) (state : σ) :
      Scheduled object (results.map .ended) [] state results state
  | step (before after : List (Program sig α)) (request : sig.Call)
      (next : sig.Reply request → Program sig α) (time : Time) (moves : List (Move sig Time))
      (state : σ) (results : List (Option α)) (last : σ)
      (rest : Scheduled object
        (before ++ .resume next (object.step request time state).1 :: after) moves
        (object.step request time state).2 results last) :
      Scheduled object (before ++ .call request next :: after)
        (⟨before.length, request, time⟩ :: moves) state results last

theorem Scheduled.cons_ended {object : Object sig Time σ} {pool : List (Program sig α)}
    {moves : List (Move sig Time)} {state last : σ} {results : List (Option α)}
    (scheduled : Scheduled object pool moves state results last) (result : Option α) :
    ∃ moved, Scheduled object (.ended result :: pool) moved state (result :: results) last := by
  induction scheduled with
  | finished results state => exact ⟨[], .finished (result :: results) state⟩
  | step before after request next time moves state results last rest ih =>
      rcases ih with ⟨moved, others⟩
      exact ⟨_, .step (.ended result :: before) after request next time moved state _ last others⟩

theorem Scheduled.cons_run {object : Object sig Time σ} (clock : Nat → Time)
    (program : Program sig α) {pool : List (Program sig α)} {ticks : Nat} {state last : σ}
    {results : List (Option α)} {moves : List (Move sig Time)}
    (rest : Scheduled object pool moves (run object clock program ticks state).state results
      last) :
    ∃ moved, Scheduled object (program :: pool) moved state
      ((run object clock program ticks state).result :: results) last := by
  induction program generalizing ticks state with
  | done result => exact rest.cons_ended (some result)
  | panic => exact rest.cons_ended none
  | call request next ih =>
      rcases stepped : object.step request (clock ticks) state with ⟨reply, after⟩
      cases reply with
      | none =>
          rw [run_call_panic object clock stepped] at rest ⊢
          rcases rest.cons_ended none with ⟨moved, others⟩
          refine ⟨_, .step [] pool request next (clock ticks) moved state _ last ?_⟩
          rw [stepped]
          exact others
      | some reply =>
          rw [run_call_reply object clock stepped] at rest ⊢
          rcases ih reply rest with ⟨moved, others⟩
          refine ⟨_, .step [] pool request next (clock ticks) moved state _ last ?_⟩
          rw [stepped]
          exact others

theorem Scheduled.one_by_one (object : Object sig Time σ) (clock : Nat → Time)
    (pool : List (Program sig α)) (state : σ) :
    ∃ moves results last, Scheduled object pool moves state results last := by
  induction pool generalizing state with
  | nil => exact ⟨[], [], state, .finished [] state⟩
  | cons program pool ih =>
      rcases ih (run object clock program 0 state).state with ⟨moves, results, last, rest⟩
      rcases Scheduled.cons_run clock program rest with ⟨moved, scheduled⟩
      exact ⟨moved, _, last, scheduled⟩

/-- What is looked at: the object that programs run on, the one they seem to run on, what
is seen of a state, what holds of every state, and which calls are points. -/
structure Linearization (other sig : Signature) (Time σ τ : Type) where
  object : Object other Time σ
  spec : Object sig Time τ
  view : σ → τ
  inv : σ → Prop
  point : other.Call → Bool

namespace Linearization

variable (setting : Linearization other sig Time σ τ)

/-- The program returns the reply, and nothing is seen of it. -/
def Settled (reply : β) : Program other β → Prop
  | .done result => result = reply
  | .panic => False
  | .call request next => setting.point request = false ∧
      ∀ time state, setting.inv state → ∃ answer after,
        setting.object.step request time state = (some answer, after) ∧ setting.inv after ∧
          setting.view after = setting.view state ∧ Settled reply (next answer)

/-- The program does at its point what the call does, and nothing else is seen of it. -/
def Pending (call : sig.Call) : Program other (sig.Reply call) → Prop
  | .done _ => False
  | .panic => False
  | .call request next =>
      (setting.point request = false ∧
        ∀ time state, setting.inv state → ∃ answer after,
          setting.object.step request time state = (some answer, after) ∧ setting.inv after ∧
            setting.view after = setting.view state ∧ Pending call (next answer)) ∨
      (setting.point request = true ∧
        ∀ time state, setting.inv state → ∃ answer after reply,
          setting.object.step request time state = (some answer, after) ∧ setting.inv after ∧
            setting.spec.step call time (setting.view state) =
              (some reply, setting.view after) ∧
            setting.Settled reply (next answer))

variable {setting}

/-- A program over the implementations, beside the program over the calls that it stands
for: between two calls, before the point of a call, or after it. -/
inductive Ahead (setting : Linearization other sig Time σ τ)
    (implement : (call : sig.Call) → Program other (sig.Reply call)) (allowed : sig.Call → Prop) :
    Program other α → Program sig α → Prop where
  | between (program : Program sig α) (uses : program.Uses allowed) :
      Ahead setting implement allowed (program.translate implement) program
  | before (call : sig.Call) (next : sig.Reply call → Program sig α)
      (body : Program other (sig.Reply call)) (pending : setting.Pending call body)
      (uses : ∀ reply, (next reply).Uses allowed) :
      Ahead setting implement allowed
        (body.bind (fun reply => (next reply).translate implement)) (.call call next)
  | after {γ : Type} (reply : γ) (next : γ → Program sig α) (body : Program other γ)
      (settled : setting.Settled reply body) (uses : (next reply).Uses allowed) :
      Ahead setting implement allowed
        (body.bind (fun reply => (next reply).translate implement)) (next reply)

section Ahead

variable {implement : (call : sig.Call) → Program other (sig.Reply call)}
  {allowed : sig.Call → Prop}

/-- What one step of the implementations is among the calls: nothing, or the call whose
point it is. -/
def Matched (setting : Linearization other sig Time σ τ)
    (implement : (call : sig.Call) → Program other (sig.Reply call)) (allowed : sig.Call → Prop)
    (request : other.Call) (next : other.Reply request → Program other α)
    (program : Program sig α) : Prop :=
  ∀ time state, setting.inv state → ∃ answer after,
    setting.object.step request time state = (some answer, after) ∧ setting.inv after ∧
      ((setting.point request = false ∧ setting.view after = setting.view state ∧
          Ahead setting implement allowed (next answer) program) ∨
        (setting.point request = true ∧ ∃ call continues reply,
          program = .call call continues ∧
            setting.spec.step call time (setting.view state) =
              (some reply, setting.view after) ∧
            Ahead setting implement allowed (next answer) (continues reply)))

private theorem pending_matched {call : sig.Call} {continues : sig.Reply call → Program sig α}
    {request : other.Call} {next : other.Reply request → Program other (sig.Reply call)}
    (pending : setting.Pending call (.call request next))
    (uses : ∀ reply, (continues reply).Uses allowed) :
    Matched setting implement allowed request
      (fun answer => (next answer).bind (fun reply => (continues reply).translate implement))
      (.call call continues) := by
  intro time state start
  rcases pending with ⟨silent, steps⟩ | ⟨point, steps⟩
  · rcases steps time state start with ⟨answer, after, stepped, kept, same, goesOn⟩
    exact ⟨answer, after, stepped, kept,
      Or.inl ⟨silent, same, .before call continues _ goesOn uses⟩⟩
  · rcases steps time state start with ⟨answer, after, reply, stepped, kept, specified, settled⟩
    exact ⟨answer, after, stepped, kept, Or.inr ⟨point, call, continues, reply, rfl, specified,
      .after reply continues _ settled (uses reply)⟩⟩

private theorem between_cases
    (linearizes : ∀ call, allowed call → setting.Pending call (implement call))
    {program : Program sig α} (uses : program.Uses allowed) :
    (∃ result, program.translate implement = .ended result ∧ program = .ended result) ∨
      ∃ request next, program.translate implement = .call request next ∧
        Matched setting implement allowed request next program := by
  cases program with
  | done result => exact Or.inl ⟨some result, rfl, rfl⟩
  | panic => exact Or.inl ⟨none, rfl, rfl⟩
  | call call continues =>
      right
      have pending := linearizes call uses.1
      simp only [Program.translate]
      cases body : implement call with
      | done result =>
          rw [body] at pending
          exact absurd pending id
      | panic =>
          rw [body] at pending
          exact absurd pending id
      | call request next =>
          rw [body] at pending
          exact ⟨request, _, rfl, pending_matched pending uses.2⟩

theorem Ahead.cases (linearizes : ∀ call, allowed call → setting.Pending call (implement call))
    {running : Program other α} {program : Program sig α}
    (ahead : Ahead setting implement allowed running program) :
    (∃ result, running = .ended result ∧ program = .ended result) ∨
      ∃ request next, running = .call request next ∧
        Matched setting implement allowed request next program := by
  cases ahead with
  | between program uses => exact between_cases linearizes uses
  | before call next body pending uses =>
      cases body with
      | done result => exact absurd pending id
      | panic => exact absurd pending id
      | call request continues =>
          exact Or.inr ⟨request, _, rfl, pending_matched pending uses⟩
  | after reply next body settled uses =>
      cases body with
      | done result =>
          cases settled
          exact between_cases linearizes uses
      | panic => exact absurd settled id
      | call request continues =>
          refine Or.inr ⟨request, _, rfl, fun time state start => ?_⟩
          rcases settled.2 time state start with ⟨answer, after, stepped, kept, same, goesOn⟩
          exact ⟨answer, after, stepped, kept,
            Or.inl ⟨settled.1, same, .after reply next _ goesOn uses⟩⟩

theorem linearized
    (linearizes : ∀ call, allowed call → setting.Pending call (implement call))
    {pool : List (Program other α)} {images : List (Program sig α)}
    {moves : List (Move other Time)} {state last : σ} {results : List (Option α)}
    (scheduled : Scheduled setting.object pool moves state results last)
    (ahead : List.Forall₂ (Ahead setting implement allowed) pool images)
    (start : setting.inv state) :
    ∃ points : List (Move sig Time),
      points.map Move.moment =
          (moves.filter (fun move => setting.point move.request)).map Move.moment ∧
        Scheduled setting.spec images points (setting.view state) results (setting.view last) ∧
        setting.inv last := by
  induction scheduled generalizing images with
  | finished results state =>
      have same : images = results.map .ended := by
        rw [List.forall₂_map_left_iff] at ahead
        rw [← List.forall₂_eq_eq_eq, List.forall₂_map_right_iff]
        apply ahead.flip.imp
        intro image result related
        rcases related.cases linearizes with ⟨found, ended, same⟩ | ⟨request, next, called, -⟩
        · rw [same, ended_injective ended]
        · exact absurd called.symm call_ne_ended
      rw [same]
      exact ⟨[], rfl, .finished results _, start⟩
  | step before after request next time moves state results last rest ih =>
      rcases forall₂_split ahead with ⟨first, image, second, rfl, related, long, replace⟩
      rcases related.cases linearizes with ⟨found, ended, -⟩ | ⟨asked, continues, called, matched⟩
      · exact absurd ended call_ne_ended
      cases called
      rcases matched time state start with ⟨answer, stateAfter, stepped, kept, effect⟩
      rw [stepped] at ih
      rcases effect with ⟨silent, same, goesOn⟩ | ⟨point, call, further, reply, rfl, specified, goesOn⟩
      · rcases ih (replace _ image goesOn) kept with ⟨points, moments, seen, ended⟩
        refine ⟨points, ?_, same ▸ seen, ended⟩
        rw [List.filter_cons, if_neg (by simp only [silent, Bool.false_eq_true, not_false_eq_true])]
        exact moments
      · rcases ih (replace _ _ goesOn) kept with ⟨points, moments, seen, ended⟩
        refine ⟨⟨first.length, call, time⟩ :: points, ?_, ?_, ended⟩
        · rw [List.filter_cons, if_pos point, List.map_cons, List.map_cons, moments]
          simp only [Move.moment, long]
        · apply Scheduled.step
          rw [specified]
          exact seen

end Ahead

end Linearization

end AtomicProgram
