import TricPlus.Lib.RelyGuarantee

/-!
Programs whose calls are made at given times, and refinement of one object by
programs over another.

A call that is itself a program over a lower object takes several readings of the
clock; the call it stands for takes one.  `Implements` says that one of the readings
between its start and its end will do.  A whole program over the implemented calls is
then the program over the calls, each made at one time, and the times ascend.
-/

namespace AtomicProgram

variable {sig other : Signature} {Time σ τ α β : Type}

/-- The program comes to its end with its calls made at these times, in order. -/
inductive Plays (object : Object sig Time σ) :
    Program sig α → List Time → σ → Option α → σ → Prop where
  | ended (result : Option α) (state : σ) :
      Plays object (.ended result) [] state result state
  | called (request : sig.Call) (next : sig.Reply request → Program sig α) (time : Time)
      (times : List Time) (state : σ) (result : Option α) (last : σ)
      (rest : Plays object (.resume next (object.step request time state).1) times
        (object.step request time state).2 result last) :
      Plays object (.call request next) (time :: times) state result last

section Plays

variable {object : Object sig Time σ}

theorem Plays.done (result : α) (state : σ) :
    Plays object (.done result) [] state (some result) state :=
  .ended (some result) state

theorem Plays.call {request : sig.Call} {next : sig.Reply request → Program sig α}
    {time : Time} {times : List Time} {state after last : σ} {reply : sig.Reply request}
    {result : Option α} (stepped : object.step request time state = (some reply, after))
    (rest : Plays object (next reply) times after result last) :
    Plays object (.call request next) (time :: times) state result last := by
  apply Plays.called
  rw [stepped]
  exact rest

theorem Plays.call_inv {request : sig.Call} {next : sig.Reply request → Program sig α}
    {times : List Time} {state last : σ} {result : Option α}
    (plays : Plays object (.call request next) times state result last) :
    ∃ time later, times = time :: later ∧
      Plays object (.resume next (object.step request time state).1) later
        (object.step request time state).2 result last := by
  generalize program : Program.call request next = called at plays
  cases plays with
  | ended result state => exact absurd program call_ne_ended
  | called asked rest time times state result last continues =>
      cases program
      exact ⟨time, times, rfl, continues⟩

theorem Plays.done_inv {found : α} {times : List Time} {state last : σ} {result : Option α}
    (plays : Plays object (.done found) times state result last) :
    times = [] ∧ result = some found ∧ last = state := by
  generalize program : Program.done found = done at plays
  cases plays with
  | ended result state =>
      cases result with
      | none => cases program
      | some result =>
          cases program
          exact ⟨rfl, rfl, rfl⟩
  | called request next time times state result last rest => cases program

end Plays

/-- The times ascend and lie between the two. -/
def Within [Preorder Time] (earliest latest : Time) (times : List Time) : Prop :=
  times.Pairwise (· ≤ ·) ∧ ∀ time ∈ times, earliest ≤ time ∧ time ≤ latest

section Within

variable [Preorder Time] {earliest middle latest : Time} {times later : List Time}

theorem within_nil (earliest latest : Time) : Within earliest latest [] :=
  ⟨List.Pairwise.nil, nofun⟩

theorem Within.cons {time : Time} (first : earliest ≤ time) (ordered : time ≤ middle)
    (ends : middle ≤ latest) (within : Within middle latest times) :
    Within earliest latest (time :: times) := by
  rcases within with ⟨ascending, between⟩
  refine ⟨List.pairwise_cons.mpr ⟨?_, ascending⟩, ?_⟩
  · intro other member
    exact le_trans ordered (between other member).1
  · intro other member
    rcases List.mem_cons.mp member with rfl | member
    · exact ⟨first, le_trans ordered ends⟩
    · exact ⟨le_trans first (le_trans ordered (between other member).1),
        (between other member).2⟩

theorem Within.tail {time : Time} (within : Within earliest latest (time :: times)) :
    earliest ≤ time ∧ time ≤ latest ∧ Within time latest times := by
  rcases within with ⟨ascending, between⟩
  rcases List.pairwise_cons.mp ascending with ⟨first, rest⟩
  have here := between time (List.mem_cons_self ..)
  exact ⟨here.1, here.2, rest, fun other member =>
    ⟨first other member, (between other (List.mem_cons_of_mem _ member)).2⟩⟩

theorem Within.split {first : List Time} (within : Within earliest latest (first ++ later))
    (ordered : earliest ≤ latest) :
    ∃ middle, earliest ≤ middle ∧ middle ≤ latest ∧ Within earliest middle first ∧
      Within middle latest later := by
  induction first generalizing earliest with
  | nil => exact ⟨earliest, le_refl earliest, ordered, within_nil _ _, within⟩
  | cons time first ih =>
      rcases within.tail with ⟨begins, ends, rest⟩
      rcases ih rest ends with ⟨middle, fromTime, toLatest, firstWithin, laterWithin⟩
      exact ⟨middle, le_trans begins fromTime, toLatest,
        firstWithin.cons begins (le_refl time) fromTime, laterWithin⟩

end Within

/-- Each allowed call, run as a program over another object from related states, is
answered as at one of the moments of its run, and leaves the states related. -/
def Implements (object : Object other Time σ) (clock : Nat → Time) (spec : Object sig Time τ)
    (implement : (request : sig.Call) → Program other (sig.Reply request))
    (allowed : sig.Call → Prop) (related : Nat → σ → τ → Prop) : Prop :=
  ∀ request ticks state image, allowed request → related ticks state image →
    ∃ reply later after tick image',
      run object clock (implement request) ticks state = ⟨some reply, later, after⟩ ∧
        ticks ≤ tick ∧ tick ≤ later ∧
        spec.step request (clock tick) image = (some reply, image') ∧ related later after image'

theorem Implements.keeping {object : Object other Time σ} {clock : Nat → Time}
    {spec : Object sig Time τ}
    {implement : (request : sig.Call) → Program other (sig.Reply request)}
    {allowed : sig.Call → Prop} {related : Nat → σ → τ → Prop} {inv : σ → Prop}
    (implements : Implements object clock spec implement allowed related)
    (kept : ∀ request ticks state image reply later after, allowed request →
      related ticks state image → inv state →
      run object clock (implement request) ticks state = ⟨some reply, later, after⟩ →
      inv after) :
    Implements object clock spec implement allowed
      (fun ticks state image => related ticks state image ∧ inv state) := by
  intro request ticks state image permitted start
  rcases implements request ticks state image permitted start.1 with
    ⟨reply, later, after, tick, image', ran, fromStart, toEnd, stepped, relatedAfter⟩
  exact ⟨reply, later, after, tick, image', ran, fromStart, toEnd, stepped, relatedAfter,
    kept request ticks state image reply later after permitted start.1 start.2 ran⟩

/-- A program over the implemented calls returns what it returns over the calls, each made
at one moment, the moments in order and within the run. -/
theorem Implements.run [Preorder Time] {object : Object other Time σ} {clock : Nat → Time}
    {spec : Object sig Time τ}
    {implement : (request : sig.Call) → Program other (sig.Reply request)}
    {allowed : sig.Call → Prop} {related : Nat → σ → τ → Prop}
    (implements : Implements object clock spec implement allowed related)
    (monotone : Monotone clock) {program : Program sig α} (makes : program.MakesOnly allowed)
    {ticks : Nat} {state : σ} {image : τ} (start : related ticks state image) :
    ∃ result later last times image',
      run object clock (program.translate implement) ticks state = ⟨some result, later, last⟩ ∧
        Within (clock ticks) (clock later) times ∧
        Plays spec program times image (some result) image' ∧ related later last image' := by
  induction program generalizing ticks state image with
  | done result =>
      exact ⟨result, ticks, state, [], image, rfl, within_nil _ _, .done result image, start⟩
  | panic => exact absurd makes id
  | call request next ih =>
      rcases implements request ticks state image makes.1 start with
        ⟨reply, later, after, tick, image', ran, fromStart, toEnd, stepped, relatedAfter⟩
      rcases ih reply (makes.2 reply trivial) relatedAfter with
        ⟨result, ended, last, times, lastImage, returned, within, plays, relatedLast⟩
      have goesOn := run_ticks_le object clock ((next reply).translate implement) later after
      rw [returned] at goesOn
      refine ⟨result, ended, last, clock tick :: times, lastImage, ?_, ?_, .call stepped plays,
        relatedLast⟩
      · rw [Program.translate, run_bind, ran]
        exact returned
      · exact within.cons (monotone fromStart) (monotone toEnd) (monotone goesOn)

end AtomicProgram
