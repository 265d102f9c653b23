import Mathlib

/-!
Programs over a shared object whose calls are atomic.

A program is a tree of calls: each call is one critical section of the object,
what follows depends on the reply.  One object gives two semantics.  `run`
executes a program alone; `Interleaved` lets any number of programs take their
calls in any order.  Every call reads the clock once, and the readings are
numbered in the order in which the calls happen.
-/

namespace AtomicProgram

/-- The calls an object offers, and the type of the reply to each. -/
structure Signature where
  Call : Type
  Reply : Call → Type

inductive Program (sig : Signature) (α : Type) : Type where
  | done (result : α)
  | panic
  | call (request : sig.Call) (next : sig.Reply request → Program sig α)

namespace Program

variable {sig other : Signature} {α β : Type}

def bind : Program sig α → (α → Program sig β) → Program sig β
  | .done result, rest => rest result
  | .panic, _ => .panic
  | .call request next, rest => .call request (fun reply => (next reply).bind rest)

instance : Monad (Program sig) where
  pure := .done
  bind := bind

def perform (sig : Signature) (request : sig.Call) : Program sig (sig.Reply request) :=
  .call request .done

@[simp] theorem pure_eq_done (result : α) : (pure result : Program sig α) = .done result := rfl

@[simp] theorem done_bind (result : α) (rest : α → Program sig β) :
    (Program.done result >>= rest) = rest result := rfl

@[simp] theorem panic_bind (rest : α → Program sig β) :
    (Program.panic >>= rest) = .panic := rfl

@[simp] theorem call_bind (request : sig.Call) (next : sig.Reply request → Program sig α)
    (rest : α → Program sig β) :
    (Program.call request next >>= rest) = .call request (fun reply => next reply >>= rest) :=
  rfl

@[simp] theorem perform_bind (request : sig.Call)
    (rest : sig.Reply request → Program sig β) :
    (perform sig request >>= rest) = .call request rest := rfl

theorem bind_assoc {γ : Type} (program : Program sig α) (first : α → Program sig β)
    (second : β → Program sig γ) :
    (program.bind first).bind second = program.bind (fun result => (first result).bind second) := by
  induction program with
  | done result => rfl
  | panic => rfl
  | call request next ih =>
      simp only [bind]
      congr 1
      funext reply
      exact ih reply

def translate (implement : (request : sig.Call) → Program other (sig.Reply request)) :
    Program sig α → Program other α
  | .done result => .done result
  | .panic => .panic
  | .call request next =>
      (implement request).bind (fun reply => (next reply).translate implement)

theorem translate_bind (implement : (request : sig.Call) → Program other (sig.Reply request))
    (program : Program sig α) (rest : α → Program sig β) :
    (program.bind rest).translate implement =
      (program.translate implement).bind (fun result => (rest result).translate implement) := by
  induction program with
  | done result => rfl
  | panic => rfl
  | call request next ih =>
      simp only [bind, translate, ih]
      exact (bind_assoc _ _ _).symm

/-- Every call the program can make, whatever the replies, is an allowed one. -/
def Uses (allowed : sig.Call → Prop) : Program sig α → Prop
  | .done _ => True
  | .panic => True
  | .call request next => allowed request ∧ ∀ reply, (next reply).Uses allowed

theorem Uses.mono {allowed wider : sig.Call → Prop} {program : Program sig α}
    (uses : program.Uses allowed) (weaker : ∀ request, allowed request → wider request) :
    program.Uses wider := by
  induction program with
  | done result => trivial
  | panic => trivial
  | call request next ih =>
      exact ⟨weaker request uses.1, fun reply => ih reply (uses.2 reply)⟩

theorem Uses.bind {allowed : sig.Call → Prop} {program : Program sig α}
    {rest : α → Program sig β} (first : program.Uses allowed)
    (second : ∀ result, (rest result).Uses allowed) : (program.bind rest).Uses allowed := by
  induction program with
  | done result => exact second result
  | panic => trivial
  | call request next ih =>
      exact ⟨first.1, fun reply => ih reply (first.2 reply)⟩

theorem Uses.translate {allowed : sig.Call → Prop} {wider : other.Call → Prop}
    {implement : (request : sig.Call) → Program other (sig.Reply request)}
    (each : ∀ request, allowed request → (implement request).Uses wider)
    {program : Program sig α} (uses : program.Uses allowed) :
    (program.translate implement).Uses wider := by
  induction program with
  | done result => trivial
  | panic => trivial
  | call request next ih =>
      exact (each request uses.1).bind (fun reply => ih reply (uses.2 reply))

/-- Every result the program can come to, whatever the replies, is a good one. -/
def Yields (good : α → Prop) : Program sig α → Prop
  | .done result => good result
  | .panic => True
  | .call _ next => ∀ reply, (next reply).Yields good

theorem Yields.bind {middle : α → Prop} {good : β → Prop} {program : Program sig α}
    {rest : α → Program sig β} (first : program.Yields middle)
    (second : ∀ result, middle result → (rest result).Yields good) :
    (program.bind rest).Yields good := by
  induction program with
  | done result => exact second result first
  | panic => trivial
  | call request next ih => exact fun reply => ih reply (first reply)

theorem yields_anything (program : Program sig α) : program.Yields (fun _ => True) := by
  induction program with
  | done result => trivial
  | panic => trivial
  | call request next ih => exact fun reply => ih reply

theorem Yields.translate {good : α → Prop}
    {implement : (request : sig.Call) → Program other (sig.Reply request)}
    {program : Program sig α} (yields : program.Yields good) :
    (program.translate implement).Yields good := by
  induction program with
  | done result => exact yields
  | panic => trivial
  | call request next ih =>
      exact (yields_anything (implement request)).bind (fun reply _ => ih reply (yields reply))

end Program

/-- A shared object: what one atomic call does at a clock reading.  No reply
means that the call panicked; the state after it is still the object's state. -/
structure Object (sig : Signature) (Time σ : Type) where
  step : (request : sig.Call) → Time → σ → Option (sig.Reply request) × σ

structure Outcome (σ α : Type) where
  result : Option α
  ticks : Nat
  state : σ

variable {sig other : Signature} {Time σ τ α β : Type}

/-! ### Running one program -/

/-- Run a program alone.  `ticks` numbers the next clock reading. -/
def run (object : Object sig Time σ) (clock : Nat → Time) :
    Program sig α → Nat → σ → Outcome σ α
  | .done result, ticks, state => ⟨some result, ticks, state⟩
  | .panic, ticks, state => ⟨none, ticks, state⟩
  | .call request next, ticks, state =>
      match object.step request (clock ticks) state with
      | (some reply, after) => run object clock (next reply) (ticks + 1) after
      | (none, after) => ⟨none, ticks + 1, after⟩

section Run

variable (object : Object sig Time σ) (clock : Nat → Time)

@[simp] theorem run_done (result : α) (ticks : Nat) (state : σ) :
    run object clock (.done result : Program sig α) ticks state =
      ⟨some result, ticks, state⟩ := rfl

@[simp] theorem run_panic (ticks : Nat) (state : σ) :
    run object clock (.panic : Program sig α) ticks state = ⟨none, ticks, state⟩ := rfl

theorem run_call_reply {request : sig.Call} {next : sig.Reply request → Program sig α}
    {ticks : Nat} {state after : σ} {reply : sig.Reply request}
    (stepped : object.step request (clock ticks) state = (some reply, after)) :
    run object clock (.call request next) ticks state =
      run object clock (next reply) (ticks + 1) after := by
  simp only [run, stepped]

theorem run_call_panic {request : sig.Call} {next : sig.Reply request → Program sig α}
    {ticks : Nat} {state after : σ}
    (stepped : object.step request (clock ticks) state = (none, after)) :
    run object clock (.call request next) ticks state = ⟨none, ticks + 1, after⟩ := by
  simp only [run, stepped]

theorem run_bind (program : Program sig α) (rest : α → Program sig β)
    (ticks : Nat) (state : σ) :
    run object clock (program.bind rest) ticks state =
      match run object clock program ticks state with
      | ⟨some result, later, after⟩ => run object clock (rest result) later after
      | ⟨none, later, after⟩ => ⟨none, later, after⟩ := by
  induction program generalizing ticks state with
  | done result => rfl
  | panic => rfl
  | call request next ih =>
      simp only [Program.bind, run]
      cases stepped : object.step request (clock ticks) state with
      | mk reply after =>
          cases reply with
          | none => rfl
          | some reply => exact ih reply (ticks + 1) after

theorem run_yields {good : α → Prop} {program : Program sig α} (yields : program.Yields good)
    {ticks : Nat} {state : σ} {result : α}
    (returned : (run object clock program ticks state).result = some result) : good result := by
  induction program generalizing ticks state with
  | done found =>
      cases returned
      exact yields
  | panic => cases returned
  | call request next ih =>
      simp only [run] at returned
      cases stepped : object.step request (clock ticks) state with
      | mk reply after =>
          rw [stepped] at returned
          cases reply with
          | none => cases returned
          | some reply => exact ih reply (yields reply) returned

theorem run_ticks_le (program : Program sig α) (ticks : Nat) (state : σ) :
    ticks ≤ (run object clock program ticks state).ticks := by
  induction program generalizing ticks state with
  | done result => exact Nat.le_refl ticks
  | panic => exact Nat.le_refl ticks
  | call request next ih =>
      simp only [run]
      cases stepped : object.step request (clock ticks) state with
      | mk reply after =>
          cases reply with
          | none => exact Nat.le_succ ticks
          | some reply => exact Nat.le_trans (Nat.le_succ ticks) (ih reply (ticks + 1) after)

theorem run_congr {image : Object sig Time σ} {allowed : sig.Call → Prop}
    {program : Program sig α} (uses : program.Uses allowed) {ticks : Nat} {state : σ}
    (same : ∀ request index, allowed request → ticks ≤ index →
      index < (run object clock program ticks state).ticks →
      ∀ between, image.step request (clock index) between =
        object.step request (clock index) between) :
    run image clock program ticks state = run object clock program ticks state := by
  induction program generalizing ticks state with
  | done result => rfl
  | panic => rfl
  | call request next ih =>
      simp only [run] at same ⊢
      cases stepped : object.step request (clock ticks) state with
      | mk reply after =>
          rw [stepped] at same
          cases reply with
          | none =>
              rw [same request ticks uses.1 (Nat.le_refl _) (Nat.lt_succ_self _), stepped]
          | some reply =>
              have later := run_ticks_le object clock (next reply) (ticks + 1) after
              rw [same request ticks uses.1 (Nat.le_refl _) later, stepped]
              exact ih reply (uses.2 reply) (fun other index permitted atLeast =>
                same other index permitted (Nat.le_of_succ_le atLeast))

theorem run_invariant (inv : σ → Prop)
    (kept : ∀ request time state, inv state → inv (object.step request time state).2)
    (program : Program sig α) (ticks : Nat) (state : σ) (start : inv state) :
    inv (run object clock program ticks state).state := by
  induction program generalizing ticks state with
  | done result => exact start
  | panic => exact start
  | call request next ih =>
      have after := kept request (clock ticks) state start
      simp only [run]
      cases stepped : object.step request (clock ticks) state with
      | mk reply last =>
          rw [stepped] at after
          cases reply with
          | none => exact after
          | some reply => exact ih reply (ticks + 1) last after

theorem run_uses_invariant {allowed : sig.Call → Prop} (inv : Nat → σ → Prop)
    (kept : ∀ request ticks state, allowed request → inv ticks state →
      inv (ticks + 1) (object.step request (clock ticks) state).2)
    {program : Program sig α} (uses : program.Uses allowed) {ticks : Nat} {state : σ}
    (start : inv ticks state) :
    inv (run object clock program ticks state).ticks (run object clock program ticks state).state := by
  induction program generalizing ticks state with
  | done result => exact start
  | panic => exact start
  | call request next ih =>
      have after := kept request ticks state uses.1 start
      simp only [run]
      cases stepped : object.step request (clock ticks) state with
      | mk reply last =>
          rw [stepped] at after
          cases reply with
          | none => exact after
          | some reply => exact ih reply (uses.2 reply) after

end Run

section Agreement

variable {sig : Signature} {Time σ τ α : Type} {object : Object sig Time σ}
  {image : Object sig Time τ} {clock : Nat → Time} {allowed : sig.Call → Prop}

/-- Where every allowed call is answered alike and keeps the states related, a program is
answered alike. -/
theorem run_agrees (related : Nat → σ → τ → Prop)
    (step : ∀ request ticks left right, allowed request → related ticks left right →
      (object.step request (clock ticks) left).1 = (image.step request (clock ticks) right).1 ∧
        related (ticks + 1) (object.step request (clock ticks) left).2
          (image.step request (clock ticks) right).2)
    {program : Program sig α} (uses : program.Uses allowed) {ticks : Nat} {left : σ} {right : τ}
    (start : related ticks left right) :
    (run object clock program ticks left).result = (run image clock program ticks right).result ∧
      (run object clock program ticks left).ticks = (run image clock program ticks right).ticks ∧
      related (run object clock program ticks left).ticks
        (run object clock program ticks left).state
        (run image clock program ticks right).state := by
  induction program generalizing ticks left right with
  | done result => exact ⟨rfl, rfl, start⟩
  | panic => exact ⟨rfl, rfl, start⟩
  | call request next ih =>
      have stepped := step request ticks left right uses.1 start
      simp only [run]
      rcases leftStep : object.step request (clock ticks) left with ⟨leftReply, leftAfter⟩
      rcases rightStep : image.step request (clock ticks) right with ⟨rightReply, rightAfter⟩
      rw [leftStep, rightStep] at stepped
      rcases stepped with ⟨same, after⟩
      cases same
      cases leftReply with
      | none => exact ⟨rfl, rfl, after⟩
      | some reply => exact ih reply (uses.2 reply) after

end Agreement

/-! ### Interleaving a pool of programs -/

def Program.ended : Option α → Program sig α
  | some result => .done result
  | none => .panic

theorem call_ne_ended {request : sig.Call} {next : sig.Reply request → Program sig α}
    {result : Option α} : Program.call request next ≠ .ended result := by
  intro same
  cases result <;> cases same

def Program.resume {request : sig.Call} (next : sig.Reply request → Program sig α) :
    Option (sig.Reply request) → Program sig α
  | some reply => next reply
  | none => .panic

/-- `Interleaved object clock pool ticks state results later after`: some order
of the calls of the programs in `pool` brings every program to its end.  A
program that panics has no result. -/
inductive Interleaved (object : Object sig Time σ) (clock : Nat → Time) :
    List (Program sig α) → Nat → σ → List (Option α) → Nat → σ → Prop where
  | finished (results : List (Option α)) (ticks : Nat) (state : σ) :
      Interleaved object clock (results.map .ended) ticks state results ticks state
  | step (before after : List (Program sig α)) (request : sig.Call)
      (next : sig.Reply request → Program sig α) (ticks : Nat) (state : σ)
      (results : List (Option α)) (later : Nat) (last : σ)
      (rest : Interleaved object clock
        (before ++ .resume next (object.step request (clock ticks) state).1 :: after)
        (ticks + 1) (object.step request (clock ticks) state).2 results later last) :
      Interleaved object clock (before ++ .call request next :: after) ticks state
        results later last

section Interleaving

variable {object : Object sig Time σ} {clock : Nat → Time}

theorem Interleaved.next_call {pool : List (Program sig α)} {ticks later : Nat}
    {state last : σ} {results : List (Option α)}
    (interleaved : Interleaved object clock pool ticks state results later last) :
    (pool = results.map .ended ∧ later = ticks ∧ last = state) ∨
      ∃ before request next after, pool = before ++ .call request next :: after ∧
        Interleaved object clock
          (before ++ .resume next (object.step request (clock ticks) state).1 :: after)
          (ticks + 1) (object.step request (clock ticks) state).2 results later last := by
  cases interleaved with
  | finished => exact Or.inl ⟨rfl, rfl, rfl⟩
  | step before after request next _ _ _ _ _ rest =>
      exact Or.inr ⟨before, request, next, after, rfl, rest⟩

theorem Interleaved.cons_ended {pool : List (Program sig α)} {ticks later : Nat}
    {state last : σ} {results : List (Option α)}
    (interleaved : Interleaved object clock pool ticks state results later last)
    (result : Option α) :
    Interleaved object clock (.ended result :: pool) ticks state (result :: results)
      later last := by
  induction interleaved with
  | finished results ticks state => exact .finished (result :: results) ticks state
  | step before after request next ticks state results later last rest ih =>
      exact .step (.ended result :: before) after request next ticks state (result :: results)
        later last ih

theorem Interleaved.cons_run (program : Program sig α) {pool : List (Program sig α)}
    {ticks later : Nat} {state last : σ} {results : List (Option α)}
    (rest : Interleaved object clock pool (run object clock program ticks state).ticks
      (run object clock program ticks state).state results later last) :
    Interleaved object clock (program :: pool) ticks state
      ((run object clock program ticks state).result :: results) later last := by
  induction program generalizing ticks state with
  | done result => exact rest.cons_ended (some result)
  | panic => exact rest.cons_ended none
  | call request next ih =>
      simp only [run] at rest ⊢
      refine .step [] pool request next ticks state _ later last ?_
      cases stepped : object.step request (clock ticks) state with
      | mk reply after =>
          rw [stepped] at rest
          cases reply with
          | none => exact rest.cons_ended none
          | some reply => exact ih reply rest

theorem interleaved_replicate (program : Program sig α) (inv : σ → Prop)
    (kept : ∀ ticks state, inv state → inv (run object clock program ticks state).state)
    (count ticks : Nat) (state : σ) (start : inv state) :
    ∃ results later last,
      Interleaved object clock (List.replicate count program) ticks state results later last ∧
      inv last ∧ ∀ result ∈ results, ∃ ticks state, inv state ∧
        result = (run object clock program ticks state).result := by
  induction count generalizing ticks state with
  | zero =>
      exact ⟨[], ticks, state, .finished [] ticks state, start, fun _ member => by cases member⟩
  | succ count ih =>
      rcases ih (run object clock program ticks state).ticks _ (kept ticks state start) with
        ⟨results, later, last, rest, stillInv, each⟩
      refine ⟨_, later, last, rest.cons_run program, stillInv, ?_⟩
      intro result member
      rcases List.mem_cons.mp member with here | there
      · exact ⟨ticks, state, start, here⟩
      · exact each result there

private theorem pair_split {request : sig.Call}
    {next : sig.Reply request → Program sig α} {before after : List (Program sig α)}
    {first second : Program sig α} (same : [first, second] = before ++ .call request next :: after) :
    (before = [] ∧ first = .call request next ∧ after = [second]) ∨
      (before = [first] ∧ second = .call request next ∧ after = []) := by
  cases before with
  | nil =>
      obtain ⟨rfl, rfl⟩ := List.cons.inj same
      exact Or.inl ⟨rfl, rfl, rfl⟩
  | cons head tail =>
      obtain ⟨rfl, rest⟩ := List.cons.inj same
      cases tail with
      | nil =>
          obtain ⟨rfl, rfl⟩ := List.cons.inj rest
          exact Or.inr ⟨rfl, rfl, rfl⟩
      | cons head' tail' =>
          have impossible := (List.cons.inj rest).2
          cases tail' <;> cases impossible

variable {ticks later : Nat} {state last : σ} {results : List (Option α)}

theorem Interleaved.left_call {request : sig.Call} {next : sig.Reply request → Program sig α}
    {second : Program sig α} {reply : Option (sig.Reply request)} {after : σ}
    (stepped : object.step request (clock ticks) state = (reply, after))
    (rest : Interleaved object clock [.resume next reply, second] (ticks + 1) after
      results later last) :
    Interleaved object clock [.call request next, second] ticks state results later last := by
  apply Interleaved.step [] [second] request next
  rw [stepped]
  exact rest

theorem Interleaved.right_call {first : Program sig α} {request : sig.Call}
    {next : sig.Reply request → Program sig α} {reply : Option (sig.Reply request)} {after : σ}
    (stepped : object.step request (clock ticks) state = (reply, after))
    (rest : Interleaved object clock [first, .resume next reply] (ticks + 1) after
      results later last) :
    Interleaved object clock [first, .call request next] ticks state results later last := by
  apply Interleaved.step [first] [] request next
  rw [stepped]
  exact rest

theorem ended_injective : Function.Injective (Program.ended : Option α → Program sig α) := by
  intro left right same
  cases left <;> cases right <;> cases same <;> rfl

/-- An invariant of two programs and the state between them, kept by each call of
the one and of the other, holds when both have ended. -/
theorem Interleaved.pair_invariant
    (inv : Program sig α → Program sig α → Nat → σ → Prop)
    (left : ∀ request (next : sig.Reply request → Program sig α) second ticks state,
      inv (.call request next) second ticks state →
      inv (.resume next (object.step request (clock ticks) state).1) second (ticks + 1)
        (object.step request (clock ticks) state).2)
    (right : ∀ first request (next : sig.Reply request → Program sig α) ticks state,
      inv first (.call request next) ticks state →
      inv first (.resume next (object.step request (clock ticks) state).1) (ticks + 1)
        (object.step request (clock ticks) state).2)
    {first second : Program sig α}
    (interleaved : Interleaved object clock [first, second] ticks state results later last)
    (start : inv first second ticks state) :
    ∃ leftResult rightResult, results = [leftResult, rightResult] ∧
      inv (.ended leftResult) (.ended rightResult) later last := by
  generalize pair : [first, second] = pool at interleaved
  induction interleaved generalizing first second with
  | finished results ticks state =>
      rcases results with _ | ⟨leftResult, _ | ⟨rightResult, _ | ⟨third, more⟩⟩⟩
      · cases pair
      · cases pair
      · cases pair
        exact ⟨leftResult, rightResult, rfl, start⟩
      · cases pair
  | step before after request next ticks state results later last rest ih =>
      rcases pair_split pair with ⟨rfl, rfl, rfl⟩ | ⟨rfl, rfl, rfl⟩
      · exact ih (left request next second ticks state start) rfl
      · exact ih (right first request next ticks state start) rfl

end Interleaving

/-! ### Projecting an object -/

/-- `view` maps one object to another as far as the allowed calls can tell. -/
structure Projection (object : Object sig Time σ) (image : Object sig Time τ)
    (allowed : sig.Call → Prop) (inv : σ → Prop) (view : σ → τ) : Prop where
  keeps : ∀ request time state, allowed request → inv state →
    inv (object.step request time state).2
  commutes : ∀ request time state, allowed request → inv state →
    image.step request time (view state) =
      ((object.step request time state).1, view (object.step request time state).2)

section Projecting

variable {object : Object sig Time σ} {image : Object sig Time τ}
  {allowed : sig.Call → Prop} {inv : σ → Prop} {view : σ → τ} {clock : Nat → Time}

theorem Projection.run (projection : Projection object image allowed inv view)
    (program : Program sig α) (uses : program.Uses allowed) (ticks : Nat) (state : σ)
    (start : inv state) :
    run image clock program ticks (view state) =
        { result := (run object clock program ticks state).result
          ticks := (run object clock program ticks state).ticks
          state := view (run object clock program ticks state).state } ∧
      inv (run object clock program ticks state).state := by
  induction program generalizing ticks state with
  | done result => exact ⟨rfl, start⟩
  | panic => exact ⟨rfl, start⟩
  | call request next ih =>
      have commutes := projection.commutes request (clock ticks) state uses.1 start
      have keeps := projection.keeps request (clock ticks) state uses.1 start
      simp only [AtomicProgram.run, commutes]
      cases stepped : object.step request (clock ticks) state with
      | mk reply after =>
          rw [stepped] at keeps
          cases reply with
          | none => exact ⟨rfl, keeps⟩
          | some reply => exact ih reply (uses.2 reply) (ticks + 1) after keeps

private theorem uses_resume {request : sig.Call} {next : sig.Reply request → Program sig α}
    (uses : (Program.call request next).Uses allowed) (reply : Option (sig.Reply request)) :
    (Program.resume next reply).Uses allowed := by
  cases reply with
  | none => trivial
  | some reply => exact uses.2 reply

private theorem pool_uses_resume {before after : List (Program sig α)} {request : sig.Call}
    {next : sig.Reply request → Program sig α}
    (uses : ∀ program ∈ before ++ .call request next :: after, program.Uses allowed)
    (reply : Option (sig.Reply request)) :
    ∀ program ∈ before ++ .resume next reply :: after, program.Uses allowed := by
  intro program member
  rcases List.mem_append.mp member with inBefore | inRest
  · exact uses program (List.mem_append_left _ inBefore)
  · rcases List.mem_cons.mp inRest with rfl | inAfter
    · exact uses_resume (uses _ (List.mem_append_right _ (List.mem_cons_self ..))) reply
    · exact uses program (List.mem_append_right _ (List.mem_cons_of_mem _ inAfter))

theorem Projection.interleaved (projection : Projection object image allowed inv view)
    {pool : List (Program sig α)} {ticks later : Nat} {state last : σ}
    {results : List (Option α)}
    (interleaved : Interleaved object clock pool ticks state results later last)
    (uses : ∀ program ∈ pool, program.Uses allowed) (start : inv state) :
    Interleaved image clock pool ticks (view state) results later (view last) := by
  induction interleaved with
  | finished results ticks state => exact .finished results ticks (view state)
  | step before after request next ticks state results later last rest ih =>
      have allowedRequest := (uses _ (List.mem_append_right _ (List.mem_cons_self ..))).1
      have commutes := projection.commutes request (clock ticks) state allowedRequest start
      refine .step before after request next ticks (view state) results later (view last) ?_
      rw [commutes]
      exact ih (pool_uses_resume uses _)
        (projection.keeps request (clock ticks) state allowedRequest start)

theorem Projection.lift (projection : Projection object image allowed inv view)
    {pool : List (Program sig α)} {ticks later : Nat} {state : σ} {seen last : τ}
    {results : List (Option α)}
    (interleaved : Interleaved image clock pool ticks seen results later last)
    (same : seen = view state) (uses : ∀ program ∈ pool, program.Uses allowed)
    (start : inv state) :
    ∃ final, Interleaved object clock pool ticks state results later final ∧
      view final = last := by
  induction interleaved generalizing state with
  | finished results ticks seen => exact ⟨state, .finished results ticks state, same.symm⟩
  | step before after request next ticks seen results later last rest ih =>
      have allowedRequest := (uses _ (List.mem_append_right _ (List.mem_cons_self ..))).1
      have commutes := projection.commutes request (clock ticks) state allowedRequest start
      subst same
      rw [commutes] at ih
      obtain ⟨final, reached, viewed⟩ := ih rfl (pool_uses_resume uses _)
        (projection.keeps request (clock ticks) state allowedRequest start)
      exact ⟨final, .step before after request next ticks state results later final reached,
        viewed⟩

end Projecting

@[reducible] def Signature.timed (sig : Signature) (Time : Type) : Signature where
  Call := sig.Call
  Reply := fun request => sig.Reply request × Time

def Object.timed (object : Object sig Time σ) : Object (sig.timed Time) Time σ where
  step := fun request now state =>
    ((object.step request now state).1.map (fun reply => (reply, now)),
      (object.step request now state).2)

def Program.timed : Time → Program sig α → Program (sig.timed Time) (α × Time)
  | last, .done result => .done (result, last)
  | _, .panic => .panic
  | _, .call request next => .call request (fun reply => (next reply.1).timed reply.2)

theorem Program.Uses.timed {allowed : sig.Call → Prop} {program : Program sig α}
    (uses : program.Uses allowed) (last : Time) :
    @Program.Uses (sig.timed Time) (α × Time) allowed (program.timed last) := by
  induction program generalizing last with
  | done result => trivial
  | panic => trivial
  | call request next ih => exact ⟨uses.1, fun reply => ih reply.1 (uses.2 reply.1) reply.2⟩

theorem Projection.timed {object : Object sig Time σ} {image : Object sig Time τ}
    {allowed : sig.Call → Prop} {inv : σ → Prop} {view : σ → τ}
    (projection : Projection object image allowed inv view) :
    Projection object.timed image.timed allowed inv view where
  keeps := fun request time state allowedRequest start =>
    projection.keeps request time state allowedRequest start
  commutes := by
    intro request time state allowedRequest start
    have commutes := projection.commutes request time state allowedRequest start
    unfold Object.timed
    simp only
    rw [commutes]

end AtomicProgram
