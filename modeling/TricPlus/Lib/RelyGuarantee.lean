import TricPlus.Lib.AtomicProgram

/-!
What programs guarantee to each other.

A program relies on credible replies; as long as it gets these it makes only allowed
calls, and it comes to a good result.  Where allowed calls keep an invariant of the
object under which the replies are credible, the guarantees of the programs of a pool
hold in every interleaving of them.
-/

namespace AtomicProgram

variable {sig other : Signature} {Time σ α β : Type}

namespace Program

/-- Given credible replies, the program makes allowed calls and returns a good result.
It does not panic of itself. -/
def Guarantees (credible : (request : sig.Call) → sig.Reply request → Prop)
    (allowed : sig.Call → Prop) (good : α → Prop) : Program sig α → Prop
  | .done result => good result
  | .panic => False
  | .call request next => allowed request ∧
      ∀ reply, credible request reply → (next reply).Guarantees credible allowed good

section

variable {credible likely : (request : sig.Call) → sig.Reply request → Prop}
  {allowed wider : sig.Call → Prop} {good : α → Prop} {program : Program sig α}

theorem Guarantees.mono {better : α → Prop}
    (guarantees : program.Guarantees credible allowed good)
    (likelier : ∀ request reply, likely request reply → credible request reply)
    (weaker : ∀ request, allowed request → wider request)
    (carry : ∀ result, good result → better result) :
    program.Guarantees likely wider better := by
  induction program with
  | done result => exact carry result guarantees
  | panic => exact guarantees
  | call request next ih =>
      refine ⟨weaker request guarantees.1, fun reply plausibly => ?_⟩
      exact ih reply (guarantees.2 reply (likelier request reply plausibly))

theorem Guarantees.bind {middle : α → Prop} {goal : β → Prop} {rest : α → Program sig β}
    (first : program.Guarantees credible allowed middle)
    (second : ∀ result, middle result → (rest result).Guarantees credible allowed goal) :
    (program.bind rest).Guarantees credible allowed goal := by
  induction program with
  | done result => exact second result first
  | panic => exact first
  | call request next ih =>
      exact ⟨first.1, fun reply plausibly => ih reply (first.2 reply plausibly)⟩

/-- Implemented calls guarantee what the calls do, if their implementations return
credible replies. -/
theorem Guarantees.translate {later : (request : other.Call) → other.Reply request → Prop}
    {implement : (request : sig.Call) → Program other (sig.Reply request)}
    {permitted : other.Call → Prop}
    (each : ∀ request, allowed request →
      (implement request).Guarantees later permitted (credible request))
    (guarantees : program.Guarantees credible allowed good) :
    (program.translate implement).Guarantees later permitted good := by
  induction program with
  | done result => exact guarantees
  | panic => exact guarantees
  | call request next ih =>
      apply (each request guarantees.1).bind
      intro reply plausibly
      exact ih reply (guarantees.2 reply plausibly)

/-- Whatever the replies, the program makes allowed calls and returns. -/
def MakesOnly (allowed : sig.Call → Prop) (program : Program sig α) : Prop :=
  program.Guarantees (fun _ _ => True) allowed (fun _ => True)

theorem MakesOnly.mono (makes : program.MakesOnly allowed)
    (weaker : ∀ request, allowed request → wider request) : program.MakesOnly wider :=
  Guarantees.mono makes (fun _ _ _ => trivial) weaker (fun _ _ => trivial)

theorem MakesOnly.bind {rest : α → Program sig β} (first : program.MakesOnly allowed)
    (second : ∀ result, (rest result).MakesOnly allowed) :
    (program.bind rest).MakesOnly allowed :=
  Guarantees.bind first (fun result _ => second result)

theorem MakesOnly.guarantees (makes : program.MakesOnly allowed) :
    program.Guarantees credible allowed (fun _ => True) :=
  Guarantees.mono makes (fun _ _ _ => trivial) (fun _ permitted => permitted)
    (fun _ _ => trivial)

theorem MakesOnly.uses (makes : program.MakesOnly allowed) : program.Uses allowed := by
  induction program with
  | done result => trivial
  | panic => trivial
  | call request next ih => exact ⟨makes.1, fun reply => ih reply (makes.2 reply trivial)⟩

end

end Program

/-- Allowed calls keep the invariant, and where it holds they are answered plausibly. -/
def Sound (object : Object sig Time σ) (inv : σ → Prop) (allowed : sig.Call → Prop)
    (credible : (request : sig.Call) → sig.Reply request → Prop) : Prop :=
  ∀ request time state, allowed request → inv state →
    inv (object.step request time state).2 ∧
      ∀ reply, (object.step request time state).1 = some reply → credible request reply

section Pools

variable {object : Object sig Time σ} {clock : Nat → Time} {inv : σ → Prop}
  {allowed : sig.Call → Prop} {credible : (request : sig.Call) → sig.Reply request → Prop}

/-- What a program of a pool guarantees after one of its calls.  One that has panicked
guarantees nothing. -/
def Keeps (credible : (request : sig.Call) → sig.Reply request → Prop)
    (allowed : sig.Call → Prop) (program : Program sig α) (good : α → Prop) : Prop :=
  program = .panic ∨ program.Guarantees credible allowed good

theorem forall₂_split {γ δ : Type} {related : γ → δ → Prop} {before after : List γ} {item : γ}
    {images : List δ} (all : List.Forall₂ related (before ++ item :: after) images) :
    ∃ first image second, images = first ++ image :: second ∧ related item image ∧
      first.length = before.length ∧
      ∀ other otherImage, related other otherImage →
        List.Forall₂ related (before ++ other :: after) (first ++ otherImage :: second) := by
  induction before generalizing images with
  | nil =>
      cases all with
      | cons here rest =>
          exact ⟨[], _, _, rfl, here, rfl, fun other otherImage there => .cons there rest⟩
  | cons head before ih =>
      cases all with
      | cons here rest =>
          rcases ih rest with ⟨first, image, second, rfl, inside, long, replace⟩
          refine ⟨_ :: first, image, second, rfl, inside, ?_, fun other otherImage there => ?_⟩
          · rw [List.length_cons, List.length_cons, long]
          · exact .cons here (replace other otherImage there)

end Pools

end AtomicProgram
