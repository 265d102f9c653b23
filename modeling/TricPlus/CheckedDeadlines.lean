import TricPlus.KeyCell
import TricPlus.Namespaces

/-!
Deadlines that the clock can represent.

The transient tier adds a lifetime to the time of the call, and the sum panics if it lies past
the last instant there is.  The tier has purged by then, and what the call did before stays done.
-/

namespace TricPlus

open AtomicProgram

def lastInstant : Instant := 2 ^ 63 * 1000000000 - 1

def DataBusCall.lifetime? : DataBusCall → Option Duration
  | .writeTtl _ duration => some duration
  | .writeValueWithTtl _ _ duration => some duration
  | _ => none

/-- The deadline that a call computes lies past the last instant. -/
def DataBusCall.overflows (request : DataBusCall) (now : Instant) : Bool :=
  request.lifetime?.any (fun duration => decide (lastInstant < now + duration))

def checkedTiers (site : Site) : Object tiers Instant PermutiveBus where
  step := fun call now bus =>
    if call.tier = .transient ∧ call.request.overflows now = true then
      -- a scan purges and does nothing else
      (none, { bus with transient := (SoundTric.step (.findByPrefix []) now bus.transient).2 })
    else (bothTiers site).step call now bus

namespace PermutiveBus

/-- A read finds no value in the transient tier, and one in the persistent tier. -/
def promotes (bus : PermutiveBus) (now : Instant) (key : Bytes) : Bool :=
  (SoundTric.step (.readValue key) now bus.transient).1.isNone &&
    ((bus.persistent.readValue key).1.bind id).isSome

def given? (bus : PermutiveBus) (now : Instant) : DataBusCall → Option Duration
  | .readValue key =>
      if bus.promotes now key then some (fromSecs cachePromotionSeconds) else none
  | request => request.lifetime?

end PermutiveBus

/-- The lifetime fits behind the call's last clock reading, which is the one it is added to. -/
def deadlineFits (site : Site) (clock : Nat → Instant) (ticks : Nat) (bus : PermutiveBus)
    (request : DataBusCall) : Bool :=
  let outcome := run (bothTiers site) clock (PermutiveBus.call request) ticks bus
  (bus.given? (clock ticks) request).all
    (fun duration => decide (clock (outcome.ticks - 1) + duration ≤ lastInstant))

section Fitting

variable {site : Site} {clock : Nat → Instant} {ticks : Nat} {bus : PermutiveBus}

def AddsAtMost (bound : Option Duration) (call : TierCall) : Prop :=
  call.tier = .transient → ∀ duration, call.request.lifetime? = some duration →
    ∃ limit, bound = some limit ∧ duration ≤ limit

private theorem step_checked {call : TierCall} {now : Instant}
    (fits : call.tier = .transient → call.request.overflows now = false) (bus : PermutiveBus) :
    (checkedTiers site).step call now bus = (bothTiers site).step call now bus := by
  apply if_neg
  intro both
  cases (fits both.1).symm.trans both.2

private theorem not_overflows {request : DataBusCall} {now : Instant}
    (fits : ∀ duration, request.lifetime? = some duration → now + duration ≤ lastInstant) :
    request.overflows now = false := by
  unfold DataBusCall.overflows
  cases given : request.lifetime? with
  | none => rfl
  | some duration => exact decide_eq_false (Nat.not_lt.mpr (fits duration given))

/-- A program whose lifetimes fit behind its last clock reading does the same on the tiers that
check. -/
theorem run_checked_of_uses (monotone : Monotone clock) {α : Type} {program : Program tiers α}
    {bound : Option Duration} (uses : program.Uses (AddsAtMost bound))
    (fits : ∀ limit, bound = some limit →
      clock ((run (bothTiers site) clock program ticks bus).ticks - 1) + limit ≤ lastInstant) :
    run (checkedTiers site) clock program ticks bus =
      run (bothTiers site) clock program ticks bus := by
  apply run_congr (bothTiers site) clock uses
  intro call index adds _ before between
  apply step_checked
  intro isTransient
  apply not_overflows
  intro duration given
  obtain ⟨limit, bounded, short⟩ := adds isTransient duration given
  have early := monotone (Nat.le_sub_one_of_lt before)
  exact (Nat.add_le_add early short).trans (fits limit bounded)

private theorem call_uses_addsAtMost {request : DataBusCall} {bound : Option Duration}
    (notRead : ∀ key, request ≠ .readValue key) (given : request.lifetime? = bound) :
    (PermutiveBus.call request).Uses (AddsAtMost bound) := by
  have persistent : ∀ request, AddsAtMost bound ⟨.persistent, request⟩ := by
    intro request isTransient
    cases isTransient
  have plain : ∀ request : DataBusCall, request.lifetime? = none →
      AddsAtMost bound ⟨.transient, request⟩ := by
    intro request none _ duration some
    cases none.symm.trans some
  cases request with
  | readValue key => exact absurd rfl (notRead key)
  | writeValue key value => exact ⟨persistent _, fun _ => ⟨plain _ rfl, fun _ => trivial⟩⟩
  | deleteValue key => exact ⟨plain _ rfl, fun _ => ⟨persistent _, fun _ => trivial⟩⟩
  | deleteValueIfMatch key expected =>
      exact ⟨plain _ rfl, fun _ => ⟨persistent _, fun _ => trivial⟩⟩
  | findByPrefix stem => exact ⟨plain _ rfl, fun _ => ⟨persistent _, fun _ => trivial⟩⟩
  | readTtlRemaining key => exact ⟨plain _ rfl, fun _ => trivial⟩
  | writeTtl key duration =>
      have adds : AddsAtMost bound ⟨.transient, .writeTtl key duration⟩ := by
        intro _ other some
        cases some
        exact ⟨duration, given.symm, Nat.le_refl _⟩
      refine ⟨persistent _, fun reply => ?_⟩
      cases reply with
      | none => exact ⟨adds, fun _ => trivial⟩
      | some value =>
          exact ⟨persistent _, fun _ => ⟨plain _ rfl, fun _ => ⟨adds, fun _ => trivial⟩⟩⟩
  | writeValueWithTtl key value duration =>
      refine ⟨persistent _, fun _ => ⟨?_, fun _ => trivial⟩⟩
      intro _ other some
      cases some
      exact ⟨duration, given.symm, Nat.le_refl _⟩

private theorem readValue_uses_addsAtMost (key : Bytes) :
    (PermutiveBus.readValue key).Uses (AddsAtMost (some (fromSecs cachePromotionSeconds))) := by
  refine ⟨fun _ duration none => (by cases none), fun reply => ?_⟩
  cases reply with
  | some value => trivial
  | none =>
      refine ⟨fun isTransient => (by cases isTransient), fun reply => ?_⟩
      cases reply with
      | none => trivial
      | some value =>
          refine ⟨fun _ duration none => (by cases none), fun _ => ⟨?_, fun _ => trivial⟩⟩
          intro _ duration some
          cases some
          exact ⟨_, rfl, Nat.le_refl _⟩

private theorem run_readValue_checked {key : Bytes}
    (kept : bus.promotes (clock ticks) key = false) :
    run (checkedTiers site) clock (PermutiveBus.readValue key) ticks bus =
      run (bothTiers site) clock (PermutiveBus.readValue key) ticks bus := by
  have quiet : ∀ tier now between, (checkedTiers site).step ⟨tier, .readValue key⟩ now between =
      (bothTiers site).step ⟨tier, .readValue key⟩ now between :=
    fun tier now between => step_checked (fun _ => rfl) between
  unfold PermutiveBus.promotes at kept
  unfold PermutiveBus.readValue onTransient onPersistent
  rcases found : SoundTric.step (.readValue key) (clock ticks) bus.transient with ⟨reply, after⟩
  have first : (bothTiers site).step ⟨.transient, .readValue key⟩ (clock ticks) bus =
      (some reply, { bus with transient := after }) := by
    simp only [bothTiers, found]
  rw [found] at kept
  rw [Program.perform_bind, run_call_reply _ _ ((quiet _ _ _).trans first),
    run_call_reply _ _ first]
  cases reply with
  | some value => rfl
  | none =>
      rcases stored : bus.persistent.readValue key with ⟨row, persistent⟩
      have second : (bothTiers site).step ⟨.persistent, .readValue key⟩ (clock (ticks + 1))
          { bus with transient := after } = (row, ⟨after, persistent⟩) := by
        simp only [bothTiers, SqliteBus.step, stored]
      rw [stored] at kept
      rw [Program.perform_bind]
      rcases row with _ | _ | value
      · rw [run_call_panic _ _ ((quiet _ _ _).trans second), run_call_panic _ _ second]
      · rw [run_call_reply _ _ ((quiet _ _ _).trans second), run_call_reply _ _ second]
        rfl
      · cases kept

theorem run_checked (monotone : Monotone clock) {request : DataBusCall}
    (fits : deadlineFits site clock ticks bus request = true) :
    run (checkedTiers site) clock (PermutiveBus.call request) ticks bus =
      run (bothTiers site) clock (PermutiveBus.call request) ticks bus := by
  have within : ∀ limit, bus.given? (clock ticks) request = some limit →
      clock ((run (bothTiers site) clock (PermutiveBus.call request) ticks bus).ticks - 1) + limit ≤
        lastInstant := by
    intro limit given
    unfold deadlineFits at fits
    rw [given] at fits
    exact of_decide_eq_true fits
  by_cases isRead : ∃ key, request = .readValue key
  · rcases isRead with ⟨key, rfl⟩
    cases promotes : bus.promotes (clock ticks) key with
    | false => exact run_readValue_checked promotes
    | true =>
        apply run_checked_of_uses monotone (readValue_uses_addsAtMost key)
        intro limit same
        cases same
        exact within _ (if_pos promotes)
  · have notRead : ∀ key, request ≠ .readValue key := fun key same => isRead ⟨key, same⟩
    apply run_checked_of_uses monotone (call_uses_addsAtMost notRead rfl)
    intro limit given
    apply within
    cases request <;> first | exact given | exact absurd rfl (notRead _)

end Fitting

end TricPlus
