import TricPlus.Lib.RelyGuarantee

/-!
Objects that only collect, and programs over two objects.

Where the updates of an object commute, what it comes to does not depend on the order of
the programs that make them: after every interleaving it is what it is after the updates of
one program and then those of the next.  None is lost, and none is made twice.
-/

namespace AtomicProgram

variable {left right : Signature} {Time σ τ α β : Type}

abbrev Signature.sum (left right : Signature) : Signature where
  Call := left.Call ⊕ right.Call
  Reply := fun request =>
    match request with
    | .inl request => left.Reply request
    | .inr request => right.Reply request

/-- Each call goes to its object, and leaves the other one as it is. -/
def Object.beside (first : Object left Time σ) (second : Object right Time τ) :
    Object (left.sum right) Time (σ × τ) where
  step := fun request time state =>
    match request with
    | .inl request =>
        let (reply, after) := first.step request time state.1
        (reply, after, state.2)
    | .inr request =>
        let (reply, after) := second.step request time state.2
        (reply, state.1, after)

namespace Program

def onLeft : Program left α → Program (left.sum right) α
  | .done result => .done result
  | .panic => .panic
  | .call request next => .call (Sum.inl request) (fun reply => (next reply).onLeft)

def onRight : Program right α → Program (left.sum right) α
  | .done result => .done result
  | .panic => .panic
  | .call request next => .call (Sum.inr request) (fun reply => (next reply).onRight)

end Program

section Beside

variable (first : Object left Time σ) (second : Object right Time τ) (clock : Nat → Time)

theorem run_onLeft (program : Program left α) (ticks : Nat) (state : σ) (other : τ) :
    run (first.beside second) clock program.onLeft ticks (state, other) =
      ⟨(run first clock program ticks state).result, (run first clock program ticks state).ticks,
        (run first clock program ticks state).state, other⟩ := by
  induction program generalizing ticks state with
  | done result => rfl
  | panic => rfl
  | call request next ih =>
      rcases stepped : first.step request (clock ticks) state with ⟨reply, after⟩
      have here : (first.beside second).step (Sum.inl request) (clock ticks) (state, other) =
          (reply, after, other) := by
        simp only [Object.beside, stepped]
      cases reply with
      | none =>
          rw [Program.onLeft, run_call_panic _ _ here, run_call_panic _ _ stepped]
      | some reply =>
          rw [Program.onLeft, run_call_reply _ _ here, run_call_reply _ _ stepped]
          exact ih reply (ticks + 1) after

theorem run_onRight (program : Program right α) (ticks : Nat) (other : σ) (state : τ) :
    run (first.beside second) clock program.onRight ticks (other, state) =
      ⟨(run second clock program ticks state).result,
        (run second clock program ticks state).ticks, other,
        (run second clock program ticks state).state⟩ := by
  induction program generalizing ticks state with
  | done result => rfl
  | panic => rfl
  | call request next ih =>
      rcases stepped : second.step request (clock ticks) state with ⟨reply, after⟩
      have here : (first.beside second).step (Sum.inr request) (clock ticks) (other, state) =
          (reply, other, after) := by
        simp only [Object.beside, stepped]
      cases reply with
      | none =>
          rw [Program.onRight, run_call_panic _ _ here, run_call_panic _ _ stepped]
      | some reply =>
          rw [Program.onRight, run_call_reply _ _ here, run_call_reply _ _ stepped]
          exact ih reply (ticks + 1) after

end Beside

variable {sig : Signature} {U V : Type}

namespace Program

variable (update? : sig.Call → Option U)

/-- Whatever the replies, the program makes these updates, and comes to a good result. -/
def Records (good : α → Prop) : Program sig α → List U → Prop
  | .done result, updates => updates = [] ∧ good result
  | .panic, _ => True
  | .call request next, updates =>
      match update? request with
      | none => ∀ reply, (next reply).Records good updates
      | some update =>
          ∃ rest, updates = update :: rest ∧ ∀ reply, (next reply).Records good rest

variable {update?}

private theorem records_silent {good : α → Prop} {request : sig.Call}
    {next : sig.Reply request → Program sig α} {updates : List U}
    (silent : update? request = none) :
    (Program.call request next).Records update? good updates ↔
      ∀ reply, (next reply).Records update? good updates := by
  simp only [Records, silent]

theorem records_update {good : α → Prop} {request : sig.Call}
    {next : sig.Reply request → Program sig α} {updates : List U} {update : U}
    (made : update? request = some update) :
    (Program.call request next).Records update? good updates ↔
      ∃ rest, updates = update :: rest ∧ ∀ reply, (next reply).Records update? good rest := by
  simp only [Records, made]

theorem Records.bind {middle : α → Prop} {good : β → Prop} {program : Program sig α}
    {rest : α → Program sig β} {first second : List U}
    (earlier : program.Records update? middle first)
    (later : ∀ result, middle result → (rest result).Records update? good second) :
    (program.bind rest).Records update? good (first ++ second) := by
  induction program generalizing first with
  | done result =>
      rcases earlier with ⟨rfl, inside⟩
      exact later result inside
  | panic => trivial
  | call request next ih =>
      cases made : update? request with
      | none =>
          rw [records_silent made] at earlier
          exact (records_silent made).mpr (fun reply => ih reply (earlier reply))
      | some update =>
          rw [records_update made] at earlier
          rcases earlier with ⟨others, rfl, continues⟩
          exact (records_update made).mpr
            ⟨others ++ second, rfl, fun reply => ih reply (continues reply)⟩

theorem Records.after {middle : α → Prop} {good : β → Prop} {program : Program sig α}
    {rest : α → Program sig β} {updates : List U}
    (earlier : program.Records update? middle [])
    (later : ∀ result, middle result → (rest result).Records update? good updates) :
    (program.bind rest).Records update? good updates :=
  earlier.bind later

def rightUpdate? (update? : right.Call → Option U) : (left.sum right).Call → Option U
  | .inl _ => none
  | .inr request => update? request

theorem Yields.records_onLeft {update? : right.Call → Option U} {good : α → Prop}
    {program : Program left α} (yields : program.Yields good) :
    (program.onLeft : Program (left.sum right) α).Records (rightUpdate? update?) good [] := by
  induction program with
  | done result => exact ⟨rfl, yields⟩
  | panic => trivial
  | call request next ih => exact fun reply => ih reply (yields reply)

theorem Records.onRight {update? : right.Call → Option U} {good : α → Prop}
    {program : Program right α} {updates : List U}
    (records : program.Records update? good updates) :
    (program.onRight : Program (left.sum right) α).Records (rightUpdate? update?) good
      updates := by
  induction program generalizing updates with
  | done result => exact records
  | panic => trivial
  | call request next ih =>
      simp only [Program.onRight, Records, rightUpdate?]
      cases made : update? request with
      | none =>
          rw [records_silent made] at records
          exact fun reply => ih reply (records reply)
      | some update =>
          rw [records_update made] at records
          rcases records with ⟨others, rfl, continues⟩
          exact ⟨others, rfl, fun reply => ih reply (continues reply)⟩

end Program

/-- Every call changes what is looked at by its update only. -/
def Collects (object : Object sig Time σ) (update? : sig.Call → Option U) (act : V → U → V)
    (view : σ → V) : Prop :=
  ∀ request time state, view (object.step request time state).2 =
    match update? request with
    | none => view state
    | some update => act (view state) update

theorem Collects.beside {first : Object left Time σ} {second : Object right Time τ}
    {update? : right.Call → Option U} {act : V → U → V} {view : τ → V}
    (collects : Collects second update? act view) :
    Collects (first.beside second) (Program.rightUpdate? update?) act
      (fun state => view state.2) := by
  intro request time state
  cases request with
  | inl request => rfl
  | inr request => exact collects request time state.2

section Pools

variable {object : Object sig Time σ} {clock : Nat → Time} {update? : sig.Call → Option U}
  {act : V → U → V} {view : σ → V} {good : α → Prop}

/-- A program of a pool that has made some of its updates; one that has panicked makes no
more. -/
def Remaining (update? : sig.Call → Option U) (good : α → Prop) (program : Program sig α)
    (pair : List U × List U) : Prop :=
  ∃ rest, pair.2 = pair.1 ++ rest ∧ program.Records update? good rest

/-- A program that came to a result has made all its updates; one that panicked, the first
of them. -/
structure Gathered (good : α → Prop) (result : Option α) (pair : List U × List U) : Prop where
  first : pair.1 <+: pair.2
  all : result.isSome = true → pair.1 = pair.2
  good : ∀ value, result = some value → good value

theorem Remaining.ended {result : Option α} {pair : List U × List U}
    (remaining : Remaining update? good (.ended result) pair) : Gathered good result pair := by
  rcases remaining with ⟨rest, split, records⟩
  refine ⟨⟨rest, split.symm⟩, fun finished => ?_, fun value same => ?_⟩
  · rcases Option.isSome_iff_exists.mp finished with ⟨value, rfl⟩
    rw [split, records.1, List.append_nil]
  · subst same
    exact records.2

theorem Remaining.resume (collects : Collects object update? act view) {request : sig.Call}
    {next : sig.Reply request → Program sig α} {pair : List U × List U} (time : Time) (state : σ)
    (remaining : Remaining update? good (.call request next) pair) :
    ∃ made, Remaining update? good (.resume next (object.step request time state).1)
        (pair.1 ++ made, pair.2) ∧
      view (object.step request time state).2 = made.foldl act (view state) := by
  rcases remaining with ⟨rest, split, records⟩
  have changed := collects request time state
  cases update : update? request with
  | none =>
      rw [Program.records_silent update] at records
      rw [update] at changed
      refine ⟨[], ⟨rest, by rw [List.append_nil]; exact split, ?_⟩, changed⟩
      cases (object.step request time state).1 with
      | none => trivial
      | some reply => exact records reply
  | some made =>
      rw [Program.records_update update] at records
      rw [update] at changed
      rcases records with ⟨others, rfl, continues⟩
      refine ⟨[made], ⟨others, by rw [List.append_assoc]; exact split, ?_⟩, changed⟩
      cases (object.step request time state).1 with
      | none => trivial
      | some reply => exact continues reply

/-- Where the updates commute, every interleaving comes to what the programs come to one
after the other, each with the updates it has made. -/
theorem Interleaved.collected (collects : Collects object update? act view)
    (commute : ∀ value first second,
      act (act value first) second = act (act value second) first)
    {pool : List (Program sig α)} {pairs : List (List U × List U)} {ticks later : Nat}
    {state last : σ} {results : List (Option α)}
    (interleaved : Interleaved object clock pool ticks state results later last) (start : V)
    (remaining : List.Forall₂ (Remaining update? good) pool pairs)
    (so : view state = (pairs.flatMap Prod.fst).foldl act start) :
    ∃ finals, finals.map Prod.snd = pairs.map Prod.snd ∧
      List.Forall₂ (Gathered good) results finals ∧
        view last = (finals.flatMap Prod.fst).foldl act start := by
  induction interleaved generalizing pairs with
  | finished results ticks state =>
      rw [List.forall₂_map_left_iff] at remaining
      exact ⟨pairs, rfl, remaining.imp (fun _ _ left => left.ended), so⟩
  | step before after request next ticks state results later last rest ih =>
      rcases forall₂_split remaining with ⟨first, pair, second, rfl, inside, -, replace⟩
      rcases inside.resume collects (clock ticks) state with ⟨made, continues, changed⟩
      have again := ih (replace _ (pair.1 ++ made, pair.2) continues) ?_
      · rcases again with ⟨finals, same, recorded, ended⟩
        refine ⟨finals, ?_, recorded, ended⟩
        rw [same, List.map_append, List.map_append, List.map_cons, List.map_cons]
      · have moved : (first.flatMap Prod.fst ++ (pair.1 ++ second.flatMap Prod.fst) ++ made).Perm
            (first.flatMap Prod.fst ++ (pair.1 ++ made ++ second.flatMap Prod.fst)) := by
          rw [List.append_assoc, List.append_assoc, List.append_assoc]
          exact ((List.perm_append_comm).append_left _).append_left _
        rw [changed, so, ← List.foldl_append, List.flatMap_append, List.flatMap_cons,
          List.flatMap_append, List.flatMap_cons]
        exact moved.foldl_eq' (fun made _ other _ value => commute value made other) start

end Pools

end AtomicProgram
