import TricPlus.Lib.RelyGuarantee
import TricPlus.Restoring

/-!
Lists of writes, deletes and lifetimes, made one after the other.

Such a list returns exactly when each of its calls can be answered on the bus it starts
from.  What it leaves of a key is decided by the last call about it; a key it does not
mention keeps its copy, and its row unless a write opens the database that holds it.
-/

namespace TricPlus

open Std (ExtTreeMap LawfulEqCmp)
open AtomicProgram
open ExpiringMap (Entry remains)
open PosixPath (Location)

def performAll : List DataBusCall → BusProgram Unit
  | [] => return ()
  | request :: rest => do
      let _ ← Program.perform dataBus request
      performAll rest

def DataBusCall.Updates : DataBusCall → Prop
  | .writeValue _ _ => True
  | .deleteValue _ => True
  | .writeTtl _ _ => True
  | _ => False

def SqliteBus.Accepts (site : Site) (bus : SqliteBus) : DataBusCall → Prop
  | .writeValue key _ => bus.Stores site key
  | _ => bus.Works

private theorem answers_iff_accepts {site : Site} {now : Instant} {bus : PermutiveBus}
    {request : DataBusCall} (updates : request.Updates) :
    bus.Answers site now request ↔ bus.persistent.Accepts site request := by
  cases request <;> first | exact Iff.rfl | exact updates.elim

section Lists

variable {site : Site} {clock : Nat → Instant} {start : SqliteBus} {ticks : Nat}
  {bus : PermutiveBus}

theorem Kept.accepts (kept : Kept site start bus.persistent) (request : DataBusCall) :
    bus.persistent.Accepts site request ↔ start.Accepts site request := by
  cases request <;> first | exact kept.stores _ | exact kept.works

theorem performAll_ends (kept : Kept site start bus.persistent) {calls : List DataBusCall}
    (updates : ∀ request ∈ calls, request.Updates) :
    Ends site clock start (performAll calls) ticks bus
      (∀ request ∈ calls, start.Accepts site request) (fun _ => True) := by
  induction calls generalizing ticks bus with
  | nil =>
      apply (Ends.done kept () trivial).congr
      simp only [List.not_mem_nil, false_implies, implies_true]
  | cons request calls ih =>
      rw [List.forall_mem_cons] at updates
      have first := ((Ends.call kept request : Ends site clock start
        (Program.perform dataBus request) ticks bus _ _).congr
          (answers_iff_accepts updates.1)).congr (kept.accepts request)
      have both := first.bind (fun _ _ _ keptAfter _ => ih keptAfter updates.2)
      apply both.congr
      rw [List.forall_mem_cons]

private theorem run_performAll_cons {request : DataBusCall} (calls : List DataBusCall)
    {reply : request.Reply} {middle : Nat} {between : PermutiveBus}
    (ran : run (bothTiers site) clock (PermutiveBus.call request) ticks bus =
      ⟨some reply, middle, between⟩) :
    run (bothTiers site) clock (onTiers (performAll (request :: calls))) ticks bus =
      run (bothTiers site) clock (onTiers (performAll calls)) middle between := by
  change run (bothTiers site) clock ((PermutiveBus.call request).bind
    (fun _ => onTiers (performAll calls))) ticks bus = _
  rw [run_bind, ran]

theorem performAll_append (first second : List DataBusCall) :
    performAll (first ++ second) = (performAll first).bind (fun _ => performAll second) := by
  induction first with
  | nil => rfl
  | cons request first ih =>
      change (Program.perform dataBus request).bind (fun _ => performAll (first ++ second)) =
        ((Program.perform dataBus request).bind (fun _ => performAll first)).bind
          (fun _ => performAll second)
      rw [ih, Program.bind_assoc]

private theorem run_performAll_append {first : List DataBusCall} (second : List DataBusCall)
    {middle : Nat} {between : PermutiveBus}
    (ran : run (bothTiers site) clock (onTiers (performAll first)) ticks bus =
      ⟨some (), middle, between⟩) :
    run (bothTiers site) clock (onTiers (performAll (first ++ second))) ticks bus =
      run (bothTiers site) clock (onTiers (performAll second)) middle between := by
  have program : onTiers (performAll (first ++ second)) =
      (onTiers (performAll first)).bind (fun _ => onTiers (performAll second)) := by
    rw [performAll_append]
    exact Program.translate_bind _ _ _
  rw [program, run_bind, ran]

/-! ### A key the calls do not mention -/

theorem performAll_uses_other {key : Bytes} {calls : List DataBusCall}
    (others : ∀ request ∈ calls, request.key? ≠ some key) :
    (onTiers (performAll calls)).Uses (NotAboutKey key) := by
  have each : ∀ request : DataBusCall, request.key? ≠ some key →
      (PermutiveBus.call request).Uses (NotAboutKey key) :=
    fun _ other => call_uses_other other
  apply Program.Uses.translate each
  induction calls with
  | nil => trivial
  | cons request calls ih =>
      rw [List.forall_mem_cons] at others
      exact ⟨others.1, fun _ => ih others.2⟩

theorem run_copy_kept (monotone : Monotone clock) {α : Type} {program : Program tiers α}
    {key : Bytes} (uses : program.Uses (NotAboutKey key)) :
    remains (clock (run (bothTiers site) clock program ticks bus).ticks)
        (run (bothTiers site) clock program ticks bus).state.transient.contents[key]? =
      remains (clock (run (bothTiers site) clock program ticks bus).ticks)
        bus.transient.contents[key]? := by
  apply run_uses_invariant (bothTiers site) clock
    (fun ticks after => remains (clock ticks) after.transient.contents[key]? =
      remains (clock ticks) bus.transient.contents[key]?) _ uses rfl
  intro call ticks after away same
  have ordered := monotone (Nat.le_succ ticks)
  have later : remains (clock (ticks + 1)) after.transient.contents[key]? =
      remains (clock (ticks + 1)) bus.transient.contents[key]? := by
    rw [← ExpiringMap.remains_remains ordered, same, ExpiringMap.remains_remains ordered]
  rcases call with ⟨tier, request⟩
  cases tier with
  | transient =>
      change remains _ (SoundTric.step request (clock ticks) after.transient).2.contents[key]? = _
      rw [SoundTric.step_contents, Reference.step_other away,
        ExpiringMap.remains_remains ordered]
      exact later
  | persistent => exact later

private theorem run_stored_kept {α : Type} {program : Program tiers α} {key : Bytes}
    (uses : program.Uses (NotAboutKey key)) :
    (run (bothTiers site) clock program ticks bus).state.persistent.stored site key =
        bus.persistent.stored site key ∧
      ((run (bothTiers site) clock program ticks bus).state.persistent.databases[namespaceOf
          key]? = none →
        bus.persistent.databases[namespaceOf key]? = none) := by
  apply run_uses_invariant (bothTiers site) clock
    (fun _ after => after.persistent.stored site key = bus.persistent.stored site key ∧
      (after.persistent.databases[namespaceOf key]? = none →
        bus.persistent.databases[namespaceOf key]? = none)) _ uses ⟨rfl, id⟩
  intro call ticks after away kept
  rcases call with ⟨tier, request⟩
  cases tier with
  | transient => exact kept
  | persistent =>
      have stepped := SqliteBus.step_other site away after.persistent
      exact ⟨stepped.1.trans kept.1, fun closed => kept.2 (stepped.2 closed)⟩

theorem row_of_isOpen (site : Site) {bus : SqliteBus} {key : Bytes}
    (isOpen : bus.databases[namespaceOf key]? ≠ none) : bus.row key = bus.stored site key := by
  rcases Option.ne_none_iff_exists'.mp isOpen with ⟨file, found⟩
  unfold SqliteBus.stored
  rw [SqliteBus.row_of_open found, SqliteBus.fileOf_of_open site found]

def LeavesClosed (space : Bytes) (call : TierCall) : Prop :=
  call.tier = .transient ∨
    ∀ about, call.request.written? = some about → namespaceOf about ≠ space

private theorem run_closed_kept {α : Type} {program : Program tiers α} {space : Bytes}
    (uses : program.Uses (LeavesClosed space)) (closed : bus.persistent.databases[space]? = none) :
    (run (bothTiers site) clock program ticks bus).state.persistent.databases[space]? = none := by
  apply run_uses_invariant (bothTiers site) clock
    (fun _ after => after.persistent.databases[space]? = none) _ uses closed
  intro call ticks after away closed
  rcases call with ⟨tier, request⟩
  cases tier with
  | transient => exact closed
  | persistent =>
      rcases away with impossible | away
      · cases impossible
      · apply SqliteBus.step_keeps site (fun after => after.databases[space]? = none) request closed
        · intro about written
          rcases SqliteBus.writeConnection_cases site after.persistent (namespaceOf about) with
            ⟨-, same⟩ | ⟨-, -, same⟩ | ⟨-, -, -, same⟩ | ⟨-, -, -, same⟩
          · rw [same]
            exact closed
          · rw [same]
            exact closed
          · rw [same]
            simp only [ExtTreeMap.getElem?_insert, LawfulEqCmp.compare_eq_iff_eq]
            rw [if_neg (away about written)]
            exact closed
          · rw [same]
            exact closed
        · intro middle about file change asked found changes closed
          rw [SqliteBus.updateTable_databases]
          exact closed

private theorem call_leavesClosed {space : Bytes} {request : DataBusCall}
    (updates : request.Updates)
    (away : ∀ about, request.written? = some about → namespaceOf about ≠ space) :
    (PermutiveBus.call request).Uses (LeavesClosed space) := by
  cases request with
  | writeValue key value => exact ⟨Or.inr away, fun _ => ⟨Or.inl rfl, fun _ => trivial⟩⟩
  | deleteValue key => exact ⟨Or.inl rfl, fun _ => ⟨Or.inr away, fun _ => trivial⟩⟩
  | writeTtl key duration =>
      have reads : ∀ about, (DataBusCall.readValue key).written? = some about →
          namespaceOf about ≠ space := by
        intro about written
        cases written
      have deletes : ∀ about, (DataBusCall.deleteValue key).written? = some about →
          namespaceOf about ≠ space := by
        intro about written
        cases written
      refine ⟨Or.inr reads, ?_⟩
      intro reply
      cases reply with
      | none => exact ⟨Or.inl rfl, fun _ => trivial⟩
      | some value =>
          exact ⟨Or.inr deletes, fun _ => ⟨Or.inl rfl, fun _ => ⟨Or.inl rfl, fun _ => trivial⟩⟩⟩
  | readValue key => exact updates.elim
  | deleteValueIfMatch key expected => exact updates.elim
  | writeValueWithTtl key value duration => exact updates.elim
  | readTtlRemaining key => exact updates.elim
  | findByPrefix stem => exact updates.elim

private theorem performAll_leavesClosed {space : Bytes} {calls : List DataBusCall}
    (updates : ∀ request ∈ calls, request.Updates)
    (away : ∀ request ∈ calls, ∀ about, request.written? = some about →
      namespaceOf about ≠ space) :
    (onTiers (performAll calls)).Uses (LeavesClosed space) := by
  have each : ∀ request : DataBusCall, (request.Updates ∧ ∀ about,
      request.written? = some about → namespaceOf about ≠ space) →
      (PermutiveBus.call request).Uses (LeavesClosed space) :=
    fun _ both => call_leavesClosed both.1 both.2
  apply Program.Uses.translate each
  induction calls with
  | nil => trivial
  | cons request calls ih =>
      rw [List.forall_mem_cons] at updates away
      exact ⟨⟨updates.1, away.1⟩, fun _ => ih updates.2 away.2⟩

private theorem run_erase (sound : bus.persistent.Works) (attached : bus.persistent.Attached)
    (key : Bytes) :
    ∃ after, run (bothTiers site) clock (PermutiveBus.call (.deleteValue key)) ticks bus =
        ⟨some (), ticks + 2, after⟩ ∧
      after.cell site key = { bus.cell site key with copy := none, row := none } := by
  have onCell := run_cell site clock (rfl : (DataBusCall.deleteValue key).key? = some key)
    ticks attached
  rw [show run oneCell clock (PermutiveBus.call (.deleteValue key)) ticks
    (bus.cell site key) = _ from
      @run_deleteValue clock ticks (bus.cell site key) sound key] at onCell
  rcases ran : run (bothTiers site) clock (PermutiveBus.call (.deleteValue key)) ticks bus
    with ⟨result, later, after⟩
  rw [ran] at onCell
  cases congrArg Outcome.result onCell
  cases congrArg Outcome.ticks onCell
  exact ⟨after, rfl, (congrArg Outcome.state onCell).symm⟩

theorem performAll_returns (kept : Kept site start bus.persistent) {calls : List DataBusCall}
    (updates : ∀ request ∈ calls, request.Updates)
    (accepted : ∀ request ∈ calls, start.Accepts site request) :
    ∃ later after, run (bothTiers site) clock (onTiers (performAll calls)) ticks bus =
        ⟨some (), later, after⟩ ∧ Kept site start after.persistent := by
  rcases (@performAll_ends site clock start ticks bus kept calls updates).returns accepted with
    ⟨result, later, after, ran, keptAfter, -⟩
  exact ⟨later, after, ran, keptAfter⟩

variable {calls front back : List DataBusCall} {key value : Bytes} {later : Nat}
  {after : PermutiveBus}

theorem row_kept (others : ∀ request ∈ calls, request.key? ≠ some key)
    (isOpen : bus.persistent.databases[namespaceOf key]? ≠ none)
    (ran : run (bothTiers site) clock (onTiers (performAll calls)) ticks bus =
      ⟨some (), later, after⟩) :
    after.persistent.databases[namespaceOf key]? ≠ none ∧
      after.persistent.row key = bus.persistent.row key := by
  have kept := @run_stored_kept site clock ticks bus _ _ key (performAll_uses_other others)
  rw [ran] at kept
  have stillOpen : after.persistent.databases[namespaceOf key]? ≠ none :=
    fun closed => isOpen (kept.2 closed)
  refine ⟨stillOpen, ?_⟩
  rw [row_of_isOpen site stillOpen, row_of_isOpen site isOpen]
  exact kept.1

theorem copy_kept (monotone : Monotone clock)
    (others : ∀ request ∈ calls, request.key? ≠ some key)
    (ran : run (bothTiers site) clock (onTiers (performAll calls)) ticks bus =
      ⟨some (), later, after⟩) :
    remains (clock later) after.transient.contents[key]? =
      remains (clock later) bus.transient.contents[key]? := by
  have kept := @run_copy_kept site clock ticks bus monotone _ _ key (performAll_uses_other others)
  rw [ran] at kept
  exact kept

theorem isOpen_of_row {bus : SqliteBus} (row : bus.row key = some value) :
    bus.databases[namespaceOf key]? ≠ none := by
  intro closed
  cases (SqliteBus.row_of_not_open closed).symm.trans row

theorem performAll_write (monotone : Monotone clock) (kept : Kept site start bus.persistent)
    (updates : ∀ request ∈ front ++ .writeValue key value :: back, request.Updates)
    (accepted : ∀ request ∈ front ++ .writeValue key value :: back, start.Accepts site request)
    (others : ∀ request ∈ back, request.key? ≠ some key)
    (ran : run (bothTiers site) clock (onTiers (performAll
      (front ++ .writeValue key value :: back))) ticks bus = ⟨some (), later, after⟩) :
    remains (clock later) after.transient.contents[key]? = none ∧
      after.persistent.row key = some value := by
  rcases @performAll_returns site clock start ticks bus kept front
    (fun request member => updates request (List.mem_append_left _ member))
    (fun request member => accepted request (List.mem_append_left _ member)) with
    ⟨middle, between, frontRan, keptFront⟩
  have stores : start.Stores site key :=
    accepted _ (List.mem_append_right _ (List.mem_cons_self ..))
  have storesNow := (keptFront.stores key).mpr stores
  rcases @run_store site clock middle between storesNow.1 keptFront.attached key storesNow.2
    value with ⟨written, wrote, cell⟩
  rw [run_performAll_append _ frontRan, run_performAll_cons back wrote] at ran
  have row : written.persistent.row key = some value := congrArg Cell.row cell
  have copy : written.transient.contents[key]? = none := congrArg Cell.copy cell
  constructor
  · rw [copy_kept monotone others ran, copy]
    rfl
  · rw [(row_kept others (isOpen_of_row row) ran).2, row]

theorem performAll_delete (monotone : Monotone clock) (kept : Kept site start bus.persistent)
    (updates : ∀ request ∈ front ++ .deleteValue key :: back, request.Updates)
    (accepted : ∀ request ∈ front ++ .deleteValue key :: back, start.Accepts site request)
    (others : ∀ request ∈ back, request.key? ≠ some key)
    (away : ∀ request ∈ back, ∀ about, request.written? = some about →
      namespaceOf about ≠ namespaceOf key)
    (ran : run (bothTiers site) clock (onTiers (performAll
      (front ++ .deleteValue key :: back))) ticks bus = ⟨some (), later, after⟩) :
    (after.cell site key).Absent (clock later) := by
  rcases @performAll_returns site clock start ticks bus kept front
    (fun request member => updates request (List.mem_append_left _ member))
    (fun request member => accepted request (List.mem_append_left _ member)) with
    ⟨middle, between, frontRan, keptFront⟩
  have works : start.Works := accepted _ (List.mem_append_right _ (List.mem_cons_self ..))
  rcases @run_erase site clock middle between (keptFront.works.mpr works) keptFront.attached
    key with ⟨erased, ranErase, cell⟩
  rw [run_performAll_append _ frontRan, run_performAll_cons back ranErase] at ran
  have noRow : erased.persistent.row key = none := congrArg Cell.row cell
  have noCopy : erased.transient.contents[key]? = none := congrArg Cell.copy cell
  constructor
  · change remains (clock later) after.transient.contents[key]? = none
    rw [copy_kept monotone others ran, noCopy]
    rfl
  · change after.persistent.row key = none
    by_cases closed : erased.persistent.databases[namespaceOf key]? = none
    · have stillClosed := @run_closed_kept site clock (middle + 2) erased _ _ _
        (performAll_leavesClosed (fun request member => updates request
          (List.mem_append_right _ (List.mem_cons_of_mem _ member))) away) closed
      rw [ran] at stillClosed
      exact SqliteBus.row_of_not_open stillClosed
    · rw [(row_kept others closed ran).2, noRow]

/-- Some call opens the database of the key, if it is not open. -/
def Opens (calls : List DataBusCall) (key : Bytes) : Prop :=
  ∃ request ∈ calls, ∃ about, request.written? = some about ∧ namespaceOf about = namespaceOf key

/-- A key the calls do not mention keeps its row; a row of a database that they open comes
to light. -/
theorem performAll_other (kept : Kept site start bus.persistent)
    (updates : ∀ request ∈ calls, request.Updates)
    (accepted : ∀ request ∈ calls, start.Accepts site request)
    (others : ∀ request ∈ calls, request.key? ≠ some key)
    (ran : run (bothTiers site) clock (onTiers (performAll calls)) ticks bus =
      ⟨some (), later, after⟩) :
    (Opens calls key → after.persistent.row key = bus.persistent.stored site key) ∧
      (¬ Opens calls key → after.persistent.row key = bus.persistent.row key) := by
  constructor
  · intro opens
    have same := @run_stored_kept site clock ticks bus _ _ key (performAll_uses_other others)
    rw [ran] at same
    rw [row_of_isOpen site _]
    · exact same.1
    · rcases opens with ⟨request, member, about, written, space⟩
      rcases List.append_of_mem member with ⟨front, back, split⟩
      cases request with
      | writeValue stored value =>
          cases written
          rw [split] at ran updates accepted
          rcases @performAll_returns site clock start ticks bus kept front
            (fun request member => updates request (List.mem_append_left _ member))
            (fun request member => accepted request (List.mem_append_left _ member)) with
            ⟨middle, between, frontRan, keptFront⟩
          have stores : start.Stores site about :=
            accepted _ (List.mem_append_right _ (List.mem_cons_self ..))
          have storesNow := (keptFront.stores about).mpr stores
          rcases @run_store site clock middle between storesNow.1 keptFront.attached about
            storesNow.2 value with ⟨stored, wrote, cell⟩
          rw [run_performAll_append _ frontRan, run_performAll_cons back wrote] at ran
          have isOpen := isOpen_of_row (congrArg Cell.row cell :
            stored.persistent.row about = some value)
          rw [space] at isOpen
          have backOthers : ∀ request ∈ back, request.key? ≠ some key := by
            intro request inBack
            apply others request
            rw [split]
            exact List.mem_append_right _ (List.mem_cons_of_mem _ inBack)
          exact (row_kept backOthers isOpen ran).1
      | readValue read => cases written
      | deleteValue deleted => cases written
      | deleteValueIfMatch deleted expected => cases written
      | writeTtl dated duration => cases written
      | writeValueWithTtl stored value duration => exact (updates _ member).elim
      | readTtlRemaining read => cases written
      | findByPrefix stem => cases written
  · intro opensNot
    by_cases closed : bus.persistent.databases[namespaceOf key]? = none
    · have away : ∀ request ∈ calls, ∀ about, request.written? = some about →
          namespaceOf about ≠ namespaceOf key :=
        fun request member about written space => opensNot ⟨request, member, about, written, space⟩
      have stillClosed := @run_closed_kept site clock ticks bus _ _ _
        (performAll_leavesClosed updates away) closed
      rw [ran] at stillClosed
      rw [SqliteBus.row_of_not_open stillClosed, SqliteBus.row_of_not_open closed]
    · exact (row_kept others closed ran).2

end Lists

section OneMap

variable {site : Site} {clock : Nat → Instant} {ticks : Nat} {bus : PermutiveBus}
  {contents : Reference}

end OneMap

/-! ### Equal lists -/

private theorem reply_nonempty (request : DataBusCall) : Nonempty request.Reply := by
  cases request <;> exact ⟨default⟩

theorem performAll_injective {α : Type} {left right : List DataBusCall} {first second : α}
    (same : (performAll left).bind (fun _ => .done first) =
      (performAll right).bind (fun _ => .done second)) : left = right ∧ first = second := by
  induction left generalizing right with
  | nil =>
      cases right with
      | nil => exact ⟨rfl, Program.done.inj same⟩
      | cons request right => cases same
  | cons request left ih =>
      cases right with
      | nil => cases same
      | cons other right =>
          have calls : (@Program.call dataBus α request
              (fun _ => (performAll left).bind (fun _ => .done first))) =
              @Program.call dataBus α other
                (fun _ => (performAll right).bind (fun _ => .done second)) := same
          injection calls with sameRequest sameRest
          subst sameRequest
          rcases reply_nonempty request with ⟨reply⟩
          obtain ⟨rest, answers⟩ := ih (congrFun (eq_of_heq sameRest) reply)
          exact ⟨congrArg (List.cons request) rest, answers⟩

end TricPlus
