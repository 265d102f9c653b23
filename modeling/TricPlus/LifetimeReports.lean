import TricPlus.DumpRestore
import TricPlus.Export

/-!
What a key's lifetime is reported as, by the bus, `INSPECT`, the commands `inspect` and
`dump`, and the export.

All of them ask the transient tier.  There a key with a deadline is held under just this
deadline, but a key without one only as the copy of a read, whose minute is then taken
for a lifetime.
-/

namespace TricPlus

open AtomicProgram
open BigEndian
open ExpiringMap (Entry remains)

/-- What is left of a lifetime at a reading. -/
def timeLeft (lifetime : Option Instant) (reading : Instant) : Option Duration :=
  lifetime.bind (fun deadline => if reading < deadline then some (deadline - reading) else none)

/-! ### The reports -/

/-- The text of the command `inspect`. -/
def inspectText (key value : Bytes) (remaining : Option Duration) : Bytes :=
  asBytes "key     " ++ key ++ asBytes "\nsize    " ++ showNat value.length ++
    asBytes "B\nttl     " ++ Cli.ttlInfo remaining ++ asBytes "\ntier    transient\n"

/-- Every report about the key gives what is left of this lifetime when it is made. -/
structure ReportsRight (site : Site) (clock : Nat → Instant) (bus : PermutiveBus) (key : Bytes)
    (lifetime : Option Instant) : Prop where
  remaining : (run (bothTiers site) clock (PermutiveBus.readTtlRemaining key) 0 bus).result =
    some (timeLeft lifetime (clock 0))
  inspected : ∀ request : Request, readField request.payload 0 = some key →
    ∃ value, (run (bothTiers site) clock (onTiers (Router.readInspect request)) 0 bus).result =
      some (createPayload request.requestId (lengthPrefixed value ++
        toBeBytes 8 (Router.remainingMillis (timeLeft lifetime (clock 1)))))
  rendered : ∃ value,
    (run (bothTiers site) clock (onTiers (Cli.renderInspect [key])) 0 bus).result =
      some (inspectText key value (timeLeft lifetime (clock 1)))
  dumped : ∀ (files : Files) (path : Bytes), files.create path = .ok () →
    ∃ (text : Bytes) (entries : List Dumped) (later : Nat) (after : PermutiveBus),
      run (bothTiers site) clock (onTiers (Cli.renderDump files [asBytes "-f", path])) 0 bus =
        ⟨some ⟨text, some (path, entries.flatMap Cli.dumpRecord)⟩, later, after⟩ ∧
      (∃ entry ∈ entries, entry.1.1 = key) ∧
      ∀ entry ∈ entries, entry.1.1 = key →
        ∃ reading, entry.2 = Router.remainingMillis (timeLeft lifetime (clock reading))
  archived : ∀ (tar : Tar) (turns : List Export.Turn),
    (run (bothTiers site) clock (onTiers (Export.writeAll tar)) 0 bus).result =
      some (.ok turns) →
    (∃ turn ∈ turns, turn.1.1 = key) ∧
      ∀ turn ∈ turns, turn.1.1 = key →
        ∃ reading data, turn.2 = data :: Export.ttlEntries key (timeLeft lifetime (clock reading))

def Asks (key : Bytes) (call : DataBusCall) : Prop :=
  call.key? = some key

def continued (site : Site) : List (Instant × DataBusCall) → PermutiveBus → PermutiveBus
  | [], bus => bus
  | (moment, request) :: calls, bus =>
      continued site calls
        (run (bothTiers site) (still moment) (PermutiveBus.call request) 0 bus).state

/-- Reads made now change no later report about the key, whatever is called in between:
whoever asks the bus about the key alone is answered as without them. -/
def ReadsUnnoticed (site : Site) (now : Instant) (bus : PermutiveBus) (key : Bytes) : Prop :=
  ∀ (reads : List Bytes) (calls : List (Instant × DataBusCall)) (future : Nat → Instant),
    Monotone future → (now :: (calls.map Prod.fst ++ [future 0])).Pairwise (· ≤ ·) →
    ∀ (α : Type) (report : BusProgram α), report.Uses (Asks key) →
      (run (bothTiers site) future (onTiers report) 0
        (continued site (reads.map (fun read => (now, .readValue read)) ++ calls) bus)).result =
      (run (bothTiers site) future (onTiers report) 0 (continued site calls bus)).result

def lookUp {α : Type} (key : Bytes) (finish : Bytes → Option Duration → α) (missing : α) :
    BusProgram α := do
  match ← DataBus.readValue key with
  | some value =>
      let remaining ← DataBus.readTtlRemaining key
      return finish value remaining
  | none => return missing

private theorem readInspect_eq {key : Bytes} {request : Request}
    (asked : readField request.payload 0 = some key) :
    Router.readInspect request = lookUp key
      (fun value remaining => createPayload request.requestId
        (lengthPrefixed value ++ toBeBytes 8 (Router.remainingMillis remaining)))
      (createOk request.requestId) := by
  unfold Router.readInspect
  rw [asked]
  rfl

private theorem renderInspect_eq (key : Bytes) :
    Cli.renderInspect [key] = lookUp key (inspectText key)
      (asBytes "key " ++ key ++ asBytes " not found\n") := rfl

private theorem lookUp_uses {α : Type} (key : Bytes) (finish : Bytes → Option Duration → α)
    (missing : α) : (lookUp key finish missing).Uses (Asks key) := by
  refine ⟨rfl, ?_⟩
  intro reply
  cases reply with
  | none => trivial
  | some value => exact ⟨rfl, fun _ => trivial⟩

section Run

variable {clock : Nat → Instant} {ticks : Nat} {bus : PermutiveBus} {key : Bytes}

private theorem run_readValue_copy (site : Site) (clock : Nat → Instant) (ticks : Nat)
    {entry : Entry Bytes Instant}
    (held : remains (clock ticks) bus.transient.contents[key]? = some entry) :
    ∃ transient : SoundTric,
      run (bothTiers site) clock (PermutiveBus.readValue key) ticks bus =
        ⟨some (some entry.value), ticks + 1, { bus with transient := transient }⟩ ∧
      ∀ other : Bytes,
        transient.contents[other]? = remains (clock ticks) bus.transient.contents[other]? := by
  refine ⟨(SoundTric.step (.readValue key) (clock ticks) bus.transient).2, ?_, ?_⟩
  · have reply : (SoundTric.step (.readValue key) (clock ticks) bus.transient).1 =
        some entry.value := by
      rw [SoundTric.step_reply]
      change ExpiringMap.value? key (ExpiringMap.purge (clock ticks) bus.transient.contents) = _
      rw [Reference.value?_purge, held]
      rfl
    unfold PermutiveBus.readValue onTransient
    rw [Program.perform_bind]
    simp only [run, bothTiers, reply]
    rfl
  · intro other
    rw [SoundTric.step_contents]
    exact ExpiringMap.getElem?_purge (clock ticks) bus.transient.contents other

private theorem remaining_of_copy {value : Bytes} {lifetime : Option Instant}
    (copy : bus.transient.contents[key]? = some ⟨value, lifetime⟩) (reading : Instant) :
    bus.remaining reading key = timeLeft lifetime reading := by
  unfold PermutiveBus.remaining timeLeft
  rw [copy]
  cases lifetime with
  | none => rfl
  | some deadline =>
      by_cases ahead : reading < deadline
      · rw [Option.bind_some, if_pos ahead]
        have live : remains reading (some (⟨value, some deadline⟩ : Entry Bytes Instant)) =
            some ⟨value, some deadline⟩ :=
          ExpiringMap.remains_eq_some.mpr ⟨rfl, decide_eq_true ahead⟩
        rw [live]
        rfl
      · rw [Option.bind_some, if_neg ahead]
        have gone : remains reading (some (⟨value, some deadline⟩ : Entry Bytes Instant)) = none := by
          rw [ExpiringMap.remains_some]
          exact if_neg (by rw [Entry.live_some, decide_eq_true_eq]; exact ahead)
        rw [gone]
        rfl

private theorem run_lookUp {α : Type} (site : Site) (monotone : Monotone clock) {value : Bytes}
    {lifetime : Option Instant} (copy : bus.transient.contents[key]? = some ⟨value, lifetime⟩)
    (live : remains (clock ticks) bus.transient.contents[key]? = some ⟨value, lifetime⟩)
    (finish : Bytes → Option Duration → α) (missing : α) :
    (run (bothTiers site) clock (onTiers (lookUp key finish missing)) ticks bus).result =
      some (finish value (timeLeft lifetime (clock (ticks + 1)))) := by
  rcases run_readValue_copy site clock ticks live with ⟨transient, ran, purged⟩
  rcases @run_readTtlRemaining site clock (ticks + 1) { bus with transient := transient } key with
    ⟨last, asked, -⟩
  have remaining : PermutiveBus.remaining (clock (ticks + 1)) { bus with transient := transient }
      key = timeLeft lifetime (clock (ticks + 1)) := by
    have same := @remaining_congr { bus with transient := transient } bus (clock (ticks + 1))
      (clock (ticks + 1)) (Nat.le_refl _) key
      (by
        rw [purged key]
        exact ExpiringMap.remains_remains (monotone (Nat.le_succ ticks)) _)
    rw [same, remaining_of_copy copy]
  have program : onTiers (lookUp key finish missing) =
      (PermutiveBus.readValue key).bind (fun found => onTiers
        (match found with
        | some value => do
            let remaining ← DataBus.readTtlRemaining key
            return finish value remaining
        | none => return missing)) := rfl
  rw [program, run_bind, ran]
  simp only
  change (run (bothTiers site) clock ((PermutiveBus.readTtlRemaining key).bind
    (fun remaining => .done (finish value remaining))) (ticks + 1)
    { bus with transient := transient }).result = _
  rw [run_bind, asked, remaining]
  rfl

private theorem run_lookUp_promoted {α : Type} {site : Site} {now : Instant}
    (attached : bus.persistent.Attached) (sound : bus.persistent.Works) {value : Bytes}
    (missed : remains now bus.transient.contents[key]? = none)
    (row : bus.persistent.row key = some value) (finish : Bytes → Option Duration → α)
    (missing : α) :
    (run (bothTiers site) (still now) (onTiers (lookUp key finish missing)) 0 bus).result =
      some (finish value (some (fromSecs cachePromotionSeconds))) := by
  have uses : (onTiers (lookUp key finish missing)).Uses (AboutKey key) :=
    Program.Uses.translate (fun request about => call_uses about) (lookUp_uses key finish missing)
  have onCell : (run oneCell (still now) (onTiers (lookUp key finish missing)) 0
        (bus.cell site key)).result =
      (run (bothTiers site) (still now) (onTiers (lookUp key finish missing)) 0 bus).result :=
    congrArg Outcome.result ((cellProjection site key).run _ uses 0 bus attached).1
  rw [← onCell]
  have program : onTiers (lookUp key finish missing) =
      (PermutiveBus.readValue key).bind (fun found => onTiers
        (match found with
        | some value => do
            let remaining ← DataBus.readTtlRemaining key
            return finish value remaining
        | none => return missing)) := rfl
  have ran := @run_readValue_promote (still now) 0 (bus.cell site key) sound key missed value row
  have kept : remains now (some (⟨value, some (now + fromSecs cachePromotionSeconds)⟩ :
      Entry Bytes Instant)) = some ⟨value, some (now + fromSecs cachePromotionSeconds)⟩ :=
    ExpiringMap.remains_eq_some.mpr ⟨rfl, decide_eq_true (Nat.lt_add_of_pos_right (by decide))⟩
  rw [program, run_bind, ran]
  change some (finish value (((remains now (some ⟨value, some (now +
    fromSecs cachePromotionSeconds)⟩)).bind Entry.deadline).map (fun deadline =>
      deadline - now))) = _
  rw [kept]
  change some (finish value (some (now + fromSecs cachePromotionSeconds - now))) = _
  rw [Nat.add_sub_cancel_left]

end Run

/-! ### Two buses with the same copy of a key -/

/-- The persistent tiers are the same, and so is the live copy of the key. -/
structure SameFor (now : Instant) (key : Bytes) (left right : PermutiveBus) : Prop where
  persistent : left.persistent = right.persistent
  copy : remains now left.transient.contents[key]? = remains now right.transient.contents[key]?

private theorem transientStep_congr {now : Instant} {copy other : Option (Entry Bytes Instant)}
    (same : remains now copy = remains now other) (request : DataBusCall)
    (row : Option Bytes) (usable poisoned : Bool) :
    Cell.transientStep request now ⟨copy, row, usable, poisoned⟩ =
      Cell.transientStep request now ⟨other, row, usable, poisoned⟩ := by
  cases request <;> simp only [Cell.transientStep, same]

namespace SameFor

variable {site : Site} {clock : Nat → Instant} {ticks : Nat} {key : Bytes}
  {left right : PermutiveBus}

theorem later_on {now later : Instant} (same : SameFor now key left right)
    (ordered : now ≤ later) : SameFor later key left right where
  persistent := same.persistent
  copy := by
    rw [← ExpiringMap.remains_remains ordered, same.copy, ExpiringMap.remains_remains ordered]

theorem step (monotone : Monotone clock) {call : TierCall} (about : AboutKey key call)
    (same : SameFor (clock ticks) key left right) :
    ((bothTiers site).step call (clock ticks) left).1 =
        ((bothTiers site).step call (clock ticks) right).1 ∧
      SameFor (clock (ticks + 1)) key ((bothTiers site).step call (clock ticks) left).2
        ((bothTiers site).step call (clock ticks) right).2 := by
  have ordered := monotone (Nat.le_succ ticks)
  rcases call with ⟨tier, request⟩
  cases tier with
  | transient =>
      have stepped : ∀ bus : PermutiveBus,
          (SoundTric.step request (clock ticks) bus.transient).1 =
            (Cell.transientStep request (clock ticks)
              ⟨bus.transient.contents[key]?, none, true, false⟩).1 ∧
          (SoundTric.step request (clock ticks) bus.transient).2.contents[key]? =
            (Cell.transientStep request (clock ticks)
              ⟨bus.transient.contents[key]?, none, true, false⟩).2.copy := by
        intro bus
        have cell := Reference.step_cell about (clock ticks) bus.transient.contents
          ⟨bus.transient.contents[key]?, none, true, false⟩ rfl
        rw [SoundTric.step_reply, SoundTric.step_contents]
        exact ⟨cell.1, congrArg Cell.copy cell.2⟩
      have congr := transientStep_congr same.copy request none true false
      constructor
      · exact congrArg some (((stepped left).1.trans (congrArg Prod.fst congr)).trans
          (stepped right).1.symm)
      · refine ⟨same.persistent, congrArg (remains (clock (ticks + 1))) ?_⟩
        exact ((stepped left).2.trans (congrArg (fun stepped => stepped.2.copy) congr)).trans
          (stepped right).2.symm
  | persistent =>
      have alike : SqliteBus.step site request left.persistent =
          SqliteBus.step site request right.persistent := by rw [same.persistent]
      have replies := congrArg Prod.fst alike
      have afters := congrArg Prod.snd alike
      exact ⟨replies, afters, (same.later_on ordered).copy⟩

theorem answered {α : Type} (monotone : Monotone clock) {program : Program tiers α}
    (uses : program.Uses (AboutKey key)) (same : SameFor (clock ticks) key left right) :
    (run (bothTiers site) clock program ticks left).result =
        (run (bothTiers site) clock program ticks right).result ∧
      (run (bothTiers site) clock program ticks left).ticks =
        (run (bothTiers site) clock program ticks right).ticks ∧
      SameFor (clock (run (bothTiers site) clock program ticks left).ticks) key
        (run (bothTiers site) clock program ticks left).state
        (run (bothTiers site) clock program ticks right).state :=
  run_agrees (fun ticks left right => SameFor (clock ticks) key left right)
    (fun _ _ _ _ about same => same.step monotone about) uses same

end SameFor

def SqliteBus.afterCall (site : Site) (request : DataBusCall) (bus : SqliteBus) : SqliteBus :=
  match request with
  | .writeValue key value => (SqliteBus.step site (.writeValue key value) bus).2
  | .deleteValue key => (SqliteBus.step site (.deleteValue key) bus).2
  | .deleteValueIfMatch key expected =>
      (SqliteBus.step site (.deleteValueIfMatch key expected) bus).2
  | .writeTtl key _ =>
      match (SqliteBus.step site (.readValue key) bus).1 with
      | some (some _) => (SqliteBus.step site (.deleteValue key) bus).2
      | _ => bus
  | .writeValueWithTtl key _ _ => (SqliteBus.step site (.deleteValue key) bus).2
  | _ => bus

private theorem readValue_keeps (bus : SqliteBus) (key : Bytes) : (bus.readValue key).2 = bus := by
  unfold SqliteBus.readValue SqliteBus.locked
  split
  · rfl
  · simp only
    split <;> rfl

private theorem findByPrefix_keeps (bus : SqliteBus) (stem : Bytes) :
    (bus.findByPrefix stem).2 = bus := by
  unfold SqliteBus.findByPrefix SqliteBus.locked
  split <;> rfl

private theorem run_onPersistent (site : Site) (clock : Nat → Instant) {α : Type}
    (request : DataBusCall)
    (next : request.Reply → Program tiers α) (ticks : Nat) (bus : PermutiveBus)
    (rest : ∀ reply later after,
      (run (bothTiers site) clock (next reply) later after).state.persistent = after.persistent) :
    (run (bothTiers site) clock (.call ⟨.persistent, request⟩ next) ticks bus).state.persistent =
      (SqliteBus.step site request bus.persistent).2 := by
  simp only [run, bothTiers]
  rcases SqliteBus.step site request bus.persistent with ⟨reply, after⟩
  cases reply with
  | none => rfl
  | some reply => exact rest reply _ _

def ChangesNoRow (call : TierCall) : Prop :=
  call.tier = .transient ∨ (∃ key, call.request = .readValue key) ∨
    ∃ stem, call.request = .findByPrefix stem

theorem run_changesNoRow (site : Site) (clock : Nat → Instant) {α : Type}
    {program : Program tiers α} (uses : program.Uses ChangesNoRow) (ticks : Nat)
    (bus : PermutiveBus) :
    (run (bothTiers site) clock program ticks bus).state.persistent = bus.persistent := by
  apply run_uses_invariant (bothTiers site) clock
    (fun _ after => after.persistent = bus.persistent) _ uses rfl
  intro call ticks after reads same
  rcases call with ⟨tier, request⟩
  rcases reads with onTransient | ⟨key, read⟩ | ⟨stem, scanned⟩
  · cases onTransient
    exact same
  · cases read
    cases tier with
    | transient => exact same
    | persistent => exact (readValue_keeps after.persistent key).trans same
  · cases scanned
    cases tier with
    | transient => exact same
    | persistent => exact (findByPrefix_keeps after.persistent stem).trans same

theorem readValue_changesNoRow (key : Bytes) :
    (PermutiveBus.readValue key).Uses ChangesNoRow := by
  refine ⟨Or.inl rfl, ?_⟩
  intro reply
  cases reply with
  | some value => trivial
  | none =>
      refine ⟨Or.inr (Or.inl ⟨key, rfl⟩), ?_⟩
      intro row
      cases row with
      | none => trivial
      | some value => exact ⟨Or.inl rfl, fun _ => ⟨Or.inl rfl, fun _ => trivial⟩⟩

private theorem findByPrefix_changesNoRow (stem : Bytes) :
    (PermutiveBus.findByPrefix stem).Uses ChangesNoRow :=
  ⟨Or.inl rfl, fun _ => ⟨Or.inr (Or.inr ⟨stem, rfl⟩), fun _ => trivial⟩⟩

private theorem run_writeTtl_persistent (site : Site) (clock : Nat → Instant) (key : Bytes)
    (duration : Duration) (ticks : Nat) (bus : PermutiveBus) :
    (run (bothTiers site) clock (PermutiveBus.writeTtl key duration) ticks bus).state.persistent =
      bus.persistent.afterCall site (.writeTtl key duration) := by
  have kept := readValue_keeps bus.persistent key
  have found := fun (value : Bytes) (ticks : Nat) (bus : PermutiveBus) =>
    @run_onPersistent site clock _ (.deleteValue key) (fun _ => do
      onTransient (.writeValue key value)
      onTransient (.writeTtl key duration)) ticks bus (fun _ _ _ => rfl)
  unfold SqliteBus.afterCall
  change (run (bothTiers site) clock (.call ⟨.persistent, .readValue key⟩ _) ticks
    bus).state.persistent = _
  simp only [run, bothTiers]
  change (SqliteBus.step site (.readValue key) bus.persistent).2 = bus.persistent at kept
  rcases stepped : SqliteBus.step site (.readValue key) bus.persistent with ⟨reply, after⟩
  rw [stepped] at kept
  cases kept
  rcases reply with _ | _ | value
  · rfl
  · rfl
  · exact found value (ticks + 1) bus

private theorem run_afterCall (site : Site) (clock : Nat → Instant) (request : DataBusCall)
    (ticks : Nat)
    (bus : PermutiveBus) :
    (run (bothTiers site) clock (PermutiveBus.call request) ticks bus).state.persistent =
      bus.persistent.afterCall site request := by
  cases request with
  | readValue key => exact run_changesNoRow site clock (readValue_changesNoRow key) ticks bus
  | writeValue key value =>
      exact run_onPersistent site clock (.writeValue key value) _ ticks bus (fun _ _ _ => rfl)
  | deleteValue key =>
      exact run_onPersistent site clock (.deleteValue key) _ _ _ (fun _ _ _ => rfl)
  | deleteValueIfMatch key expected =>
      exact run_onPersistent site clock (.deleteValueIfMatch key expected) _ _ _
        (fun _ _ _ => rfl)
  | writeTtl key duration => exact run_writeTtl_persistent site clock key duration ticks bus
  | writeValueWithTtl key value duration =>
      exact run_onPersistent site clock (.deleteValue key) _ ticks bus (fun _ _ _ => rfl)
  | readTtlRemaining key => rfl
  | findByPrefix stem =>
      exact run_changesNoRow site clock (findByPrefix_changesNoRow stem) ticks bus

private theorem run_copy_other {site : Site} {now : Instant} {key : Bytes} {request : DataBusCall}
    (other : request.key? ≠ some key) (ticks : Nat) (bus : PermutiveBus) :
    remains now (run (bothTiers site) (still now) (PermutiveBus.call request) ticks
      bus).state.transient.contents[key]? = remains now bus.transient.contents[key]? := by
  apply run_uses_invariant (bothTiers site) (still now)
    (fun _ after => remains now after.transient.contents[key]? =
      remains now bus.transient.contents[key]?) _ (call_uses_other other) rfl
  intro call ticks after away same
  rcases call with ⟨tier, request⟩
  cases tier with
  | transient =>
      change remains now (SoundTric.step request now after.transient).2.contents[key]? = _
      rw [SoundTric.step_contents, Reference.step_other away, ExpiringMap.remains_idem]
      exact same
  | persistent => exact same

namespace SameFor

variable {site : Site} {now : Instant} {key : Bytes} {left right : PermutiveBus}

theorem called (same : SameFor now key left right) (request : DataBusCall) :
    SameFor now key (run (bothTiers site) (still now) (PermutiveBus.call request) 0 left).state
      (run (bothTiers site) (still now) (PermutiveBus.call request) 0 right).state := by
  by_cases about : request.key? = some key
  · exact (@SameFor.answered site (still now) 0 key left right _ (still_monotone now) _
      (call_uses about) same).2.2
  · constructor
    · rw [run_afterCall, run_afterCall, same.persistent]
    · rw [run_copy_other about, run_copy_other about]
      exact same.copy

theorem continues (same : SameFor now key left right) {calls : List (Instant × DataBusCall)}
    {last : Instant} (inOrder : (now :: (calls.map Prod.fst ++ [last])).Pairwise (· ≤ ·)) :
    SameFor last key (continued site calls left) (continued site calls right) := by
  induction calls generalizing now left right with
  | nil =>
      have ordered := (List.pairwise_cons.mp inOrder).1 last (List.mem_singleton_self last)
      exact same.later_on ordered
  | cons call calls ih =>
      rcases call with ⟨moment, request⟩
      rw [List.map_cons, List.cons_append, List.pairwise_cons] at inOrder
      have ordered := inOrder.1 moment (List.mem_cons_self ..)
      exact ih ((same.later_on ordered).called request) inOrder.2

end SameFor

private theorem sameFor_read {site : Site} {now : Instant} {key : Bytes} {bus : PermutiveBus}
    (held : (remains now bus.transient.contents[key]?).isSome = true) (read : Bytes) :
    SameFor now key
      (run (bothTiers site) (still now) (PermutiveBus.call (.readValue read)) 0 bus).state
      bus := by
  refine ⟨run_changesNoRow site (still now) (readValue_changesNoRow read) 0 bus, ?_⟩
  by_cases mine : read = key
  · subst mine
    rcases Option.isSome_iff_exists.mp held with ⟨entry, copy⟩
    rcases run_readValue_copy site (still now) 0 copy with ⟨transient, ran, purged⟩
    change remains now (run (bothTiers site) (still now) (PermutiveBus.readValue read) 0
      bus).state.transient.contents[read]? = _
    rw [ran]
    change remains now transient.contents[read]? = _
    rw [purged]
    exact ExpiringMap.remains_idem now _
  · have other : (DataBusCall.readValue read).key? ≠ some key :=
      fun same => mine (Option.some_inj.mp same)
    exact run_copy_other other 0 bus

private theorem continued_append (site : Site) (first second : List (Instant × DataBusCall))
    (bus : PermutiveBus) :
    continued site (first ++ second) bus = continued site second (continued site first bus) := by
  induction first generalizing bus with
  | nil => rfl
  | cons call first ih => exact ih _

private theorem sameFor_reads {site : Site} {now : Instant} {key : Bytes} {bus : PermutiveBus}
    (held : (remains now bus.transient.contents[key]?).isSome = true) (reads : List Bytes) :
    SameFor now key
      (continued site (reads.map (fun read => (now, .readValue read))) bus) bus := by
  induction reads generalizing bus with
  | nil => exact ⟨rfl, rfl⟩
  | cons read reads ih =>
      have one := @sameFor_read site now key bus held read
      have rest := @ih _ (by rw [one.copy]; exact held)
      exact ⟨rest.persistent.trans one.persistent, rest.copy.trans one.copy⟩

private theorem readsUnnoticed {site : Site} {now : Instant} {key : Bytes} {bus : PermutiveBus}
    (held : (remains now bus.transient.contents[key]?).isSome = true) :
    ReadsUnnoticed site now bus key := by
  intro reads calls future monotone inOrder α report uses
  rw [continued_append]
  have same := @SameFor.continues site now key _ _ (@sameFor_reads site now key bus held reads)
    calls (future 0) inOrder
  have onTiersUses : (onTiers report).Uses (AboutKey key) :=
    Program.Uses.translate (fun request about => call_uses about) uses
  exact (same.answered monotone onTiersUses).1

/-! ### When the reports are right -/

/-- The mutex is in order, and the transient tier holds the key itself: without a deadline
where it was given none, and where it was given one until this lies behind.  A deadline
is exported for data keys only. -/
structure LifetimeShown (now : Instant) (bus : PermutiveBus) (key : Bytes)
    (lifetime : Option Instant) : Prop where
  works : bus.persistent.Works
  lasting : lifetime = none → ∃ value, bus.transient.contents[key]? = some ⟨value, none⟩
  ahead : ∀ deadline, lifetime = some deadline → now < deadline ∧ Export.DataKey key

section Right

variable {site : Site} {clock : Nat → Instant} {disk : Disk} {ticks : Nat} {bus : PermutiveBus}
  {lifetimes : Lifetimes} {key : Bytes}

theorem LifetimeShown.copy {now : Instant} {lifetime : Option Instant}
    (shown : LifetimeShown now bus key lifetime)
    (records : (bus.cell site key).Records now lifetime) :
    ∃ value, bus.transient.contents[key]? = some ⟨value, lifetime⟩ ∧
      remains now bus.transient.contents[key]? = some ⟨value, lifetime⟩ := by
  cases lifetime with
  | none =>
      rcases shown.lasting rfl with ⟨value, copy⟩
      exact ⟨value, copy, ExpiringMap.remains_eq_some.mpr ⟨copy, rfl⟩⟩
  | some deadline =>
      have ahead := (shown.ahead deadline rfl).1
      rcases records.dated deadline rfl ahead with ⟨value, copy⟩
      exact ⟨value, copy, ExpiringMap.remains_eq_some.mpr ⟨copy, decide_eq_true ahead⟩⟩

private theorem turn_right {lifetime : Option Instant}
    (data : ∀ deadline, lifetime = some deadline →
    Export.DataKey key) (value : Bytes) (reading : Instant) :
    ∃ entry, Export.turnEntries (key, value) (timeLeft lifetime reading) =
      entry :: Export.ttlEntries key (timeLeft lifetime reading) := by
  by_cases dataKey : Export.DataKey key
  · exact ⟨_, Export.turnEntries_of_data dataKey _⟩
  · rcases @Export.turnEntries_of_other (key, value) dataKey with ⟨entry, single⟩
    cases lifetime with
    | none => exact ⟨entry, single _⟩
    | some deadline => exact absurd (data deadline rfl) dataKey

private theorem mem_lifetimesFrom {start : Nat} {pairs : List (Bytes × Bytes)} {entry : Dumped}
    (member : entry ∈ lifetimesFrom clock bus start pairs) :
    ∃ reading, entry.2 = Router.remainingMillis (bus.remaining (clock reading) entry.1.1) := by
  induction pairs generalizing start with
  | nil => cases member
  | cons pair pairs ih =>
      unfold lifetimesFrom at member
      rcases List.mem_cons.mp member with here | later
      · rw [here]
        exact ⟨start, rfl⟩
      · exact ih later

private theorem right_of_shown {lifetime : Option Instant} (monotone : Monotone clock)
    (shown : LifetimeShown (clock 0) bus key lifetime)
    (records : (bus.cell site key).Records (clock 0) lifetime) :
    ReportsRight site clock bus key lifetime := by
  rcases shown.copy records with ⟨value, copy, live⟩
  have remaining := remaining_of_copy copy
  have shows : (bus.cell site key).value (clock 0) = some value := by
    have copy : remains (clock 0) (bus.cell site key).copy = some ⟨value, lifetime⟩ := live
    unfold Cell.value
    rw [copy]
  have listed := listed_of_value shows
  refine ⟨?_, ?_, ?_, ?_, ?_⟩
  · rcases @run_readTtlRemaining site clock 0 bus key with ⟨transient, asked, -⟩
    rw [asked, remaining]
  · intro request asked
    rw [readInspect_eq asked]
    exact ⟨value, run_lookUp site monotone copy live _ _⟩
  · exact ⟨value, run_lookUp site monotone copy live _ _⟩
  · intro files path created
    rcases run_renderDump monotone shown.works created with ⟨text, ended, transient, ran⟩
    refine ⟨text, _, ended, _, ran, ?_, ?_⟩
    · have pairs := @lifetimesFrom_pairs clock bus (0 + 2) (bus.listed (clock 0) [])
      rw [← pairs] at listed
      rcases List.mem_map.mp listed with ⟨entry, member, same⟩
      exact ⟨entry, member, congrArg Prod.fst same⟩
    · intro entry member about
      rcases mem_lifetimesFrom member with ⟨reading, millis⟩
      refine ⟨reading, ?_⟩
      rw [millis, about, remaining]
  · intro tar turns written
    rcases @Export.run_writeAll site clock 0 bus monotone shown.works tar with
      ⟨result, later, transient, ran, turnsAre, -⟩
    rw [ran] at written
    have same := turnsAre turns (Option.some_inj.mp written)
    have pairs := @Export.turnsFrom_pairs clock bus (0 + 2) (bus.listed (clock 0) [])
    rw [← same] at pairs
    constructor
    · rw [← pairs] at listed
      rcases List.mem_map.mp listed with ⟨turn, member, turnIs⟩
      exact ⟨turn, member, congrArg Prod.fst turnIs⟩
    · intro turn member about
      rw [same] at member
      rcases Export.mem_turnsFrom member with ⟨-, reading, -, entries⟩
      rcases turn with ⟨⟨about', held⟩, entries'⟩
      cases about
      rcases turn_right (fun deadline given => (shown.ahead deadline given).2) held
        (clock reading) with ⟨entry, turnEntries⟩
      refine ⟨reading, entry, ?_⟩
      simp only at entries ⊢
      rw [entries, remaining, turnEntries]

private theorem inspectText_promoted (value other : Bytes) :
    inspectText key value (some (fromSecs cachePromotionSeconds)) ≠ inspectText key other none := by
  intro same
  unfold inspectText at same
  have behind := List.append_cancel_right same
  have last := congrArg List.getLast? behind
  simp only [List.getLast?_append] at last
  have left : (Cli.ttlInfo (some (fromSecs cachePromotionSeconds))).getLast? = some 0x73 := by
    decide +kernel
  have right : (Cli.ttlInfo none).getLast? = some 0x29 := by
    decide +kernel
  rw [left, right] at last
  cases last

private theorem copy_of_right {now : Instant} {lifetime : Option Instant}
    (attached : bus.persistent.Attached) (works : bus.persistent.Works)
    (live : ((bus.cell site key).value now).isSome = true)
    (right : ReportsRight site (still now) bus key lifetime) (past : timeLeft lifetime now = none) :
    ∃ value, bus.transient.contents[key]? = some ⟨value, none⟩ := by
  cases held : remains now bus.transient.contents[key]? with
  | none =>
      have copy : remains now (bus.cell site key).copy = none := held
      unfold Cell.value at live
      rw [copy] at live
      rcases Option.isSome_iff_exists.mp live with ⟨value, row⟩
      rcases right.rendered with ⟨other, rendered⟩
      rw [renderInspect_eq, run_lookUp_promoted attached works held row] at rendered
      change some (inspectText key value (some (fromSecs cachePromotionSeconds))) =
        some (inspectText key other (timeLeft lifetime now)) at rendered
      rw [past] at rendered
      exact absurd (Option.some_inj.mp rendered) (inspectText_promoted value other)
  | some entry =>
      rcases entry with ⟨value, deadline⟩
      rcases @run_readTtlRemaining site (still now) 0 bus key with ⟨transient, asked, -⟩
      have remaining := right.remaining
      rw [asked] at remaining
      change some (bus.remaining now key) = some (timeLeft lifetime now) at remaining
      unfold PermutiveBus.remaining at remaining
      rw [held, past] at remaining
      cases deadline with
      | none => exact ⟨value, (ExpiringMap.remains_eq_some.mp held).1⟩
      | some deadline => cases remaining

private theorem dataKey_of_right {now deadline : Instant} (works : bus.persistent.Works)
    (live : ((bus.cell site key).value now).isSome = true) (ahead : now < deadline)
    (right : ReportsRight site (still now) bus key (some deadline)) : Export.DataKey key := by
  by_contra other
  rcases Option.isSome_iff_exists.mp live with ⟨value, shows⟩
  have listed := listed_of_value shows
  rcases @Export.run_writeAll site (still now) 0 bus (still_monotone now) works
    ⟨fun _ _ => .ok (), .ok ()⟩ with ⟨result, later, transient, ran, turnsAre, taken⟩
  rcases taken (fun _ _ => rfl) with ⟨turns, written⟩
  have same := turnsAre turns written
  have pairs := @Export.turnsFrom_pairs (still now) bus (0 + 2) (bus.listed (still now 0) [])
  change (key, value) ∈ bus.listed (still now 0) [] at listed
  rw [← pairs, ← same] at listed
  rcases List.mem_map.mp listed with ⟨turn, member, turnIs⟩
  have archived := (right.archived _ turns (by rw [ran, written])).2 turn member
    (congrArg Prod.fst turnIs)
  rcases archived with ⟨reading, data, entries⟩
  rw [same] at member
  rcases Export.mem_turnsFrom member with ⟨-, other', -, turnEntries⟩
  rcases turn with ⟨pair, written'⟩
  cases turnIs
  rcases @Export.turnEntries_of_other (key, value) other with ⟨entry, single⟩
  have longer := congrArg List.length (entries.symm.trans (turnEntries.trans (single _)))
  have left : timeLeft (some deadline) (still now reading) = some (deadline - now) :=
    if_pos ahead
  rw [left] at longer
  cases longer

/-- A key's lifetime is reported as it was given, whatever is read, exactly when the
transient tier holds the key itself. -/
theorem lifetime_reported_iff (recorded : Recorded site clock disk ticks bus lifetimes)
    (monotone : Monotone clock)
    (live : ((bus.cell site key).value (clock ticks)).isSome = true) :
    ((∀ future : Nat → Instant, Monotone future → future 0 = clock ticks →
        ReportsRight site future bus key (lifetimes key)) ∧
      ReadsUnnoticed site (clock ticks) bus key) ↔
      LifetimeShown (clock ticks) bus key (lifetimes key) := by
  have attached := recorded.reachable.attached
  constructor
  · intro reported
    have right := reported.1 (still (clock ticks)) (still_monotone _) rfl
    rcases right.dumped ⟨fun _ => .ok (), fun _ => .error .cannotRead⟩ [] rfl with
      ⟨text, entries, later, after, dumped, -⟩
    have works := works_of_dump dumped
    have records := recorded.records monotone works key
    refine ⟨works, ?_, ?_⟩
    · intro none
      rw [none] at right
      exact copy_of_right attached works live right rfl
    · intro deadline given
      rw [given] at right
      have ahead : clock ticks < deadline := by
        by_contra behind
        have past : timeLeft (some deadline) (clock ticks) = none := if_neg behind
        rcases copy_of_right attached works live right past with ⟨value, copy⟩
        cases given.symm.trans (records.lasting value copy)
      exact ⟨ahead, dataKey_of_right works live ahead right⟩
  · intro shown
    have records := recorded.records monotone shown.works key
    constructor
    · intro future futureMonotone start
      rw [← start] at shown records
      exact right_of_shown futureMonotone shown records
    · rcases shown.copy records with ⟨value, copy, held⟩
      exact readsUnnoticed (by rw [held]; rfl)

end Right

/-- A key stored with a minute to live. -/
theorem dated_key_is_reported :
    let reached := recordedCalls openSite stillClock ∅
      [.writeValueWithTtl (asBytes "users:1") (asBytes "a") (fromSecs 60)]
    (∀ future : Nat → Instant, Monotone future → future 0 = 0 →
      ReportsRight openSite future reached.2.1 (asBytes "users:1") (some (fromSecs 60))) ∧
      ReadsUnnoticed openSite 0 reached.2.1 (asBytes "users:1") := by
  intro reached
  have given : reached.2.2 (asBytes "users:1") = some (fromSecs 60) := by
    decide +kernel
  have live : ((reached.2.1.cell openSite (asBytes "users:1")).value
      (stillClock reached.1)).isSome = true := by
    decide +kernel
  have shown : LifetimeShown (stillClock reached.1) reached.2.1 (asBytes "users:1")
      (reached.2.2 (asBytes "users:1")) := by
    rw [given]
    constructor
    · change reached.2.1.persistent.poisoned = false
      decide +kernel
    · intro none
      cases none
    · intro deadline same
      cases same
      exact ⟨by decide, by decide +kernel⟩
  have reported := (lifetime_reported_iff
    (recordedCalls_recorded openSite stillClock ∅ _) stillClock_monotone live).mpr shown
  rw [given] at reported
  exact reported

/-- A key written without a lifetime and read is said to have a minute to live; without
the read it is said to have no lifetime. -/
theorem read_key_is_reported_mortal :
    let written := recordedCalls openSite stillClock ∅
      [.writeValue (asBytes "users:1") (asBytes "a")]
    let read := recordedCalls openSite stillClock ∅
      [.writeValue (asBytes "users:1") (asBytes "a"), .readValue (asBytes "users:1")]
    Recorded openSite stillClock ∅ read.1 read.2.1 read.2.2 ∧
      (read.2.1.cell openSite (asBytes "users:1")).value 0 = some (asBytes "a") ∧
      read.2.2 (asBytes "users:1") = none ∧
      ¬ ReportsRight openSite stillClock read.2.1 (asBytes "users:1") none ∧
      (run (bothTiers openSite) stillClock (PermutiveBus.readTtlRemaining (asBytes "users:1")) 0
        read.2.1).result = some (some (fromSecs 60)) ∧
      (run (bothTiers openSite) stillClock (PermutiveBus.readTtlRemaining (asBytes "users:1")) 0
        written.2.1).result = some none := by
  intro written read
  have minute : (run (bothTiers openSite) stillClock
      (PermutiveBus.readTtlRemaining (asBytes "users:1")) 0 read.2.1).result =
      some (some (fromSecs 60)) := by
    decide +kernel
  refine ⟨recordedCalls_recorded openSite stillClock ∅ _, by decide +kernel, by decide +kernel, ?_,
    minute, by decide +kernel⟩
  intro right
  cases minute.symm.trans right.remaining

end TricPlus
