import TricPlus.Lib.Interruption
import TricPlus.Provenance
import TricPlus.Restart

/-!
Servers that are killed and started again.

A kill may fall between any two calls on the tiers, or between the creation of a file and
the first row in it; SQLite sees to it that it does not fall inside a statement.  What is
on the disk then is what is there between two calls of the datagram that was being
answered, so that the next server goes on with the one map, less all that has a lifetime.
-/

namespace TricPlus

open Std (ExtTreeMap LawfulEqCmp)
open AtomicProgram
open BigEndian
open ExpiringMap (Entry remains purge store storeAll)
open PosixPath (Location slash)

/-! ### The files -/

/-- A key whose row is found again: its namespace is the name of a file that can be
opened, and it is none of the registry's. -/
structure Storable (site : Site) (key : Bytes) : Prop where
  openable : site.opens (site.databasePath (namespaceOf key)) = true
  named : namespaceOf key ≠ []
  plain : slash ∉ namespaceOf key
  notRegistry : ¬ registryStem <+: key

def storableKeys (site : Site) : Set Bytes := {key | Storable site key}

def Disk.value? (disk : Disk) (file : Location) (key : Bytes) : Option Bytes :=
  disk[file]?.bind (fun table => table[key]?)

/-- Every row can be found again, and lies in the file of its namespace. -/
structure Housed (site : Site) (disk : Disk) : Prop where
  tell : StemsTell site disk
  rows : ∀ (file : Location) (key value : Bytes), disk.value? file key = some value →
    Storable site key ∧ file = site.databaseFile (namespaceOf key)

theorem Storable.file {site : Site} {key : Bytes} (storable : Storable site key) :
    site.databaseFile (namespaceOf key) = site.fileAt (namespaceOf key) :=
  databaseFile_of_plain site storable.plain

private theorem storableKeys_sharded (site : Site) : SqliteBus.Sharded site
    (storableKeys site) where
  openable := fun _ storable => storable.openable
  distinct := by
    intro key storable other otherStorable same
    exact databaseFile_injective site storable.plain otherStorable.plain same

theorem housed_empty (site : Site) : Housed site ∅ where
  tell := stemsTell_empty site
  rows := by
    intro file key value found
    unfold Disk.value? at found
    rw [ExtTreeMap.getElem?_empty] at found
    cases found

namespace Housed

variable {site : Site} {disk : Disk} {key value : Bytes} {file : Location}

theorem isOpen (housed : Housed site disk) (row : disk.value? file key = some value) :
    (createSqliteBus site disk).databases[namespaceOf key]? = some file := by
  rcases housed.rows file key value row with ⟨storable, same⟩
  rw [storable.file] at same
  apply (createSqliteBus_databases housed.tell).mpr
  refine ⟨⟨storable.named, ?_, storable.openable⟩, same⟩
  unfold Disk.value? at row
  rw [← same]
  cases there : disk[file]? with
  | none =>
      rw [there] at row
      cases row
  | some table => rfl

theorem row_eq_some (housed : Housed site disk) :
    (createSqliteBus site disk).row key = some value ↔
      ∃ file, disk.value? file key = some value := by
  constructor
  · intro row
    cases found : (createSqliteBus site disk).databases[namespaceOf key]? with
    | none =>
        rw [SqliteBus.row_of_not_open found] at row
        cases row
    | some file =>
        rw [SqliteBus.row_of_open found] at row
        exact ⟨file, row⟩
  · rintro ⟨file, row⟩
    rw [SqliteBus.row_of_open (housed.isOpen row)]
    exact row

theorem wellFiled (housed : Housed site disk) : WellFiled site disk where
  home := by
    intro space file key value found row
    have again := housed.isOpen row
    rcases (createSqliteBus_databases housed.tell).mp found with ⟨-, same⟩
    rcases (createSqliteBus_databases housed.tell).mp again with ⟨-, other⟩
    exact fileAt_injective site (other.symm.trans same)
  nothingHidden := by
    intro key closed
    cases row : (createSqliteBus site disk).stored site key with
    | none => rfl
    | some value => exact absurd ((housed.isOpen row).symm.trans closed) nofun
  noRegistry := by
    intro key registered
    cases row : (createSqliteBus site disk).row key with
    | none => rfl
    | some value =>
        rcases housed.row_eq_some.mp row with ⟨file, there⟩
        exact absurd registered (housed.rows file key value there).1.notRegistry

theorem fresh (housed : Housed site disk) :
    (createSqliteBus site disk).ClosedAreFresh site (storableKeys site) := by
  intro key storable closed
  rw [SqliteBus.freshFile_iff, storable.file]
  constructor
  · intro space found
    rcases (createSqliteBus_databases housed.tell).mp found with ⟨-, same⟩
    rw [← fileAt_injective site same] at found
    cases closed.symm.trans found
  · intro other
    cases row : (createSqliteBus site disk).selectValue (site.fileAt (namespaceOf key)) other with
    | none => rfl
    | some value =>
        have found := housed.isOpen row
        rcases (createSqliteBus_databases housed.tell).mp found with ⟨-, same⟩
        rw [← fileAt_injective site same] at found
        cases closed.symm.trans found

end Housed

structure HousedBus (site : Site) (bus : SqliteBus) : Prop where
  housed : Housed site bus.disk
  restartable : Restartable site bus

namespace HousedBus

variable {site : Site} {bus : SqliteBus}

theorem created {disk : Disk} (housed : Housed site disk) :
    HousedBus site (createSqliteBus site disk) :=
  ⟨housed, Restartable.created housed.wellFiled housed.tell⟩

private theorem writeConnection_housed (housedBus : HousedBus site bus) (key : Bytes) :
    Housed site (SqliteBus.writeConnection site bus (namespaceOf key)).2.disk where
  tell := Restartable.writeConnection_tell key housedBus.housed.tell
  rows := by
    intro file about value row
    change (SqliteBus.writeConnection site bus (namespaceOf key)).2.selectValue file about =
      some value at row
    rw [SqliteBus.selectValue_writeConnection] at row
    exact housedBus.housed.rows file about value row

private theorem rowsAmong (housedBus : HousedBus site bus) :
    bus.RowsAmong (fun key _ => Storable site key) :=
  fun file key value row => (housedBus.housed.rows file key value row).1

/-- Each row is stored in the file of its namespace. -/
def Filed (site : Site) (bus : SqliteBus) : Prop :=
  ∀ (file : Location) (key value : Bytes), bus.selectValue file key = some value →
    file = site.databaseFile (namespaceOf key)

private theorem step_filed (request : DataBusCall) (restartable : Restartable site bus)
    (filed : Filed site bus) : Filed site (SqliteBus.step site request bus).2 := by
  suffices both : Restartable site (SqliteBus.step site request bus).2 ∧
      Filed site (SqliteBus.step site request bus).2 from both.2
  apply SqliteBus.step_keeps site (fun bus => Restartable site bus ∧ Filed site bus) request
    ⟨restartable, filed⟩
  · intro key written
    refine ⟨restartable.writeConnection_restartable key, fun file about value row => ?_⟩
    rw [SqliteBus.selectValue_writeConnection] at row
    exact filed file about value row
  · intro middle key file change asked found changes both
    refine ⟨both.1.updateTable_restartable found changes, fun other about value row => ?_⟩
    by_cases mine : key = about
    · subst mine
      by_cases here : file = other
      · rw [← here]
        exact (both.1.opened key file found).1
      · rw [SqliteBus.selectValue_eq, SqliteBus.getElem?_updateTable, if_neg here] at row
        exact both.2 other key value row
    · rw [SqliteBus.selectValue_updateTable changes mine] at row
      exact both.2 other about value row

theorem step (housedBus : HousedBus site bus) {request : DataBusCall}
    (inside : ∀ key, request.written? = some key → Storable site key) :
    HousedBus site (SqliteBus.step site request bus).2 := by
  have restartable := housedBus.restartable.step_restartable request
  have filed := step_filed request housedBus.restartable
    (fun file key value row => (housedBus.housed.rows file key value row).2)
  have stores : StoresAmong (fun key _ => Storable site key) request := by
    intro key value stored
    cases stored with
    | lasting => exact inside key rfl
    | timed => exact inside key rfl
  have among := (stepUnder_among housedBus.rowsAmong noFaults site stores).1
  rw [SqliteBus.stepUnder_noFaults] at among
  refine ⟨⟨restartable.tell, fun file key value row => ?_⟩, restartable⟩
  exact ⟨among file key value row, filed file key value row⟩

private theorem row_again (housedBus : HousedBus site bus) (key : Bytes) :
    (createSqliteBus site bus.disk).row key = bus.row key := by
  by_cases plain : namespaceOf key ≠ [] ∧ slash ∉ namespaceOf key
  · exact housedBus.restartable.row_kept plain.1 plain.2
  · rw [housedBus.restartable.row_lost plain]
    cases row : bus.row key with
    | none => rfl
    | some value =>
        cases found : bus.databases[namespaceOf key]? with
        | none =>
            rw [SqliteBus.row_of_not_open found] at row
            cases row
        | some file =>
            rw [SqliteBus.row_of_open found] at row
            have storable := (housedBus.housed.rows file key value row).1
            exact absurd ⟨storable.named, storable.plain⟩ plain

end HousedBus

namespace Reference

def registry (site : Site) : Reference :=
  storeAll ((findInstanceSlots site).map (fun slot =>
    (registryKey site slot, registryValue site slot))) ∅

def opened (site : Site) (disk : Disk) : Reference :=
  storeAll ((createSqliteBus site disk).listing []) (registry site)

/-- Nothing in the map has a lifetime. -/
def Lasts (contents : Reference) : Prop :=
  ∀ (key : Bytes) (entry : Entry Bytes Instant), contents[key]? = some entry →
    entry.deadline = none

private theorem purge_lasts {contents : Reference} (lasts : Lasts contents) (now : Instant) :
    purge now contents = contents := by
  apply ExtTreeMap.ext_getElem?
  intro key
  rw [ExpiringMap.getElem?_purge]
  rcases held : contents[key]? with _ | ⟨value, deadline⟩
  · rfl
  · cases lasts key ⟨value, deadline⟩ held
    rfl

theorem Lasts.store {contents : Reference} (lasts : Lasts contents) (key value : Bytes) :
    Lasts (store key value contents) := by
  intro other entry found
  rw [ExpiringMap.getElem?_store] at found
  split at found
  · cases found
    rfl
  · exact lasts other entry found

theorem Lasts.storeAll {contents : Reference} (lasts : Lasts contents)
    (pairs : List (Bytes × Bytes)) : Lasts (storeAll pairs contents) := by
  induction pairs generalizing contents with
  | nil => exact lasts
  | cons pair pairs ih => exact ih (lasts.store pair.1 pair.2)

private theorem lasts_empty : Lasts ∅ := by
  intro key entry found
  rw [ExtTreeMap.getElem?_empty] at found
  cases found

private theorem registry_other {site : Site} {key : Bytes} (notRegistry : ¬ registryStem <+: key) :
    (registry site)[key]? = none := by
  unfold registry
  rw [ExpiringMap.getElem?_storeAll_of_not_mem]
  · exact ExtTreeMap.getElem?_empty
  · intro listed
    rw [List.map_map, List.mem_map] at listed
    rcases listed with ⟨slot, -, rfl⟩
    exact notRegistry (List.prefix_append _ _)

end Reference

private theorem writeRegistry_contents (site : Site) (clock : Nat → Instant) (slots : List Nat)
    (ticks : Nat) (bus : PermutiveBus) (lasts : Reference.Lasts bus.transient.contents) :
    (run (bothTiers site) clock (writeRegistry site slots) ticks bus).state.transient.contents =
      storeAll (slots.map (fun slot => (registryKey site slot, registryValue site slot)))
        bus.transient.contents := by
  induction slots generalizing ticks bus with
  | nil => rfl
  | cons slot slots ih =>
      let write := DataBusCall.writeValue (registryKey site slot) (registryValue site slot)
      have written : (SoundTric.step write (clock ticks) bus.transient).2.contents =
          store (registryKey site slot) (registryValue site slot) bus.transient.contents := by
        rw [SoundTric.step_contents]
        exact congrArg (store (registryKey site slot) (registryValue site slot))
          (Reference.purge_lasts lasts (clock ticks))
      have others := ih (ticks + 1)
        { bus with transient := (SoundTric.step write (clock ticks) bus.transient).2 }
        (by rw [written]; exact lasts.store _ _)
      rw [written] at others
      exact others

theorem created_contents (site : Site) (disk : Disk) (clock : Nat → Instant) (ticks : Nat) :
    (createPermutiveBus site disk clock ticks).state.contents = Reference.opened site disk := by
  have empty : Reference.Lasts SoundTric.create.contents := by
    rw [SoundTric.create_contents]
    exact Reference.lasts_empty
  have written := writeRegistry_contents site clock (findInstanceSlots site) ticks
    { transient := .create
      persistent := createSqliteBus site disk } empty
  unfold PermutiveBus.contents Reference.opened
  rw [(createPermutiveBus_state site disk clock ticks).1]
  refine congrArg _ (written.trans ?_)
  rw [SoundTric.create_contents]
  rfl

def Restored (site : Site) (value? : Bytes → Option Bytes) (contents : Reference) : Prop :=
  ∀ key : Bytes, contents[key]? =
    if registryStem <+: key then (Reference.registry site)[key]?
    else (value? key).map (fun value => ⟨value, none⟩)

private theorem Housed.opened_restored {site : Site} {disk : Disk} (housed : Housed site disk) :
    Restored site (createSqliteBus site disk).row (Reference.opened site disk) := by
  have layout := housed.wellFiled.layout
  intro key
  unfold Reference.opened
  cases row : (createSqliteBus site disk).row key with
  | some value =>
      rcases housed.row_eq_some.mp row with ⟨file, there⟩
      rw [if_neg (housed.rows file key value there).1.notRegistry]
      exact ExpiringMap.getElem?_storeAll_of_mem (layout.listing_ascending []).keys_nodup
        (layout.mem_listing.mpr ⟨row, List.nil_prefix⟩) _
  | none =>
      have notListed : key ∉ ((createSqliteBus site disk).listing []).map Prod.fst := by
        intro listed
        rcases List.mem_map.mp listed with ⟨⟨about, value⟩, member, same⟩
        cases same
        cases (layout.mem_listing.mp member).1.symm.trans row
      rw [ExpiringMap.getElem?_storeAll_of_not_mem notListed]
      split
      · rfl
      · next notRegistry => exact Reference.registry_other notRegistry

/-! ### A kill -/

/-- The call does not change the persistent tier. -/
def Quiet (call : TierCall) : Prop :=
  call.tier = .persistent → (∃ key, call.request = .readValue key) ∨
    ∃ stem, call.request = .findByPrefix stem

private theorem quiet_silent (site : Site) (call : TierCall) (now : Instant) (bus : PermutiveBus)
    (quiet : Quiet call) : ((bothTiers site).step call now bus).2.persistent = bus.persistent := by
  rcases call with ⟨tier, request⟩
  cases tier with
  | transient => rfl
  | persistent =>
      rcases quiet rfl with ⟨key, same⟩ | ⟨stem, same⟩
      · change request = _ at same
        subst same
        simp only [bothTiers, SqliteBus.step, SqliteBus.readValue, SqliteBus.locked]
        split
        · rfl
        · cases bus.persistent.databases[namespaceOf key]? <;> rfl
      · change request = _ at same
        subst same
        simp only [bothTiers, SqliteBus.step, SqliteBus.findByPrefix, SqliteBus.locked]
        split <;> rfl

private theorem quiet_transient (request : DataBusCall) : Quiet ⟨.transient, request⟩ :=
  fun impossible => nomatch impossible

private theorem call_once (request : DataBusCall) : (PermutiveBus.call request).Once Quiet := by
  have reads : ∀ key, Quiet ⟨.persistent, .readValue key⟩ := fun key _ => Or.inl ⟨key, rfl⟩
  cases request with
  | readValue key =>
      refine Or.inr fun reply => ?_
      cases reply with
      | some value => trivial
      | none =>
          refine ⟨reads key, fun reply => ?_⟩
          cases reply with
          | none => trivial
          | some value => exact ⟨quiet_transient _, fun _ => ⟨quiet_transient _, fun _ => trivial⟩⟩
  | writeValue key value => exact Or.inr fun _ => ⟨quiet_transient _, fun _ => trivial⟩
  | deleteValue key => exact Or.inl ⟨quiet_transient _, fun _ => Or.inr fun _ => trivial⟩
  | deleteValueIfMatch key expected =>
      exact Or.inl ⟨quiet_transient _, fun _ => Or.inr fun _ => trivial⟩
  | writeTtl key duration =>
      refine Or.inl ⟨reads key, fun reply => ?_⟩
      cases reply with
      | none => exact Or.inr fun _ => trivial
      | some value =>
          exact Or.inr fun _ => ⟨quiet_transient _, fun _ => ⟨quiet_transient _, fun _ => trivial⟩⟩
  | writeValueWithTtl key value duration =>
      exact Or.inr fun _ => ⟨quiet_transient _, fun _ => trivial⟩
  | readTtlRemaining key => exact Or.inr fun _ => trivial
  | findByPrefix stem =>
      exact Or.inr fun _ => ⟨fun _ => Or.inr ⟨stem, rfl⟩, fun _ => trivial⟩

/-- What a server does before it is killed: the datagrams it answers, and how many calls it
makes on the tiers for the one it does not get to answer.  It may be creating the file of a
key then. -/
structure Life where
  clock : Nat → Instant
  ticks : Nat
  answered : List (Metrics × Bytes)
  current : Metrics × Bytes
  calls : Nat
  opening : Option Bytes

namespace Life

variable (site : Site) (parser : SqlParser) (life : Life) (disk : Disk)

def served : Outcome PermutiveBus (List (List Bytes)) :=
  let created := createPermutiveBus site disk life.clock life.ticks
  run (bothTiers site) life.clock (onTiers (serve parser life.answered)) created.ticks
    created.state

def killed : PermutiveBus :=
  let served := life.served site parser disk
  (run (bothTiers site) life.clock
    ((onTiers (answerDatagram parser life.current.1 life.current.2)).firstCalls life.calls)
    served.ticks served.state).state

def left : Disk :=
  let killed := life.killed site parser disk
  match life.opening with
  | none => killed.persistent.disk
  | some key => (SqliteBus.writeConnection site killed.persistent (namespaceOf key)).2.disk

/-- The datagrams ask for no remaining lifetime, and store without a lifetime only what is
found again. -/
def Recoverable : Prop :=
  ∀ received ∈ life.answered ++ [life.current],
    (received.2[4]? ≠ some 0x18 ∧ received.2[4]? ≠ some 0x19) ∧
      ∀ key value, DatagramCalls parser received.2 (.writeValue key value) → Storable site key

end Life

def leftBy (site : Site) (parser : SqlParser) : List Life → Disk → Disk
  | [], disk => disk
  | life :: lives, disk => leftBy site parser lives (life.left site parser disk)

/-- What becomes of the one map in some lives.  All calls of the answered datagrams are made
on it, and some of the one that was being answered; what had no lifetime then is there
again. -/
inductive Remembers (site : Site) (parser : SqlParser) :
    List Life → Reference → Reference → Prop where
  | ended (contents : Reference) : Remembers site parser [] contents contents
  | next (life : Life) (lives : List Life) (contents middle killed restarted last : Reference)
      (answers : List (List Bytes)) (result : Option (Option (List Bytes)))
      (times later : List Instant) (whole : Nat)
      (answered : Plays Reference.object (serve parser life.answered) times contents
        (some answers) middle)
      (current : Plays Reference.object
        ((answerDatagram parser life.current.1 life.current.2).firstCalls whole) later middle
        (some result) killed)
      (ordered : (times ++ later).Pairwise (· ≤ ·))
      (again : Restored site killed.lasting restarted)
      (rest : Remembers site parser lives restarted last) :
      Remembers site parser (life :: lives) contents last

/-- A bus that stands for a map, and whose files the next server can go on with. -/
structure Recovers (site : Site) (bus : PermutiveBus) : Prop where
  persistent : HousedBus site bus.persistent
  timed : ∀ key, ¬ registryStem <+: key → (bus.cell site key).Timed

section OneLife

variable {site : Site} {parser : SqlParser} {clock : Nat → Instant} {ticks : Nat}
  {bus : PermutiveBus} {contents : Reference}

private theorem run_housed (clock : Nat → Instant) (ticks : Nat) {request : DataBusCall}
    (asks : AsksOneMap (storableKeys site) request)
    (housed : HousedBus site bus.persistent) :
    HousedBus site
      (run (bothTiers site) clock (PermutiveBus.call request) ticks bus).state.persistent := by
  apply run_uses_invariant (bothTiers site) clock (fun _ bus => HousedBus site bus.persistent) _
    (StandsFor.call_stores_inside asks) housed
  intro call ticks bus inside housed
  rcases call with ⟨tier, request⟩
  cases tier with
  | transient => exact housed
  | persistent => exact housed.step (inside rfl)

private theorem recovers_implements (monotone : Monotone clock) :
    Implements (bothTiers site) clock Reference.object PermutiveBus.call
      (AsksOneMap (storableKeys site))
      (fun ticks bus contents =>
        StandsFor site clock (storableKeys site) ticks bus contents ∧ Recovers site bus) := by
  apply (bothTiers_implements monotone (storableKeys_sharded site)).keeping
  intro request ticks bus contents reply later after asks stands recovers ran
  have housed := run_housed clock ticks asks recovers.persistent
  rw [ran] at housed
  refine ⟨housed, fun key notRegistry => ?_⟩
  have timed := stands.tracked.timed_after (congrArg Outcome.result ran)
    (recovers.timed key notRegistry)
  rw [ran] at timed
  exact timed

private theorem created_recovers (clock : Nat → Instant) (ticks : Nat) {disk : Disk}
    (housed : Housed site disk) :
    let created := createPermutiveBus site disk clock ticks
    StandsFor site clock (storableKeys site) created.ticks created.state
        (Reference.opened site disk) ∧ Recovers site created.state := by
  rcases createPermutiveBus_state site disk clock ticks with ⟨persistent, others⟩
  have stands := created_stands clock ticks housed.wellFiled housed.fresh
  rw [created_contents] at stands
  refine ⟨stands, ?_, ?_⟩
  · rw [persistent]
    exact HousedBus.created housed
  · intro key notRegistry held found
    cases found.symm.trans (others key notRegistry)

private theorem restored_of_recovers
    (stands : StandsFor site clock (storableKeys site) ticks bus contents)
    (recovers : Recovers site bus) {disk : Disk} (housed : Housed site disk)
    (same : ∀ (file : Location) (key : Bytes),
      disk.value? file key = bus.persistent.selectValue file key) :
    Restored site contents.lasting (Reference.opened site disk) := by
  intro key
  rw [housed.opened_restored key]
  split
  · rfl
  · next notRegistry =>
      refine congrArg (Option.map _) (Option.ext fun value => ?_)
      have tracked := stands.tracked.row_iff (recovers.timed key notRegistry) value
      rw [Reference.lasting_eq_some, ← tracked, ← recovers.persistent.row_again,
        housed.row_eq_some, recovers.persistent.housed.row_eq_some]
      simp only [same]
      rfl

end OneLife

/-- One life: what the next server finds is what the map has without a lifetime after the
datagrams that were answered, and some calls of the next one. -/
theorem life_is_remembered {site : Site} {parser : SqlParser} {life : Life} {disk : Disk}
    (housed : Housed site disk) (monotone : Monotone life.clock)
    (recoverable : life.Recoverable site parser) :
    Housed site (life.left site parser disk) ∧
      ∃ answers result times later whole middle killed,
        Plays Reference.object (serve parser life.answered) times (Reference.opened site disk)
            (some answers) middle ∧
          Plays Reference.object
            ((answerDatagram parser life.current.1 life.current.2).firstCalls whole) later middle
            (some result) killed ∧
          (times ++ later).Pairwise (· ≤ ·) ∧
          Restored site killed.lasting
            (Reference.opened site (life.left site parser disk)) := by
  have asks : ∀ received ∈ life.answered ++ [life.current], ∀ call,
      DatagramCalls parser received.2 call → AsksOneMap (storableKeys site) call :=
    fun received member call calls =>
      datagram_asks (recoverable received member).1 (recoverable received member).2 calls
  have answeredMakes := serve_makes (fun received member =>
    asks received (List.mem_append_left _ member))
  have currentMakes := (answerDatagram_makes parser life.current.1 life.current.2).mono
    (asks life.current (List.mem_append_right _ (List.mem_singleton.mpr rfl)))
  rcases (recovers_implements monotone).run monotone answeredMakes
    (created_recovers life.clock life.ticks housed) with
    ⟨answers, ticks, bus, times, middle, served, firstWithin, firstPlays, atMiddle⟩
  rcases stopped_between_calls (bothTiers site) life.clock PermutiveBus.persistent
    (quiet_silent site) call_once (answerDatagram parser life.current.1 life.current.2)
    life.calls ticks bus with ⟨whole, seen⟩
  rcases (recovers_implements monotone).run monotone (currentMakes.firstCalls whole) atMiddle with
    ⟨result, ended, last, later, killed, stopped, secondWithin, secondPlays, stands, recovers⟩
  rw [stopped] at seen
  have persistent : (life.killed site parser disk).persistent = last.persistent := by
    unfold Life.killed Life.served
    simp only
    unfold onTiers
    rw [served]
    exact seen
  have housedAfter : HousedBus site (life.killed site parser disk).persistent :=
    persistent ▸ recovers.persistent
  have kept : ∀ (file : Location) (key : Bytes),
      (life.left site parser disk).value? file key = last.persistent.selectValue file key := by
    intro file key
    rw [← persistent]
    unfold Life.left
    cases life.opening with
    | none => rfl
    | some opening =>
        exact SqliteBus.selectValue_writeConnection site _ (namespaceOf opening) file key
  have housedLeft : Housed site (life.left site parser disk) := by
    unfold Life.left
    cases life.opening with
    | none => exact housedAfter.housed
    | some opening => exact housedAfter.writeConnection_housed opening
  refine ⟨housedLeft, answers, result, times, later, whole, middle, killed, firstPlays,
    secondPlays, ?_, restored_of_recovers stands recovers housedLeft kept⟩
  rw [List.pairwise_append]
  refine ⟨firstWithin.1, secondWithin.1, fun early earlier late isLater => ?_⟩
  exact le_trans (firstWithin.2 early earlier).2 (secondWithin.2 late isLater).1

/-- However often the server is killed and started again, the files stay in order, and the
next server goes on with the map of the datagrams answered so far. -/
theorem killed_servers_remember (site : Site) (parser : SqlParser) (lives : List Life)
    (disk : Disk) (housed : Housed site disk)
    (monotone : ∀ life ∈ lives, Monotone life.clock)
    (recoverable : ∀ life ∈ lives, life.Recoverable site parser) :
    let left := leftBy site parser lives disk
    Housed site left ∧
      Remembers site parser lives (Reference.opened site disk) (Reference.opened site left) ∧
        ∀ clock ticks,
          let created := createPermutiveBus site left clock ticks
          StandsFor site clock (storableKeys site) created.ticks created.state
            (Reference.opened site left) := by
  induction lives generalizing disk with
  | nil =>
      exact ⟨housed, .ended _, fun clock ticks => (created_recovers clock ticks housed).1⟩
  | cons life lives ih =>
      rcases life_is_remembered housed (monotone life (List.mem_cons_self ..))
        (recoverable life (List.mem_cons_self ..)) with
        ⟨housedLeft, answers, result, times, later, whole, middle, killed, answered, current,
          ordered, again⟩
      rcases ih (life.left site parser disk) housedLeft
        (fun other member => monotone other (List.mem_cons_of_mem _ member))
        (fun other member => recoverable other (List.mem_cons_of_mem _ member)) with
        ⟨housedLast, rest, stands⟩
      exact ⟨housedLast, .next life lives _ middle killed _ _ answers result times later whole
        answered current ordered again rest, stands⟩

def shortLife : Life where
  clock := stillClock
  ticks := 0
  answered := storedDatagrams.take 1
  current := (freshMetrics, toBeBytes 4 8 ++ 0x01 :: lengthPrefixed (asBytes "a:b"))
  calls := 1
  opening := none

theorem short_life_is_remembered :
    let left := leftBy openSite silentParser [shortLife] ∅
    Housed openSite left ∧
      Remembers openSite silentParser [shortLife] (Reference.opened openSite ∅)
          (Reference.opened openSite left) ∧
        ∀ clock ticks,
          let created := createPermutiveBus openSite left clock ticks
          StandsFor openSite clock (storableKeys openSite) created.ticks created.state
            (Reference.opened openSite left) := by
  apply killed_servers_remember openSite silentParser [shortLife] ∅ (housed_empty openSite)
  · intro life member
    cases List.mem_singleton.mp member
    exact stillClock_monotone
  · intro life member received listed
    cases List.mem_singleton.mp member
    change received ∈ storedDatagrams at listed
    have opcodes : ∀ received ∈ storedDatagrams,
        received.2[4]? ≠ some 0x18 ∧ received.2[4]? ≠ some 0x19 := by decide
    refine ⟨opcodes received listed, fun key value stores => ?_⟩
    rw [Set.mem_singleton_iff.mp (storedDatagrams_store listed stores)]
    exact ⟨rfl, by decide +kernel, by decide +kernel, by decide +kernel⟩

end TricPlus
