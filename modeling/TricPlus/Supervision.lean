import TricPlus.Tric
import TricPlus.Lib.GuardedRuns

/-!
The core: registered modules with their threads, and the supervision loop, which takes a
module for dead when its key has expired on the core bus.

A module keeps its key alive by a heartbeat at each turn of its worker loops.  Between two
turns a worker waits for a datagram, for any time.
-/

namespace TricPlus

open GuardedRuns
open ExpiringMap (Entry remains)

namespace Supervision

def heartbeatTtl : Duration := fromSecs 15

def supervisionInterval : Duration := fromSecs 5

def modulePrefix : Bytes := asBytes "module:"

/-- The modules; the server's workers depend on the available parallelism. -/
inductive Module where
  | server (workerCount : Nat)
  | cli
  deriving DecidableEq

namespace Module

def name : Module → Bytes
  | .server _ => asBytes "server"
  | .cli => asBytes "cli"

def key (module : Module) : Bytes := modulePrefix ++ module.name

def workers : Module → Nat
  | .server workerCount =>
      let localWorkers := workerCount / 2
      let networkWorkers := workerCount - localWorkers
      max localWorkers 1 + max networkWorkers 1
  | .cli => 1

/-- The calls of `run` on the core bus before the loops. -/
def runCalls (module : Module) : List DataBusCall :=
  match module with
  | .server _ =>
      [.writeValue module.key (asBytes "running"), .writeTtl module.key heartbeatTtl]
  | .cli => [.writeValue module.key (asBytes "running")]

def threadCalls (module : Module) : List DataBusCall :=
  [.writeValue module.key (asBytes "starting"), .writeTtl module.key heartbeatTtl,
    .writeValue module.key (asBytes "running"), .writeTtl module.key heartbeatTtl] ++
    module.runCalls

end Module

inductive Worker where
  | fresh
  | looping
  | stopped
  deriving DecidableEq

/-- A module's thread: the calls it makes before the loops, and the workers it waits for. -/
structure Thread where
  calls : List DataBusCall
  workers : List Worker
  deriving DecidableEq

def createModuleThread (module : Module) : Thread where
  calls := module.threadCalls
  workers := List.replicate module.workers .fresh

/-- A join of the thread returns. -/
def Thread.Terminated (thread : Thread) : Prop :=
  thread.calls = [] ∧ ∀ worker ∈ thread.workers, worker = .stopped

instance : DecidablePred Thread.Terminated := fun _ => inferInstanceAs (Decidable (_ ∧ _))

/-- A module with the thread of its handle, and the times of the last heartbeat of a worker and
of the last call on the core bus. -/
structure RegisteredModule where
  module : Module
  thread : Thread
  lastBeat : Option Instant
  lastCall : Option Instant
  deriving DecidableEq

/-- The modules as they are registered, each name once. -/
structure Registry where
  modules : List Module
  distinct : (modules.map Module.name).Nodup

/-- Where the supervision loop stands: asleep, or checking the modules from this index on. -/
inductive Phase where
  | sleeping (wake : Instant)
  | checking (alive : List Bytes) (index : Nat)
  deriving DecidableEq

structure Core where
  now : Instant
  coreBus : SoundTric
  modules : List RegisteredModule
  phase : Phase

/-- All modules have been registered, and the loop goes to sleep. -/
def createCore (registry : Registry) (start : Instant) : Core where
  now := start
  coreBus := SoundTric.create
  modules := registry.modules.map (fun module => ⟨module, createModuleThread module, none, none⟩)
  phase := .sleeping (start + supervisionInterval)

namespace Core

variable (core : Core)

def update (index : Nat) (change : RegisteredModule → RegisteredModule) : Core :=
  { core with modules := core.modules.modify index change }

def perform (request : DataBusCall) : Core :=
  { core with coreBus := (SoundTric.step request core.now core.coreBus).2 }

def listed : List Bytes :=
  (SoundTric.step (.findByPrefix modulePrefix) core.now core.coreBus).1.map Prod.fst

end Core

/-- Time passes; a starting thread makes its next call, or panics; a worker turns its loop, or
panics; the supervision loop looks for the keys, or goes on with the next module. -/
inductive Event where
  | tick (duration : Duration)
  | start (index : Nat)
  | crash (index : Nat)
  | beat (index worker : Nat)
  | stop (index worker : Nat)
  | check
  | proceed
  deriving DecidableEq

namespace RegisteredModule

variable (registered : RegisteredModule)

def called (now : Instant) : RegisteredModule :=
  { registered with
    thread := { registered.thread with calls := registered.thread.calls.tail }
    lastCall := some now }

def crashed : RegisteredModule :=
  { registered with thread := ⟨[], registered.thread.workers.map (fun _ => .stopped)⟩ }

def beaten (worker : Nat) (now : Instant) : RegisteredModule :=
  { registered with
    thread := { registered.thread with workers := registered.thread.workers.set worker .looping }
    lastBeat := some now
    lastCall := some now }

def stopped (worker : Nat) : RegisteredModule :=
  { registered with
    thread := { registered.thread with workers := registered.thread.workers.set worker .stopped } }

def respawned : RegisteredModule :=
  { registered with thread := createModuleThread registered.module }

end RegisteredModule

namespace Core

/-- The loop over the modules: one that is not alive is joined, which may wait, and then
started again. -/
def checkNext (core : Core) (alive : List Bytes) (index : Nat) : Core :=
  match core.modules[index]? with
  | none => { core with phase := .sleeping (core.now + supervisionInterval) }
  | some registered =>
      if registered.module.key ∈ alive then { core with phase := .checking alive (index + 1) }
      else if registered.thread.Terminated then
        { core.update index RegisteredModule.respawned with phase := .checking alive (index + 1) }
      else core

def next (core : Core) : Event → Core
  | .tick duration => { core with now := core.now + duration }
  | .start index =>
      match core.modules[index]?.bind (fun registered => registered.thread.calls.head?) with
      | none => core
      | some request =>
          (core.perform request).update index (fun registered => registered.called core.now)
  | .crash index => core.update index RegisteredModule.crashed
  | .beat index worker =>
      match core.modules[index]? with
      | none => core
      | some registered =>
          (core.perform (.writeTtl registered.module.key heartbeatTtl)).update index
            (fun registered => registered.beaten worker core.now)
  | .stop index worker => core.update index (fun registered => registered.stopped worker)
  | .check =>
      { core.perform (.findByPrefix modulePrefix) with phase := .checking core.listed 0 }
  | .proceed =>
      match core.phase with
      | .sleeping _ => core
      | .checking alive index => core.checkNext alive index

/-- The supervision loop is joining the thread of this module. -/
def joining (core : Core) : Option RegisteredModule :=
  match core.phase with
  | .sleeping _ => none
  | .checking alive index =>
      core.modules[index]?.filter (fun registered => registered.module.key ∉ alive)

end Core

/-- The event can happen.  Between a write and the lifetime that follows it no thread panics, nor
before a loop's first heartbeat. -/
def Possible (core : Core) : Event → Prop
  | .tick _ => True
  | .start index => ∃ registered, core.modules[index]? = some registered ∧
      registered.thread.calls ≠ []
  | .crash index => ∃ registered, core.modules[index]? = some registered ∧
      ∃ key value, registered.thread.calls.head? = some (.writeValue key value)
  | .beat index worker => ∃ registered, core.modules[index]? = some registered ∧
      registered.thread.calls = [] ∧ ∃ state, registered.thread.workers[worker]? = some state ∧
        state ≠ .stopped
  | .stop index worker => ∃ registered, core.modules[index]? = some registered ∧
      registered.thread.workers[worker]? = some .looping
  | .check => ∃ wake, core.phase = .sleeping wake ∧ wake ≤ core.now
  | .proceed => (∃ alive index, core.phase = .checking alive index) ∧
      ∀ registered ∈ core.joining, registered.thread.Terminated

namespace Core

variable (core : Core)

def entry (key : Bytes) : Option (Entry Bytes Instant) := core.coreBus.contents[key]?

private theorem perform_contents (request : DataBusCall) : (core.perform request).coreBus.contents =
    (Reference.step request core.now core.coreBus.contents).2 :=
  core.coreBus.step_contents request core.now

theorem entry_writeValue (key value other : Bytes) :
    (core.perform (.writeValue key value)).entry other =
      if key = other then some ⟨value, none⟩ else remains core.now (core.entry other) := by
  unfold entry
  rw [perform_contents]
  unfold Reference.step Reference.apply
  simp only [ExpiringMap.getElem?_store, ExpiringMap.getElem?_purge]

theorem entry_writeTtl (key other : Bytes) (duration : Duration) :
    (core.perform (.writeTtl key duration)).entry other =
      if key = other then
        (remains core.now (core.entry key)).map
          (fun entry => ⟨entry.value, some (core.now + duration)⟩)
      else remains core.now (core.entry other) := by
  unfold entry
  rw [perform_contents]
  unfold Reference.step Reference.apply
  simp only [ExpiringMap.getElem?_setDeadline, ExpiringMap.getElem?_purge]

theorem entry_findByPrefix (stem other : Bytes) :
    (core.perform (.findByPrefix stem)).entry other = remains core.now (core.entry other) := by
  unfold entry
  rw [perform_contents]
  unfold Reference.step Reference.apply
  simp only [ExpiringMap.getElem?_purge]

private theorem mem_listed {key : Bytes} : key ∈ core.listed ↔
    modulePrefix <+: key ∧ (remains core.now (core.entry key)).isSome = true := by
  have reply : (SoundTric.step (.findByPrefix modulePrefix) core.now core.coreBus).1 =
      Reference.scan modulePrefix (ExpiringMap.purge core.now core.coreBus.contents) :=
    core.coreBus.step_reply (.findByPrefix modulePrefix) core.now
  unfold listed
  rw [reply, List.mem_map]
  constructor
  · intro found
    rcases found with ⟨⟨listed, value⟩, member, rfl⟩
    rcases Reference.mem_scan.mp member with ⟨stored, inside⟩
    unfold ExpiringMap.value? at stored
    rw [ExpiringMap.getElem?_purge] at stored
    refine ⟨inside, ?_⟩
    rcases Option.map_eq_some_iff.mp stored with ⟨entry, left, -⟩
    exact Option.isSome_iff_exists.mpr ⟨entry, left⟩
  · intro found
    rcases found with ⟨inside, live⟩
    rcases Option.isSome_iff_exists.mp live with ⟨entry, left⟩
    refine ⟨(key, entry.value), Reference.mem_scan.mpr ⟨?_, inside⟩, rfl⟩
    unfold ExpiringMap.value?
    rw [ExpiringMap.getElem?_purge]
    exact congrArg (Option.map Entry.value) left

end Core

theorem key_mem_listed {core : Core} {module : Module} : module.key ∈ core.listed ↔
    (remains core.now (core.entry module.key)).isSome = true := by
  rw [core.mem_listed]
  exact and_iff_right (List.prefix_append _ _)

def Stays (entry : Option (Entry Bytes Instant)) (limit : Instant) : Prop :=
  ∃ found, entry = some found ∧ ∀ deadline, found.deadline = some deadline → limit ≤ deadline

theorem Stays.remains {entry : Option (Entry Bytes Instant)} {limit now : Instant}
    (stays : Stays entry limit) (early : now < limit) :
    ∃ found, ExpiringMap.remains now entry = some found ∧ Stays (some found) limit := by
  rcases stays with ⟨found, rfl, late⟩
  refine ⟨found, ExpiringMap.remains_eq_some.mpr ⟨rfl, ?_⟩, found, rfl, late⟩
  unfold Entry.live
  cases deadline : found.deadline with
  | none => rfl
  | some deadline' => exact decide_eq_true (Nat.lt_of_lt_of_le early (late deadline' deadline))

def Heartbeat : DataBusCall → Prop
  | .writeValue _ _ => True
  | .writeTtl _ duration => duration = heartbeatTtl
  | .findByPrefix _ => True
  | _ => False

theorem Stays.perform {core : Core} {request : DataBusCall} {key : Bytes} {limit : Instant}
    (stays : Stays (core.entry key) limit) (early : core.now < limit)
    (near : limit ≤ core.now + heartbeatTtl) (heartbeat : Heartbeat request) :
    Stays ((core.perform request).entry key) limit := by
  rcases stays.remains early with ⟨found, left, kept⟩
  cases request with
  | writeValue other value =>
      rw [core.entry_writeValue]
      by_cases same : other = key
      · rw [if_pos same]
        exact ⟨_, rfl, fun _ timed => by cases timed⟩
      · rw [if_neg same, left]
        exact kept
  | writeTtl other duration =>
      rw [core.entry_writeTtl]
      by_cases same : other = key
      · subst same
        rw [if_pos rfl, left]
        refine ⟨_, rfl, ?_⟩
        intro deadline timed
        cases timed
        rw [show duration = heartbeatTtl from heartbeat]
        exact near
      · rw [if_neg same, left]
        exact kept
  | findByPrefix stem =>
      rw [core.entry_findByPrefix, left]
      exact kept
  | readValue key => exact heartbeat.elim
  | deleteValue key => exact heartbeat.elim
  | deleteValueIfMatch key expected => exact heartbeat.elim
  | writeValueWithTtl key value duration => exact heartbeat.elim
  | readTtlRemaining key => exact heartbeat.elim

end Supervision

end TricPlus
