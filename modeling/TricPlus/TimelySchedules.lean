import TricPlus.Respawning

/-!
Schedules in which every heartbeat and every check comes in time.

A call on the core bus keeps a module's key for the heartbeat's lifetime, and a write keeps it
until the lifetime that follows.  A worker that beats within that time, and a check that comes
within it for whoever runs and after it for whoever has terminated, is all that the loop needs.
-/

namespace TricPlus

open GuardedRuns
open ExpiringMap (Entry remains)

namespace Supervision

/-- The last call of the module's thread was a write, which leaves the key without a lifetime. -/
def JustWritten (registered : RegisteredModule) : Prop :=
  (∀ worker ∈ registered.thread.workers, worker = .fresh) ∧
    ∃ (earlier : List DataBusCall) (key value : Bytes),
      registered.module.threadCalls = earlier ++ .writeValue key value :: registered.thread.calls

/-- The module's last call on the core bus is less than the heartbeat's lifetime ago. -/
def Recent (core : Core) (registered : RegisteredModule) : Prop :=
  JustWritten registered ∨
    ∃ called, registered.lastCall = some called ∧ core.now < called + heartbeatTtl

/-- The module has made no call on the core bus for the heartbeat's lifetime. -/
def Silent (core : Core) (registered : RegisteredModule) : Prop :=
  ∀ called, registered.lastCall = some called → called + heartbeatTtl ≤ core.now

/-- A heartbeat comes within the lifetime of the one before, and a check neither after that
time for a thread that is running nor within it for one that has terminated. -/
def Timely (core : Core) : Event → Prop
  | .beat index _ => ∀ registered, core.modules[index]? = some registered → Recent core registered
  | .check => ∀ (index : Nat) (registered : RegisteredModule),
      core.modules[index]? = some registered →
      (¬ registered.thread.Terminated → Recent core registered) ∧
        (registered.thread.Terminated → Silent core registered)
  | _ => True

/-- Whom the loop joins has terminated, and it can always go on; and who has terminated by a
check is started again in it, whatever the threads do before it ends. -/
structure Supervised (core : Core) (event : Event) : Prop where
  joins : ∀ registered ∈ (core.next event).joining, registered.thread.Terminated
  goesOn : (∃ alive index, (core.next event).phase = .checking alive index) →
    Possible (core.next event) .proceed
  replaces : event = .check → ∀ (index : Nat) (registered : RegisteredModule),
    core.modules[index]? = some registered → registered.thread.Terminated →
    (checkAndRespawnModules core).modules[index]? = some registered.respawned ∧
      ∀ events, Along Core.next Possible (core.next .check) events →
        (∃ wake, (events.foldl Core.next (core.next .check)).phase = .sleeping wake) →
        ∃ before after, events = before ++ .proceed :: after ∧
          ((before ++ [.proceed]).foldl Core.next (core.next .check)).modules[index]? =
            some registered.respawned

/-! ### Keys that stay -/

/-- A key stays for the lifetime after the module's last call, and has none after a write. -/
structure Kept (core : Core) (registered : RegisteredModule) : Prop where
  stays : ∀ called, registered.lastCall = some called → called ≤ core.now ∧
    (core.now < called + heartbeatTtl →
      Stays (core.entry registered.module.key) (called + heartbeatTtl))
  undated : JustWritten registered →
    ∃ value, core.entry registered.module.key = some ⟨value, none⟩

section Keeping

variable {core : Core} {event : Event} {index : Nat} {registered after : RegisteredModule}

theorem Kept.live (kept : Kept core registered) (recent : Recent core registered) :
    ∃ entry, remains core.now (core.entry registered.module.key) = some entry := by
  rcases recent with written | ⟨called, last, early⟩
  · rcases kept.undated written with ⟨value, stands⟩
    exact ⟨_, ExpiringMap.remains_eq_some.mpr ⟨stands, rfl⟩⟩
  · rcases ((kept.stays called last).2 early).remains early with ⟨entry, left, -⟩
    exact ⟨entry, left⟩

private theorem not_justWritten {worker : Worker} (member : worker ∈ registered.thread.workers)
    (turned : worker ≠ .fresh) : ¬ JustWritten registered :=
  fun written => turned (written.1 worker member)

private theorem not_justWritten_respawned : ¬ JustWritten registered.respawned := by
  intro written
  rcases written with ⟨-, earlier, key, value, split⟩
  have longer := congrArg List.length split
  change registered.module.threadCalls.length =
    (earlier ++ .writeValue key value :: registered.module.threadCalls).length at longer
  rw [List.length_append, List.length_cons] at longer
  omega

private theorem threadCalls_writeTtl {module : Module} {key : Bytes} {duration : Duration}
    {rest : List DataBusCall} (suffix : .writeTtl key duration :: rest <:+ module.threadCalls) :
    ∃ (earlier : List DataBusCall) (written value : Bytes),
      module.threadCalls = earlier ++ .writeValue written value :: .writeTtl key duration :: rest := by
  cases module with
  | server workerCount =>
      simp only [Module.threadCalls, Module.runCalls, List.cons_append, List.nil_append,
        List.suffix_cons_iff, List.suffix_nil, List.cons.injEq, DataBusCall.writeTtl.injEq,
        reduceCtorEq, false_and, false_or, or_false] at suffix
      rcases suffix with ⟨⟨rfl, rfl⟩, rfl⟩ | ⟨⟨rfl, rfl⟩, rfl⟩ | ⟨⟨rfl, rfl⟩, rfl⟩
      · exact ⟨[], _, _, rfl⟩
      · exact ⟨[_, _], _, _, rfl⟩
      · exact ⟨[_, _, _, _], _, _, rfl⟩
  | cli =>
      simp only [Module.threadCalls, Module.runCalls, List.cons_append, List.nil_append,
        List.suffix_cons_iff, List.suffix_nil, List.cons.injEq, DataBusCall.writeTtl.injEq,
        reduceCtorEq, false_and, false_or, or_false] at suffix
      rcases suffix with ⟨⟨rfl, rfl⟩, rfl⟩ | ⟨⟨rfl, rfl⟩, rfl⟩
      · exact ⟨[], _, _, rfl⟩
      · exact ⟨[_, _], _, _, rfl⟩

theorem Kept.elsewhere (kept : Kept core registered) (all : AllFading core)
    (found : core.modules[index]? = some registered) (elsewhere : event.target ≠ some index) :
    Kept (core.next event) registered where
  stays := by
    intro called last
    rcases kept.stays called last with ⟨past, stays⟩
    have later := now_le_next core event
    refine ⟨Nat.le_trans past later, ?_⟩
    intro early
    have soon := Nat.lt_of_le_of_lt later early
    rcases all.entry_elsewhere found elsewhere with same | left
    · rw [same]
      exact stays soon
    · rcases (stays soon).remains soon with ⟨entry, stands, kept⟩
      rw [left, stands]
      exact kept
  undated := by
    intro written
    rcases kept.undated written with ⟨value, stands⟩
    rcases all.entry_elsewhere found elsewhere with same | left
    · exact ⟨value, same.trans stands⟩
    · exact ⟨value, left.trans (ExpiringMap.remains_eq_some.mpr ⟨stands, rfl⟩)⟩

theorem Kept.still (kept : Kept core registered) (same : after.module = registered.module)
    (last : after.lastCall = registered.lastCall) (now : (core.next event).now = core.now)
    (quiet : core.request event = none) (written : ¬ JustWritten after) :
    Kept (core.next event) after where
  stays := by
    intro called lastCalled
    rw [last] at lastCalled
    rw [same, core.next_entry, quiet, now]
    exact kept.stays called lastCalled
  undated := fun just => absurd just written

private theorem kept_of_writeTtl {entry : Entry Bytes Instant}
    (requested : core.request event = some (.writeTtl registered.module.key heartbeatTtl))
    (left : remains core.now (core.entry registered.module.key) = some entry)
    (same : after.module = registered.module) (called : after.lastCall = some core.now)
    (written : ¬ JustWritten after) : Kept (core.next event) after where
  stays := by
    intro time last
    cases called.symm.trans last
    refine ⟨now_le_next core event, ?_⟩
    intro _
    rw [same, core.next_entry, requested]
    refine ⟨⟨entry.value, some (core.now + heartbeatTtl)⟩, ?_, ?_⟩
    · refine (core.entry_writeTtl _ _ _).trans ?_
      rw [if_pos rfl, left]
      rfl
    · intro deadline timed
      cases timed
      exact Nat.le_refl _
  undated := fun just => absurd just written

private theorem kept_of_writeValue {value : Bytes}
    (requested : core.request event = some (.writeValue registered.module.key value))
    (same : after.module = registered.module) (called : after.lastCall = some core.now) :
    Kept (core.next event) after := by
  have stands : (core.next event).entry after.module.key = some ⟨value, none⟩ := by
    rw [same, core.next_entry, requested]
    exact (core.entry_writeValue _ _ _).trans (if_pos rfl)
  refine ⟨?_, fun _ => ⟨value, stands⟩⟩
  intro time last
  cases called.symm.trans last
  refine ⟨now_le_next core event, ?_⟩
  intro _
  exact ⟨_, stands, fun _ timed => by cases timed⟩

theorem Kept.called (kept : Kept core registered) (fading : Fading core registered)
    (found : core.modules[index]? = some registered) (calls : registered.thread.calls ≠ []) :
    Kept (core.next (.start index)) (registered.called core.now) := by
  rcases List.exists_cons_of_ne_nil calls with ⟨request, rest, same⟩
  have requested : core.request (.start index) = some request := by
    unfold Core.request
    simp only [found, Option.bind_some, same, List.head?_cons]
  have suffix := fading.calls
  rw [same] at suffix
  rcases threadCalls_own (suffix.subset (List.mem_cons_self ..)) with ⟨value, rfl⟩ | rfl
  · exact kept_of_writeValue requested rfl rfl
  · rcases threadCalls_writeTtl suffix with ⟨earlier, written, value, split⟩
    have just : JustWritten registered :=
      ⟨fading.fresh calls, earlier, written, value, by rw [same]; exact split⟩
    rcases kept.undated just with ⟨held, stands⟩
    have left := ExpiringMap.remains_eq_some.mpr ⟨stands, (rfl : Entry.live core.now _ = true)⟩
    refine @kept_of_writeTtl core _ registered (registered.called core.now) _ requested left rfl rfl ?_
    intro again
    rcases again with ⟨-, before, key, next, other⟩
    have tail : (registered.called core.now).thread.calls = rest := congrArg List.tail same
    rw [tail] at other
    have ends : before ++ [.writeValue key next] =
        earlier ++ [.writeValue written value, .writeTtl registered.module.key heartbeatTtl] := by
      apply @List.append_cancel_right _ _ rest
      rw [List.append_assoc, List.append_assoc]
      exact other.symm.trans split
    have lasts := congrArg List.getLast? ends
    rw [List.getLast?_append, List.getLast?_append] at lasts
    cases lasts

theorem Kept.next (kept : Kept core registered) (all : AllFading core)
    (timely : Timely core event) (found : core.modules[index]? = some registered)
    (moves : Moves core index registered event after) : Kept (core.next event) after := by
  have fading := all.fading index registered found
  cases moves with
  | rest elsewhere => exact kept.elsewhere all found elsewhere
  | called calls => exact kept.called fading found calls
  | crashed head =>
      rcases List.exists_mem_of_ne_nil _ fading.workers with ⟨worker, member⟩
      have stops : Worker.stopped ∈ registered.crashed.thread.workers :=
        List.mem_map.mpr ⟨worker, member, rfl⟩
      exact kept.still rfl rfl rfl rfl (not_justWritten stops (fun same => by cases same))
  | beaten started turns running =>
      rcases kept.live (timely registered found) with ⟨entry, left⟩
      have turned : Worker.looping ≠ .fresh := fun same => by cases same
      refine kept_of_writeTtl ?_ left rfl rfl (not_justWritten ?_ turned)
      · unfold Core.request
        simp only [found, Option.map_some]
      · exact List.mem_iff_getElem?.mpr ⟨_, List.getElem?_set_self (List.getElem?_eq_some_iff.mp turns).1⟩
  | stopped looping =>
      have turned : Worker.stopped ≠ .fresh := fun same => by cases same
      refine kept.still rfl rfl rfl rfl (not_justWritten ?_ turned)
      exact List.mem_iff_getElem?.mpr ⟨_, List.getElem?_set_self (List.getElem?_eq_some_iff.mp looping).1⟩
  | respawned checking missing terminated =>
      exact kept.still rfl rfl (core.next_now _) rfl not_justWritten_respawned

end Keeping

structure AllKept (core : Core) : Prop where
  fading : AllFading core
  kept : ∀ (index : Nat) (registered : RegisteredModule),
    core.modules[index]? = some registered → Kept core registered

section Check

variable {core : Core} {event : Event} {index : Nat} {registered : RegisteredModule}

theorem AllKept.create (registry : Registry) (start : Instant) :
    AllKept (createCore registry start) := by
  refine ⟨AllFading.create registry start, ?_⟩
  intro index registered found
  rcases createCore_module found with ⟨module, -, rfl⟩
  exact ⟨fun called last => (by cases last),
    fun just => absurd just (@not_justWritten_respawned ⟨module, createModuleThread module, none, none⟩)⟩

theorem AllKept.next (all : AllKept core) (possible : Possible core event)
    (timely : Timely core event) : AllKept (core.next event) := by
  refine ⟨all.fading.next possible, ?_⟩
  intro index after found
  rcases Core.next_modules possible found with ⟨registered, there, moves⟩
  exact (all.kept index registered there).next all.fading timely there moves

theorem AllKept.listed (all : AllKept core) (timely : Timely core event) :
    RunningAreListed core event := by
  cases event with
  | check =>
      intro index registered found running
      rcases (all.kept index registered found).live ((timely index registered found).1 running) with
        ⟨entry, left⟩
      rw [key_mem_listed, left]
      rfl
  | tick duration => trivial
  | start index => trivial
  | crash index => trivial
  | beat index worker => trivial
  | stop index worker => trivial
  | proceed => trivial

/-- The check has still to come to this module, which it did not find. -/
def Awaited (core : Core) (index : Nat) (registered : RegisteredModule) : Prop :=
  core.modules[index]? = some registered ∧ registered.thread.Terminated ∧
    ∃ alive position, core.phase = .checking alive position ∧ position ≤ index ∧
      registered.module.key ∉ alive

private theorem target_ne_of_terminated (possible : Possible core event)
    (found : core.modules[index]? = some registered) (terminated : registered.thread.Terminated) :
    event.target ≠ some index := by
  intro same
  cases event with
  | start other =>
      cases same
      rcases possible with ⟨starting, there, calls⟩
      cases there.symm.trans found
      exact calls terminated.1
  | crash other =>
      cases same
      rcases possible with ⟨starting, there, key, value, head⟩
      cases there.symm.trans found
      rw [terminated.1] at head
      cases head
  | beat other worker =>
      cases same
      rcases possible with ⟨beating, there, -, state, turns, running⟩
      cases there.symm.trans found
      exact not_terminated_of_worker turns running terminated
  | stop other worker =>
      cases same
      rcases possible with ⟨stopping, there, looping⟩
      cases there.symm.trans found
      exact not_terminated_of_worker looping (fun same => by cases same) terminated
  | tick duration => cases same
  | check => cases same
  | proceed => cases same

private theorem Core.next_elsewhere (elsewhere : event.target ≠ some index)
    (notProceed : event ≠ .proceed) :
    (core.next event).modules[index]? = core.modules[index]? := by
  cases event with
  | tick duration => rfl
  | check => rfl
  | proceed => exact absurd rfl notProceed
  | start other =>
      have different : other ≠ index := fun same => elsewhere (congrArg some same)
      simp only [Core.next]
      cases core.modules[other]?.bind (fun registered => registered.thread.calls.head?) with
      | none => rfl
      | some request => exact (Core.getElem?_update _ other index _).trans (if_neg different)
  | crash other =>
      have different : other ≠ index := fun same => elsewhere (congrArg some same)
      exact (Core.getElem?_update core other index _).trans (if_neg different)
  | beat other worker =>
      have different : other ≠ index := fun same => elsewhere (congrArg some same)
      simp only [Core.next]
      cases core.modules[other]? with
      | none => rfl
      | some beating => exact (Core.getElem?_update _ other index _).trans (if_neg different)
  | stop other worker =>
      have different : other ≠ index := fun same => elsewhere (congrArg some same)
      exact (Core.getElem?_update core other index _).trans (if_neg different)

theorem Awaited.proceed (awaited : Awaited core index registered) :
    Awaited (core.next .proceed) index registered ∨
      (core.next .proceed).modules[index]? = some registered.respawned := by
  rcases awaited with ⟨found, terminated, alive, position, phase, later, missing⟩
  have step : core.next .proceed = core.checkNext alive position := by
    unfold Core.next
    rw [phase]
  rw [step]
  rcases checkNext_cases core alive position with ⟨ended, -⟩ |
    ⟨checked, there, ⟨heard, next⟩ | ⟨unheard, -, next⟩ | ⟨-, -, next⟩⟩
  · have bound := (List.getElem?_eq_some_iff.mp found).1
    rw [List.getElem?_eq_none_iff] at ended
    omega
  · rw [next]
    have different : position ≠ index := by
      intro same
      subst same
      cases there.symm.trans found
      exact missing heard
    exact Or.inl ⟨found, terminated, alive, position + 1, rfl, by omega, missing⟩
  · rw [next]
    have changed := Core.getElem?_update core position index RegisteredModule.respawned
    by_cases same : position = index
    · rw [if_pos same, found] at changed
      exact Or.inr changed
    · rw [if_neg same, found] at changed
      exact Or.inl ⟨changed, terminated, alive, position + 1, rfl, by omega, missing⟩
  · rw [next]
    exact Or.inl ⟨found, terminated, alive, position, phase, later, missing⟩

theorem Awaited.next (awaited : Awaited core index registered) (possible : Possible core event) :
    Awaited (core.next event) index registered ∨
      (event = .proceed ∧ (core.next event).modules[index]? = some registered.respawned) := by
  by_cases isProceed : event = .proceed
  · subst isProceed
    exact awaited.proceed.imp_right (fun started => ⟨rfl, started⟩)
  · rcases awaited with ⟨found, terminated, alive, position, phase, later, missing⟩
    have isCheck : event ≠ .check := by
      intro same
      subst same
      rcases possible with ⟨wake, asleep, -⟩
      cases phase.symm.trans asleep
    have elsewhere := target_ne_of_terminated possible found terminated
    refine Or.inl ⟨?_, terminated, alive, position, ?_, later, missing⟩
    · rw [Core.next_elsewhere elsewhere isProceed]
      exact found
    · rw [Core.next_phase isCheck isProceed]
      exact phase

theorem Awaited.run {events : List Event} (awaited : Awaited core index registered)
    (possible : Along Core.next Possible core events)
    (ended : ∃ wake, (events.foldl Core.next core).phase = .sleeping wake) :
    ∃ before after, events = before ++ .proceed :: after ∧
      ((before ++ [.proceed]).foldl Core.next core).modules[index]? = some registered.respawned := by
  induction events generalizing core with
  | nil =>
      rcases awaited with ⟨-, -, alive, position, phase, -, -⟩
      rcases ended with ⟨wake, asleep⟩
      cases phase.symm.trans asleep
  | cons event events ih =>
      rcases awaited.next possible.1 with later | ⟨rfl, started⟩
      · rcases ih later possible.2 ended with ⟨before, after, rfl, started⟩
        exact ⟨event :: before, after, rfl, started⟩
      · exact ⟨[], events, rfl, started⟩

private theorem AllKept.supervised (all : AllKept core) (checking : Checking core)
    (possible : Possible core event) (timely : Timely core event) : Supervised core event := by
  have listed := all.listed timely
  have joins := (checking.next possible listed).joins
  refine ⟨joins, fun busy => ⟨busy, joins⟩, ?_⟩
  intro isCheck index registered found terminated
  subst isCheck
  have silent := (timely index registered found).2 terminated
  refine ⟨all.fading.replaces listed found terminated silent, ?_⟩
  intro events goesOn ended
  have awaited : Awaited (core.next .check) index registered :=
    ⟨found, terminated, core.listed, 0, rfl, Nat.zero_le _,
      all.fading.not_listed found terminated silent⟩
  exact awaited.run goesOn ended

end Check

/-- Along every possible schedule whose heartbeats and checks come in time, the supervision loop
does its work. -/
theorem timely_schedules_are_supervised (registry : Registry) (start : Instant)
    (events : List Event) (possible : Along Core.next Possible (createCore registry start) events)
    (timely : Along Core.next Timely (createCore registry start) events) :
    Along Core.next Supervised (createCore registry start) events := by
  apply @Along.gives Core Event _ _ Core.next _ (fun core => AllKept core ∧ Checking core) _
    (possible.and timely)
  · exact ⟨AllKept.create registry start, fun _ _ same => by cases same⟩
  · intro core event kept met
    exact ⟨kept.1.next met.1 met.2, kept.2.next met.1 (kept.1.listed met.2)⟩
  · intro core event kept met
    exact kept.1.supervised kept.2 met.1 met.2

/-- The module beats, is found by a check, stops, is silent for its lifetime, and a check starts
it again. -/
def silentEvents : List Event :=
  startedEvents ++
    [.tick (fromSecs 5), .check, .proceed, .beat 0 0, .proceed, .stop 0 0, .tick (fromSecs 15),
      .check, .proceed, .proceed]

def stoppedEvents : List Event :=
  startedEvents ++ [.stop 0 0, .tick (fromSecs 5)]

def waitingEvents : List Event :=
  startedEvents ++ [.tick (fromSecs 16), .check]

def cliWith (worker : Worker) : RegisteredModule :=
  ⟨.cli, ⟨[], [worker]⟩, some 0, some 0⟩

theorem silent_module_is_replaced :
    Along Core.next Supervised (createCore cliRegistry 0) silentEvents := by
  apply timely_schedules_are_supervised
  · apply started_possible
    refine ⟨trivial, ⟨fromSecs 5, rfl, Nat.le_refl _⟩,
      ⟨⟨[Module.cli.key], 0, by decide +kernel⟩, by decide +kernel⟩, ?_,
      ⟨⟨[Module.cli.key], 1, by decide +kernel⟩, by decide +kernel⟩, ?_, trivial,
      ⟨fromSecs 10, by decide +kernel, by decide +kernel⟩,
      ⟨⟨[], 0, by decide +kernel⟩, by decide +kernel⟩,
      ⟨⟨[], 1, by decide +kernel⟩, by decide +kernel⟩, trivial⟩
    · exact ⟨cliWith .looping, by decide +kernel, rfl, .looping, rfl, by decide⟩
    · exact ⟨⟨.cli, ⟨[], [.looping]⟩, some (fromSecs 5), some (fromSecs 5)⟩, by decide +kernel, rfl⟩
  · refine ⟨trivial, trivial, trivial, trivial, trivial, ?_, trivial, ?_, trivial, ?_, trivial,
      trivial, trivial, ?_, trivial, trivial, trivial⟩
    · intro registered found
      cases found
      exact Or.inl ⟨by decide, _, _, _, rfl⟩
    · intro index registered found
      cases only_module (cliWith .looping) (by decide +kernel) found
      exact ⟨fun _ => Or.inr ⟨0, rfl, by decide +kernel⟩,
        fun terminated => absurd terminated (by decide)⟩
    · intro registered found
      cases only_module (cliWith .looping) (by decide +kernel) found
      exact Or.inr ⟨0, rfl, by decide +kernel⟩
    · intro index registered found
      cases only_module ⟨.cli, ⟨[], [.stopped]⟩, some (fromSecs 5), some (fromSecs 5)⟩
        (by decide +kernel) found
      refine ⟨fun running => absurd (by decide) running, ?_⟩
      intro _ called last
      cases last
      decide +kernel

/-- A live thread is joined, and a terminated one is passed over. -/
theorem live_thread_is_joined_and_stopped_one_passed_over :
    (Along Core.next Possible (createCore cliRegistry 0) waitingEvents ∧
      ∃ registered ∈ (waitingEvents.foldl Core.next (createCore cliRegistry 0)).joining,
        ¬ registered.thread.Terminated) ∧
    (Along Core.next Possible (createCore cliRegistry 0) stoppedEvents ∧
      Possible (stoppedEvents.foldl Core.next (createCore cliRegistry 0)) .check ∧
      ∃ registered, (stoppedEvents.foldl Core.next (createCore cliRegistry 0)).modules[0]? =
          some registered ∧ registered.thread.Terminated ∧
        (checkAndRespawnModules
          (stoppedEvents.foldl Core.next (createCore cliRegistry 0))).modules[0]? =
            some registered) := by
  refine ⟨⟨?_, cliWith .looping, ?_, ?_⟩, ?_, ?_, cliWith .stopped, ?_, ?_, ?_⟩
  · exact started_possible ⟨trivial, ⟨_, rfl, by decide +kernel⟩, trivial⟩
  · rw [Option.mem_def]
    decide +kernel
  · decide +kernel
  · exact started_possible ⟨⟨_, rfl, rfl⟩, trivial, trivial⟩
  · exact ⟨_, rfl, by decide +kernel⟩
  · decide +kernel
  · decide +kernel
  · decide +kernel

end Supervision

end TricPlus
