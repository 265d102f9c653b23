import TricPlus.Supervision

/-!
What a supervision check finds.

A heartbeat sets a lifetime on the module's key and does nothing if the key has expired.  So a
module whose key has expired once is not found again before it is started anew, however often
its heart beats.
-/

namespace TricPlus

open GuardedRuns
open ExpiringMap (Entry remains)

namespace Supervision

/-! ### What a step does -/

/-- The module whose thread takes the step. -/
def Event.target : Event → Option Nat
  | .start index => some index
  | .crash index => some index
  | .beat index _ => some index
  | .stop index _ => some index
  | _ => none

inductive Moves (core : Core) (index : Nat) (registered : RegisteredModule) :
    Event → RegisteredModule → Prop where
  | rest {event : Event} (elsewhere : event.target ≠ some index) :
      Moves core index registered event registered
  | called (calls : registered.thread.calls ≠ []) :
      Moves core index registered (.start index) (registered.called core.now)
  | crashed {key value : Bytes}
      (head : registered.thread.calls.head? = some (.writeValue key value)) :
      Moves core index registered (.crash index) registered.crashed
  | beaten {worker : Nat} {state : Worker} (started : registered.thread.calls = [])
      (turns : registered.thread.workers[worker]? = some state) (running : state ≠ .stopped) :
      Moves core index registered (.beat index worker) (registered.beaten worker core.now)
  | stopped {worker : Nat} (looping : registered.thread.workers[worker]? = some .looping) :
      Moves core index registered (.stop index worker) (registered.stopped worker)
  | respawned {alive : List Bytes} (checking : core.phase = .checking alive index)
      (missing : registered.module.key ∉ alive) (terminated : registered.thread.Terminated) :
      Moves core index registered .proceed registered.respawned

namespace Core

def request (core : Core) : Event → Option DataBusCall
  | .start index => core.modules[index]?.bind (fun registered => registered.thread.calls.head?)
  | .beat index _ => core.modules[index]?.map
      (fun registered => .writeTtl registered.module.key heartbeatTtl)
  | .check => some (.findByPrefix modulePrefix)
  | _ => none

variable {core : Core} {event : Event} {index : Nat} {registered : RegisteredModule}

theorem getElem?_update (core : Core) (index other : Nat)
    (change : RegisteredModule → RegisteredModule) :
    (core.update index change).modules[other]? =
      if index = other then core.modules[other]?.map change else core.modules[other]? := by
  unfold update
  rw [List.getElem?_modify]
  by_cases same : index = other
  · simp only [if_pos same, Option.map_eq_map]
  · simp only [if_neg same, id_map']

theorem of_update {other : Nat} {change : RegisteredModule → RegisteredModule}
    {after : RegisteredModule} (found : (core.update index change).modules[other]? = some after) :
    (index = other ∧ ∃ registered, core.modules[other]? = some registered ∧
      after = change registered) ∨ (index ≠ other ∧ core.modules[other]? = some after) := by
  rw [getElem?_update] at found
  by_cases same : index = other
  · rw [if_pos same] at found
    rcases Option.map_eq_some_iff.mp found with ⟨registered, there, changed⟩
    exact Or.inl ⟨same, registered, there, changed.symm⟩
  · rw [if_neg same] at found
    exact Or.inr ⟨same, found⟩

theorem next_modules (possible : Possible core event) {after : RegisteredModule}
    (found : (core.next event).modules[index]? = some after) :
    ∃ registered, core.modules[index]? = some registered ∧
      Moves core index registered event after := by
  cases event with
  | tick duration => exact ⟨after, found, .rest (fun same => by cases same)⟩
  | check => exact ⟨after, found, .rest (fun same => by cases same)⟩
  | start other =>
      rcases possible with ⟨starting, there, calls⟩
      have head := List.head?_eq_some_head calls
      simp only [next, there, Option.bind_some, head] at found
      rcases of_update found with ⟨same, registered, here, changed⟩ | ⟨other, here⟩
      · subst same
        cases there.symm.trans here
        exact ⟨starting, here, changed ▸ .called calls⟩
      · exact ⟨after, here, .rest (fun same => other (Option.some_inj.mp same))⟩
  | crash other =>
      rcases possible with ⟨starting, there, key, value, head⟩
      rcases of_update found with ⟨same, registered, here, changed⟩ | ⟨other, here⟩
      · subst same
        cases there.symm.trans here
        exact ⟨starting, here, changed ▸ .crashed head⟩
      · exact ⟨after, here, .rest (fun same => other (Option.some_inj.mp same))⟩
  | beat other worker =>
      rcases possible with ⟨beating, there, started, state, turns, running⟩
      simp only [next, there] at found
      rcases of_update found with ⟨same, registered, here, changed⟩ | ⟨other, here⟩
      · subst same
        cases there.symm.trans here
        exact ⟨beating, here, changed ▸ .beaten started turns running⟩
      · exact ⟨after, here, .rest (fun same => other (Option.some_inj.mp same))⟩
  | stop other worker =>
      rcases possible with ⟨stopping, there, looping⟩
      rcases of_update found with ⟨same, registered, here, changed⟩ | ⟨other, here⟩
      · subst same
        cases there.symm.trans here
        exact ⟨stopping, here, changed ▸ .stopped looping⟩
      · exact ⟨after, here, .rest (fun same => other (Option.some_inj.mp same))⟩
  | proceed =>
      unfold next at found
      cases phase : core.phase with
      | sleeping wake =>
          rw [phase] at found
          exact ⟨after, found, .rest (fun same => by cases same)⟩
      | checking alive other =>
          rw [phase] at found
          simp only [checkNext] at found
          cases there : core.modules[other]? with
          | none =>
              rw [there] at found
              exact ⟨after, found, .rest (fun same => by cases same)⟩
          | some checked =>
              rw [there] at found
              simp only at found
              split at found
              · exact ⟨after, found, .rest (fun same => by cases same)⟩
              · next missing =>
                  split at found
                  · next terminated =>
                      rcases of_update found with ⟨same, registered, here, changed⟩ | ⟨other, here⟩
                      · subst same
                        cases there.symm.trans here
                        exact ⟨checked, here, changed ▸ .respawned phase missing terminated⟩
                      · exact ⟨after, here, .rest (fun same => by cases same)⟩
                  · exact ⟨after, found, .rest (fun same => by cases same)⟩

private theorem checkNext_coreBus (alive : List Bytes) (index : Nat) :
    (core.checkNext alive index).coreBus = core.coreBus := by
  unfold checkNext
  cases core.modules[index]? with
  | none => rfl
  | some registered =>
      simp only
      split
      · rfl
      · split <;> rfl

private theorem checkNext_now (alive : List Bytes) (index : Nat) :
    (core.checkNext alive index).now = core.now := by
  unfold checkNext
  cases core.modules[index]? with
  | none => rfl
  | some registered =>
      simp only
      split
      · rfl
      · split <;> rfl

theorem next_entry (event : Event) (key : Bytes) : (core.next event).entry key =
    (core.request event).elim (core.entry key) (fun request => (core.perform request).entry key) := by
  cases event with
  | tick duration => rfl
  | crash index => rfl
  | stop index worker => rfl
  | check => rfl
  | start index =>
      simp only [next, request]
      cases core.modules[index]?.bind (fun registered => registered.thread.calls.head?) <;> rfl
  | beat index worker =>
      simp only [next, request]
      cases core.modules[index]? <;> rfl
  | proceed =>
      simp only [next, request, entry]
      cases core.phase with
      | sleeping wake => rfl
      | checking alive index =>
          simp only [checkNext_coreBus]
          rfl

theorem next_now (event : Event) : (core.next event).now =
    core.now + (match event with | .tick duration => duration | _ => 0) := by
  cases event with
  | tick duration => rfl
  | crash index => rfl
  | stop index worker => rfl
  | check => rfl
  | start index =>
      simp only [next]
      cases core.modules[index]?.bind (fun registered => registered.thread.calls.head?) <;> rfl
  | beat index worker =>
      simp only [next]
      cases core.modules[index]? <;> rfl
  | proceed =>
      simp only [next]
      cases core.phase with
      | sleeping wake => rfl
      | checking alive index => exact checkNext_now alive index

end Core

/-! ### Modules that are heard -/

/-- A check at this moment finds every module with a heartbeat less than the lifetime ago. -/
def Heard (core : Core) : Prop :=
  ∀ (index : Nat) (registered : RegisteredModule) (beat : Instant),
    core.modules[index]? = some registered → registered.lastBeat = some beat →
    core.now < beat + heartbeatTtl → registered.module.key ∈ core.listed

/-- A heartbeat finds the module's key live. -/
def OnLiveKey (core : Core) : Event → Prop
  | .beat index _ => ∀ registered, core.modules[index]? = some registered →
      (remains core.now (core.entry registered.module.key)).isSome = true
  | _ => True

/-- Calls to come are heartbeats and writes, and a key stays until its lifetime after the last
heartbeat has passed. -/
structure Beating (core : Core) : Prop where
  calls : ∀ (index : Nat) (registered : RegisteredModule), core.modules[index]? = some registered →
    ∀ request ∈ registered.thread.calls, Heartbeat request
  stays : ∀ (index : Nat) (registered : RegisteredModule) (beat : Instant),
    core.modules[index]? = some registered → registered.lastBeat = some beat →
    beat ≤ core.now ∧ (core.now < beat + heartbeatTtl →
      Stays (core.entry registered.module.key) (beat + heartbeatTtl))

section Beating

variable {core : Core} {event : Event} {index : Nat} {registered after : RegisteredModule}

private theorem threadCalls_heartbeat (module : Module) :
    ∀ request ∈ module.threadCalls, Heartbeat request := by
  intro request member
  rcases List.mem_append.mp member with before | own
  · simp only [List.mem_cons, List.not_mem_nil, or_false] at before
    rcases before with rfl | rfl | rfl | rfl <;> first | exact rfl | trivial
  · cases module with
    | server workerCount =>
        simp only [Module.runCalls, List.mem_cons, List.not_mem_nil, or_false] at own
        rcases own with rfl | rfl <;> first | exact rfl | trivial
    | cli =>
        simp only [Module.runCalls, List.mem_cons, List.not_mem_nil, or_false] at own
        rw [own]
        trivial

theorem Moves.module_eq (moves : Moves core index registered event after) :
    after.module = registered.module := by
  cases moves <;> rfl

private theorem Moves.calls_heartbeat (moves : Moves core index registered event after)
    (heartbeats : ∀ request ∈ registered.thread.calls, Heartbeat request) :
    ∀ request ∈ after.thread.calls, Heartbeat request := by
  cases moves with
  | rest elsewhere => exact heartbeats
  | called calls => exact fun request member => heartbeats request (List.mem_of_mem_tail member)
  | crashed head => exact fun request member => by cases member
  | beaten started turns running => exact heartbeats
  | stopped looping => exact heartbeats
  | respawned checking missing terminated => exact threadCalls_heartbeat registered.module

private theorem Moves.lastBeat_cases (moves : Moves core index registered event after) :
    after.lastBeat = registered.lastBeat ∨
      (after.lastBeat = some core.now ∧ ∃ worker, event = .beat index worker) := by
  cases moves with
  | beaten started turns running => exact Or.inr ⟨rfl, _, rfl⟩
  | rest elsewhere => exact Or.inl rfl
  | called calls => exact Or.inl rfl
  | crashed head => exact Or.inl rfl
  | stopped looping => exact Or.inl rfl
  | respawned checking missing terminated => exact Or.inl rfl

theorem Beating.request (beating : Beating core) {request : DataBusCall}
    (requested : core.request event = some request) : Heartbeat request := by
  cases event with
  | start index =>
      rcases Option.bind_eq_some_iff.mp requested with ⟨registered, found, head⟩
      exact beating.calls index registered found request (List.mem_of_mem_head? head)
  | beat index worker =>
      rcases Option.map_eq_some_iff.mp requested with ⟨registered, found, rfl⟩
      rfl
  | check =>
      cases requested
      trivial
  | tick duration => cases requested
  | crash index => cases requested
  | stop index worker => cases requested
  | proceed => cases requested

private theorem Beating.stays_next (beating : Beating core) {key : Bytes} {limit : Instant}
    (stays : Stays (core.entry key) limit) (early : core.now < limit)
    (near : limit ≤ core.now + heartbeatTtl) : Stays ((core.next event).entry key) limit := by
  rw [core.next_entry]
  cases requested : core.request event with
  | none => exact stays
  | some request => exact stays.perform early near (beating.request requested)

theorem now_le_next (core : Core) (event : Event) : core.now ≤ (core.next event).now := by
  rw [core.next_now]
  exact Nat.le_add_right _ _

private theorem entry_of_beat {worker : Nat} (found : core.modules[index]? = some registered) :
    (core.next (.beat index worker)).entry registered.module.key =
      (remains core.now (core.entry registered.module.key)).map
        (fun entry => ⟨entry.value, some (core.now + heartbeatTtl)⟩) := by
  have requested : core.request (.beat index worker) =
      some (.writeTtl registered.module.key heartbeatTtl) := by
    unfold Core.request
    simp only [found, Option.map_some]
  rw [core.next_entry, requested]
  exact (core.entry_writeTtl _ _ _).trans (if_pos rfl)

theorem Beating.next (beating : Beating core) (possible : Possible core event)
    (live : OnLiveKey core event) : Beating (core.next event) where
  calls := by
    intro index after found
    rcases Core.next_modules possible found with ⟨registered, there, moves⟩
    exact moves.calls_heartbeat (beating.calls index registered there)
  stays := by
    intro index after beat found beaten
    rcases Core.next_modules possible found with ⟨registered, there, moves⟩
    have later := now_le_next core event
    rw [moves.module_eq]
    rcases moves.lastBeat_cases with same | ⟨fresh, worker, rfl⟩
    · rw [same] at beaten
      rcases beating.stays index registered beat there beaten with ⟨past, stays⟩
      refine ⟨Nat.le_trans past later, ?_⟩
      intro early
      have soon : core.now < beat + heartbeatTtl := Nat.lt_of_le_of_lt later early
      exact beating.stays_next (stays soon) soon (Nat.add_le_add_right past _)
    · rw [fresh] at beaten
      cases beaten
      refine ⟨later, ?_⟩
      intro _
      rcases Option.isSome_iff_exists.mp (live registered there) with ⟨entry, left⟩
      rw [entry_of_beat there, left]
      refine ⟨_, rfl, ?_⟩
      intro deadline timed
      cases timed
      exact Nat.le_refl _

theorem Beating.create (registry : Registry) (start : Instant) :
    Beating (createCore registry start) := by
  have fresh : ∀ (index : Nat) (registered : RegisteredModule),
      (createCore registry start).modules[index]? = some registered →
      ∃ module, registered = ⟨module, createModuleThread module, none, none⟩ := by
    intro index registered found
    rcases List.mem_map.mp (List.mem_of_getElem? found) with ⟨module, -, same⟩
    exact ⟨module, same.symm⟩
  refine ⟨?_, ?_⟩
  · intro index registered found
    rcases fresh index registered found with ⟨module, rfl⟩
    exact threadCalls_heartbeat module
  · intro index registered beat found beaten
    rcases fresh index registered found with ⟨module, rfl⟩
    cases beaten

theorem Beating.heard (beating : Beating core) : Heard core := by
  intro index registered beat found beaten early
  have stays := (beating.stays index registered beat found beaten).2 early
  rcases stays.remains early with ⟨entry, left, -⟩
  rw [key_mem_listed, left]
  rfl

private theorem onLiveKey_of_heard (heard : Heard (core.next event)) : OnLiveKey core event := by
  cases event with
  | beat index worker =>
      intro registered found
      have now : (core.next (.beat index worker)).now = core.now := core.next_now _
      have beaten : (core.next (.beat index worker)).modules[index]? =
          some (registered.beaten worker core.now) := by
        simp only [Core.next, found]
        rw [Core.getElem?_update, if_pos rfl]
        exact congrArg (Option.map _) found
      have listed := heard index _ core.now beaten rfl
        (by rw [now]; exact Nat.lt_add_of_pos_right (by decide))
      rw [key_mem_listed, now] at listed
      change (remains core.now
        ((core.next (.beat index worker)).entry registered.module.key)).isSome = true at listed
      rw [entry_of_beat found] at listed
      cases left : remains core.now (core.entry registered.module.key) with
      | some entry => rfl
      | none =>
          rw [left] at listed
          cases listed
  | tick duration => trivial
  | start index => trivial
  | crash index => trivial
  | stop index worker => trivial
  | check => trivial
  | proceed => trivial

end Beating

/-- Along a schedule every module is heard exactly if every heartbeat finds its key live. -/
theorem working_modules_are_heard_iff (registry : Registry) (start : Instant)
    (events : List Event) (possible : Along Core.next Possible (createCore registry start) events) :
    Along Core.next (fun core event => Heard (core.next event)) (createCore registry start) events ↔
      Along Core.next OnLiveKey (createCore registry start) events := by
  constructor
  · intro heard
    exact heard.weaken (fun _ _ here => onLiveKey_of_heard here)
  · intro live
    exact (possible.and live).gives (Beating.create registry start)
      (fun beating met => beating.next met.1 met.2)
      (fun beating met => (beating.next met.1 met.2).heard)

def cliRegistry : Registry where
  modules := [.cli]
  distinct := List.nodup_singleton _

def startedEvents : List Event :=
  [.start 0, .start 0, .start 0, .start 0, .start 0, .beat 0 0]

def idleEvents : List Event := startedEvents ++ [.tick (fromSecs 16), .beat 0 0]

def checkedEvents : List Event :=
  startedEvents ++ [.tick (fromSecs 5), .check, .proceed, .beat 0 0, .proceed]

theorem started_possible {rest : List Event}
    (possible : Along Core.next Possible (startedEvents.foldl Core.next (createCore cliRegistry 0))
      rest) : Along Core.next Possible (createCore cliRegistry 0) (startedEvents ++ rest) :=
  ⟨⟨_, rfl, List.cons_ne_nil _ _⟩, ⟨_, rfl, List.cons_ne_nil _ _⟩,
    ⟨_, rfl, List.cons_ne_nil _ _⟩, ⟨_, rfl, List.cons_ne_nil _ _⟩,
    ⟨_, rfl, List.cons_ne_nil _ _⟩, ⟨_, rfl, rfl, .fresh, rfl, by decide⟩, possible⟩

theorem only_module {core : Core} {index : Nat} (state : RegisteredModule)
    {registered : RegisteredModule}
    (modules : core.modules = [state]) (found : core.modules[index]? = some registered) :
    registered = state := by
  rw [modules] at found
  exact List.mem_singleton.mp (List.mem_of_getElem? found)

theorem started_module_is_heard :
    Along Core.next (fun core event => Heard (core.next event)) (createCore cliRegistry 0)
      checkedEvents := by
  apply (working_modules_are_heard_iff cliRegistry 0 checkedEvents ?_).mpr
  · refine ⟨trivial, trivial, trivial, trivial, trivial, ?_, trivial, trivial, trivial, ?_,
      trivial, trivial⟩
    · intro registered found
      cases found
      decide +kernel
    · intro registered found
      cases only_module ⟨.cli, ⟨[], [.looping]⟩, some 0, some 0⟩ (by decide +kernel) found
      decide +kernel
  · apply started_possible
    exact ⟨trivial, ⟨fromSecs 5, rfl, Nat.le_refl _⟩,
      ⟨⟨[Module.cli.key], 0, by decide +kernel⟩, by decide +kernel⟩,
      ⟨⟨.cli, ⟨[], [.looping]⟩, some 0, some 0⟩, by decide +kernel, rfl, .looping, rfl, by decide⟩,
      ⟨⟨[Module.cli.key], 1, by decide +kernel⟩, by decide +kernel⟩, trivial⟩

theorem idle_module_is_not_heard :
    Along Core.next Possible (createCore cliRegistry 0) idleEvents ∧
      ¬ Heard (idleEvents.foldl Core.next (createCore cliRegistry 0)) := by
  constructor
  · exact started_possible ⟨trivial, ⟨_, rfl, rfl, .looping, rfl, by decide⟩, trivial⟩
  · intro heard
    have listed := heard 0 _ _ rfl rfl (by decide +kernel)
    revert listed
    decide +kernel

end Supervision

end TricPlus
