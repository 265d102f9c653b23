import TricPlus.Heartbeats

/-!
Whom the supervision loop joins, and when a module whose thread has terminated is started
again.

The loop joins every module whose key the check did not list.  The join returns at once if the
thread has terminated and waits for it otherwise.  A thread that terminates leaves its key
behind, with a lifetime that runs out.
-/

namespace TricPlus

open GuardedRuns
open ExpiringMap (Entry remains)

namespace Supervision

def RunningAreListed (core : Core) : Event → Prop
  | .check => ∀ (index : Nat) (registered : RegisteredModule),
      core.modules[index]? = some registered → ¬ registered.thread.Terminated →
      registered.module.key ∈ core.listed
  | _ => True

/-- A check with nothing in between: the scan, a step for each module, and the end. -/
def checkAndRespawnModules (core : Core) : Core :=
  (Event.check :: List.replicate (core.modules.length + 1) .proceed).foldl Core.next core

/-! ### Joins -/

def Checking (core : Core) : Prop :=
  ∀ alive position, core.phase = .checking alive position →
    ∀ (index : Nat) (registered : RegisteredModule), position ≤ index →
    core.modules[index]? = some registered → registered.module.key ∉ alive →
    registered.thread.Terminated

section Joins

variable {core : Core} {event : Event} {index : Nat} {registered after : RegisteredModule}

theorem not_terminated_of_worker {worker : Nat} {state : Worker}
    (found : registered.thread.workers[worker]? = some state) (running : state ≠ .stopped) :
    ¬ registered.thread.Terminated :=
  fun terminated => running (terminated.2 state (List.mem_of_getElem? found))

theorem Moves.terminated (moves : Moves core index registered event after)
    (terminated : registered.thread.Terminated) (notProceed : event ≠ .proceed) :
    after.thread.Terminated := by
  cases moves with
  | rest elsewhere => exact terminated
  | called calls => exact absurd terminated.1 calls
  | crashed head =>
      rw [terminated.1] at head
      cases head
  | beaten started turns running =>
      exact absurd terminated (not_terminated_of_worker turns running)
  | stopped looping =>
      exact absurd terminated (not_terminated_of_worker looping (fun same => by cases same))
  | respawned checking missing _ => exact absurd rfl notProceed

theorem Core.next_phase (notCheck : event ≠ .check) (notProceed : event ≠ .proceed) :
    (core.next event).phase = core.phase := by
  cases event with
  | tick duration => rfl
  | crash index => rfl
  | stop index worker => rfl
  | check => exact absurd rfl notCheck
  | proceed => exact absurd rfl notProceed
  | start index =>
      simp only [Core.next]
      cases core.modules[index]?.bind (fun registered => registered.thread.calls.head?) <;> rfl
  | beat index worker =>
      simp only [Core.next]
      cases core.modules[index]? <;> rfl

theorem checkNext_cases (core : Core) (alive : List Bytes) (position : Nat) :
    (core.modules[position]? = none ∧ core.checkNext alive position =
      { core with phase := .sleeping (core.now + supervisionInterval) }) ∨
    ∃ registered, core.modules[position]? = some registered ∧
      ((registered.module.key ∈ alive ∧ core.checkNext alive position =
        { core with phase := .checking alive (position + 1) }) ∨
      (registered.module.key ∉ alive ∧ registered.thread.Terminated ∧
        core.checkNext alive position =
          { core.update position RegisteredModule.respawned with
            phase := .checking alive (position + 1) }) ∨
      (registered.module.key ∉ alive ∧ ¬ registered.thread.Terminated ∧
        core.checkNext alive position = core)) := by
  unfold Core.checkNext
  cases found : core.modules[position]? with
  | none => exact Or.inl ⟨rfl, rfl⟩
  | some registered =>
      refine Or.inr ⟨registered, rfl, ?_⟩
      simp only
      by_cases heard : registered.module.key ∈ alive
      · exact Or.inl ⟨heard, if_pos heard⟩
      · rw [if_neg heard]
        by_cases terminated : registered.thread.Terminated
        · exact Or.inr (Or.inl ⟨heard, terminated, if_pos terminated⟩)
        · exact Or.inr (Or.inr ⟨heard, terminated, if_neg terminated⟩)

theorem Checking.proceed (checking : Checking core) : Checking (core.next .proceed) := by
  unfold Core.next
  cases phase : core.phase with
  | sleeping wake => exact checking
  | checking alive position =>
      simp only
      rcases checkNext_cases core alive position with ⟨-, step⟩ |
        ⟨checked, there, ⟨-, step⟩ | ⟨-, -, step⟩ | ⟨-, -, step⟩⟩
      · rw [step]
        exact fun _ _ same => by cases same
      · rw [step]
        intro heard next same index registered later found missing
        cases same
        exact checking alive position phase index registered (Nat.le_of_succ_le later) found missing
      · rw [step]
        intro heard next same index registered later found missing
        cases same
        rcases Core.of_update found with ⟨here, -⟩ | ⟨-, found⟩
        · omega
        · exact checking alive position phase index registered (Nat.le_of_succ_le later) found
            missing
      · rw [step]
        exact checking

theorem Checking.next (checking : Checking core) (possible : Possible core event)
    (listed : RunningAreListed core event) : Checking (core.next event) := by
  by_cases isCheck : event = .check
  · subst isCheck
    intro alive position same index registered _ found missing
    cases same
    by_cases terminated : registered.thread.Terminated
    · exact terminated
    · exact absurd (listed index registered found terminated) missing
  · by_cases isProceed : event = .proceed
    · subst isProceed
      exact checking.proceed
    · intro alive position same index after later found missing
      rw [Core.next_phase isCheck isProceed] at same
      rcases Core.next_modules possible found with ⟨registered, there, moves⟩
      rw [moves.module_eq] at missing
      exact moves.terminated (checking alive position same index registered later there missing)
        isProceed

theorem Checking.joins (checking : Checking core) :
    ∀ registered ∈ core.joining, registered.thread.Terminated := by
  intro registered member
  unfold Core.joining at member
  cases phase : core.phase with
  | sleeping wake =>
      rw [phase] at member
      cases member
  | checking alive position =>
      rw [phase] at member
      rcases Option.filter_eq_some_iff.mp member with ⟨found, missing⟩
      exact checking alive position phase position registered (Nat.le_refl _) found
        (of_decide_eq_true missing)

end Joins

/-- Whatever stands under the module's key goes a lifetime after its last call. -/
def Dated (core : Core) (registered : RegisteredModule) : Prop :=
  ∀ entry, core.entry registered.module.key = some entry → ∃ deadline called,
    entry.deadline = some deadline ∧ registered.lastCall = some called ∧
      deadline ≤ called + heartbeatTtl

def Dating (thread : Thread) : Prop :=
  (∃ key duration rest, thread.calls = .writeTtl key duration :: rest) ∨
    (thread.calls = [] ∧ ∀ worker ∈ thread.workers, worker = .fresh)

/-- How a module stands: its calls to come, its workers, and its key. -/
structure Fading (core : Core) (registered : RegisteredModule) : Prop where
  calls : registered.thread.calls <:+ registered.module.threadCalls
  fresh : registered.thread.calls ≠ [] → ∀ worker ∈ registered.thread.workers, worker = .fresh
  workers : registered.thread.workers ≠ []
  dated : Dated core registered ∨ Dating registered.thread

structure AllFading (core : Core) : Prop where
  distinct : ∀ (index other : Nat) (registered another : RegisteredModule),
    core.modules[index]? = some registered → core.modules[other]? = some another →
    index ≠ other → registered.module.key ≠ another.module.key
  fading : ∀ (index : Nat) (registered : RegisteredModule),
    core.modules[index]? = some registered → Fading core registered

section Fading

variable {core : Core} {event : Event} {index : Nat} {registered after : RegisteredModule}

private theorem threadCalls_write {module : Module} {key value : Bytes} {rest : List DataBusCall}
    (suffix : .writeValue key value :: rest <:+ module.threadCalls) :
    key = module.key ∧ (rest = [] ∨ ∃ next duration others, rest = .writeTtl next duration :: others) := by
  cases module with
  | server workerCount =>
      simp only [Module.threadCalls, Module.runCalls, List.cons_append, List.nil_append,
        List.suffix_cons_iff, List.suffix_nil, List.cons.injEq, DataBusCall.writeValue.injEq,
        reduceCtorEq, false_and, false_or, or_false] at suffix
      rcases suffix with ⟨⟨same, -⟩, rest⟩ | ⟨⟨same, -⟩, rest⟩ | ⟨⟨same, -⟩, rest⟩
      · exact ⟨same, Or.inr ⟨_, _, _, rest⟩⟩
      · exact ⟨same, Or.inr ⟨_, _, _, rest⟩⟩
      · exact ⟨same, Or.inr ⟨_, _, _, rest⟩⟩
  | cli =>
      simp only [Module.threadCalls, Module.runCalls, List.cons_append, List.nil_append,
        List.suffix_cons_iff, List.suffix_nil, List.cons.injEq, DataBusCall.writeValue.injEq,
        reduceCtorEq, false_and, false_or, or_false] at suffix
      rcases suffix with ⟨⟨same, -⟩, rest⟩ | ⟨⟨same, -⟩, rest⟩ | ⟨⟨same, -⟩, rest⟩
      · exact ⟨same, Or.inr ⟨_, _, _, rest⟩⟩
      · exact ⟨same, Or.inr ⟨_, _, _, rest⟩⟩
      · exact ⟨same, Or.inl rest⟩

theorem threadCalls_own {module : Module} {request : DataBusCall}
    (member : request ∈ module.threadCalls) :
    (∃ value, request = .writeValue module.key value) ∨
      request = .writeTtl module.key heartbeatTtl := by
  rcases List.mem_append.mp member with before | own
  · simp only [List.mem_cons, List.not_mem_nil, or_false] at before
    rcases before with rfl | rfl | rfl | rfl
    · exact Or.inl ⟨_, rfl⟩
    · exact Or.inr rfl
    · exact Or.inl ⟨_, rfl⟩
    · exact Or.inr rfl
  · cases module with
    | server workerCount =>
        simp only [Module.runCalls, List.mem_cons, List.not_mem_nil, or_false] at own
        rcases own with rfl | rfl
        · exact Or.inl ⟨_, rfl⟩
        · exact Or.inr rfl
    | cli =>
        simp only [Module.runCalls, List.mem_cons, List.not_mem_nil, or_false] at own
        exact Or.inl ⟨_, own⟩

private theorem AllFading.request_own (all : AllFading core) {request : DataBusCall}
    (requested : core.request event = some request) :
    request = .findByPrefix modulePrefix ∨ ∃ other another, event.target = some other ∧
      core.modules[other]? = some another ∧
        ((∃ value, request = .writeValue another.module.key value) ∨
          request = .writeTtl another.module.key heartbeatTtl) := by
  cases event with
  | start other =>
      rcases Option.bind_eq_some_iff.mp requested with ⟨another, found, head⟩
      have own := threadCalls_own
        ((all.fading other another found).calls.subset (List.mem_of_mem_head? head))
      exact Or.inr ⟨other, another, rfl, found, own⟩
  | beat other worker =>
      rcases Option.map_eq_some_iff.mp requested with ⟨another, found, rfl⟩
      exact Or.inr ⟨other, another, rfl, found, Or.inr rfl⟩
  | check =>
      cases requested
      exact Or.inl rfl
  | tick duration => cases requested
  | crash index => cases requested
  | stop index worker => cases requested
  | proceed => cases requested

theorem AllFading.entry_elsewhere (all : AllFading core)
    (found : core.modules[index]? = some registered) (elsewhere : event.target ≠ some index) :
    (core.next event).entry registered.module.key = core.entry registered.module.key ∨
      (core.next event).entry registered.module.key =
        remains core.now (core.entry registered.module.key) := by
  rw [core.next_entry]
  cases requested : core.request event with
  | none => exact Or.inl rfl
  | some request =>
      apply Or.inr
      rcases all.request_own requested with rfl | ⟨other, another, target, there, own⟩
      · exact core.entry_findByPrefix _ _
      · have different : another.module.key ≠ registered.module.key := by
          apply all.distinct other index another registered there found
          intro same
          rw [same] at target
          exact elsewhere target
        rcases own with ⟨value, rfl⟩ | rfl
        · exact (core.entry_writeValue _ _ _).trans (if_neg different)
        · exact (core.entry_writeTtl _ _ _).trans (if_neg different)

theorem Dated.elsewhere (dated : Dated core registered) (all : AllFading core)
    (found : core.modules[index]? = some registered) (elsewhere : event.target ≠ some index) :
    Dated (core.next event) registered := by
  intro entry stands
  rcases all.entry_elsewhere found elsewhere with same | left
  · rw [same] at stands
    exact dated entry stands
  · rw [left] at stands
    exact dated entry (ExpiringMap.remains_eq_some.mp stands).1

private theorem dated_of_writeTtl
    (requested : core.request event = some (.writeTtl registered.module.key heartbeatTtl))
    (same : after.module = registered.module) (called : after.lastCall = some core.now) :
    Dated (core.next event) after := by
  intro entry stands
  rw [same, core.next_entry, requested] at stands
  have set := (core.entry_writeTtl registered.module.key registered.module.key heartbeatTtl).symm.trans
    stands
  rw [if_pos rfl] at set
  rcases Option.map_eq_some_iff.mp set with ⟨held, -, rfl⟩
  exact ⟨_, _, rfl, called, Nat.le_refl _⟩

private theorem not_dating_of_terminated (terminated : registered.thread.Terminated)
    (workers : registered.thread.workers ≠ []) : ¬ Dating registered.thread := by
  intro dating
  rcases dating with ⟨key, duration, rest, calls⟩ | ⟨-, fresh⟩
  · rw [terminated.1] at calls
    cases calls
  · rcases List.exists_mem_of_ne_nil _ workers with ⟨worker, member⟩
    cases (terminated.2 worker member).symm.trans (fresh worker member)

private theorem createModuleThread_workers (module : Module) :
    (createModuleThread module).workers ≠ [] := by
  unfold createModuleThread
  simp only [ne_eq, List.replicate_eq_nil_iff]
  cases module with
  | server workerCount =>
      simp only [Module.workers]
      omega
  | cli => exact Nat.one_ne_zero

theorem Fading.next (fading : Fading core registered) (all : AllFading core)
    (found : core.modules[index]? = some registered)
    (moves : Moves core index registered event after) : Fading (core.next event) after := by
  cases moves with
  | rest elsewhere =>
      refine ⟨fading.calls, fading.fresh, fading.workers, ?_⟩
      rcases fading.dated with dated | dating
      · exact Or.inl (dated.elsewhere all found elsewhere)
      · exact Or.inr dating
  | called calls =>
      rcases List.exists_cons_of_ne_nil calls with ⟨request, rest, same⟩
      have requested : core.request (.start index) = some request := by
        unfold Core.request
        simp only [found, Option.bind_some, same, List.head?_cons]
      have suffix := fading.calls
      rw [same] at suffix
      have tail : (registered.called core.now).thread.calls = rest := congrArg List.tail same
      refine ⟨?_, fun _ => fading.fresh calls, fading.workers, ?_⟩
      · rw [tail]
        exact (List.suffix_cons request rest).trans suffix
      · rcases threadCalls_own (suffix.subset (List.mem_cons_self ..)) with ⟨value, rfl⟩ | rfl
        · rcases (threadCalls_write suffix).2 with last | ⟨key, duration, others, next⟩
          · exact Or.inr (Or.inr ⟨tail.trans last, fading.fresh calls⟩)
          · exact Or.inr (Or.inl ⟨key, duration, others, tail.trans next⟩)
        · exact Or.inl (dated_of_writeTtl requested rfl rfl)
  | crashed head =>
      rcases List.head?_eq_some_iff.mp head with ⟨rest, same⟩
      refine ⟨List.nil_suffix, fun some => absurd rfl some, ?_, ?_⟩
      · exact fun none => fading.workers (List.map_eq_nil_iff.mp none)
      · rcases fading.dated with dated | ⟨key, duration, others, calls⟩ | ⟨none, -⟩
        · exact Or.inl dated
        · cases same.symm.trans calls
        · cases same.symm.trans none
  | beaten started turns running =>
      refine ⟨fading.calls, fun some => absurd started some, ?_, ?_⟩
      · intro none
        exact fading.workers ((List.set_eq_nil_iff _ _).mp none)
      · apply Or.inl
        apply @dated_of_writeTtl core (.beat index _) registered
        · unfold Core.request
          simp only [found, Option.map_some]
        · rfl
        · rfl
  | stopped looping =>
      have mixed : ¬ ∀ worker ∈ registered.thread.workers, worker = .fresh := by
        intro fresh
        cases fresh _ (List.mem_of_getElem? looping)
      have started : registered.thread.calls = [] := by
        by_cases none : registered.thread.calls = []
        · exact none
        · exact absurd (fading.fresh none) mixed
      refine ⟨fading.calls, fun some => absurd started some, ?_, ?_⟩
      · intro none
        exact fading.workers ((List.set_eq_nil_iff _ _).mp none)
      · rcases fading.dated with dated | ⟨key, duration, others, calls⟩ | ⟨-, fresh⟩
        · exact Or.inl dated
        · cases started.symm.trans calls
        · exact absurd fresh mixed
  | respawned checking missing terminated =>
      refine ⟨List.suffix_refl _, ?_, createModuleThread_workers _, ?_⟩
      · exact fun _ worker member => (List.mem_replicate.mp member).2
      · rcases fading.dated with dated | dating
        · exact Or.inl (dated.elsewhere all found (fun same => by cases same))
        · exact absurd dating (not_dating_of_terminated terminated fading.workers)

theorem AllFading.next (all : AllFading core) (possible : Possible core event) :
    AllFading (core.next event) where
  distinct := by
    intro index other registered another found there different
    rcases Core.next_modules possible found with ⟨before, here, moves⟩
    rcases Core.next_modules possible there with ⟨beforeOther, hereOther, movesOther⟩
    rw [moves.module_eq, movesOther.module_eq]
    exact all.distinct index other before beforeOther here hereOther different
  fading := by
    intro index after found
    rcases Core.next_modules possible found with ⟨registered, there, moves⟩
    exact (all.fading index registered there).next all there moves

theorem AllFading.not_listed (all : AllFading core) (found : core.modules[index]? = some registered)
    (terminated : registered.thread.Terminated)
    (silent : ∀ called, registered.lastCall = some called → called + heartbeatTtl ≤ core.now) :
    registered.module.key ∉ core.listed := by
  have fading := all.fading index registered found
  have dated := fading.dated.resolve_right (not_dating_of_terminated terminated fading.workers)
  rw [key_mem_listed]
  intro live
  rcases Option.isSome_iff_exists.mp live with ⟨entry, left⟩
  rcases ExpiringMap.remains_eq_some.mp left with ⟨stands, isLive⟩
  rcases dated entry stands with ⟨deadline, called, timed, last, near⟩
  have passed := silent called last
  unfold Entry.live at isLive
  rw [timed] at isLive
  exact Nat.not_lt.mpr (Nat.le_trans near passed) (of_decide_eq_true isLive)

end Fading

section Check

variable {core : Core} {index : Nat} {registered : RegisteredModule}

theorem createCore_module {registry : Registry} {start : Instant}
    (found : (createCore registry start).modules[index]? = some registered) :
    ∃ module, registry.modules[index]? = some module ∧
      registered = ⟨module, createModuleThread module, none, none⟩ := by
  change (registry.modules.map _)[index]? = some registered at found
  rw [List.getElem?_map] at found
  rcases Option.map_eq_some_iff.mp found with ⟨module, there, same⟩
  exact ⟨module, there, same.symm⟩

private theorem key_injective {left right : Module} (same : left.key = right.key) :
    left.name = right.name := List.append_cancel_left same

theorem AllFading.create (registry : Registry) (start : Instant) :
    AllFading (createCore registry start) where
  distinct := by
    intro index other registered another found there different same
    rcases createCore_module found with ⟨module, here, rfl⟩
    rcases createCore_module there with ⟨otherModule, hereOther, rfl⟩
    have names : (registry.modules.map Module.name)[index]? =
        (registry.modules.map Module.name)[other]? := by
      rw [List.getElem?_map, List.getElem?_map, here, hereOther]
      exact congrArg some (key_injective same)
    have inside : index < (registry.modules.map Module.name).length := by
      rw [List.length_map]
      exact (List.getElem?_eq_some_iff.mp here).1
    exact different ((List.getElem?_inj inside registry.distinct).mp names)
  fading := by
    intro index registered found
    rcases createCore_module found with ⟨module, -, rfl⟩
    refine ⟨List.suffix_refl _, ?_, createModuleThread_workers module, Or.inl ?_⟩
    · exact fun _ worker member => (List.mem_replicate.mp member).2
    · intro entry stands
      change (SoundTric.create.contents)[module.key]? = some entry at stands
      rw [SoundTric.create_contents] at stands
      cases stands

/-- The loop has passed this module in its check. -/
def Passed (core : Core) (index : Nat) : Prop :=
  ∀ alive position, core.phase = .checking alive position → index < position

private theorem proceed_keeps (passed : Passed core index) (steps : Nat) :
    ((List.replicate steps Event.proceed).foldl Core.next core).modules[index]? =
      core.modules[index]? := by
  induction steps generalizing core with
  | zero => rfl
  | succ steps ih =>
      rw [List.replicate_succ, List.foldl_cons]
      have one : Passed (core.next .proceed) index ∧
          (core.next .proceed).modules[index]? = core.modules[index]? := by
        unfold Core.next
        cases phase : core.phase with
        | sleeping wake => exact ⟨passed, rfl⟩
        | checking alive position =>
            have before := passed alive position phase
            simp only
            rcases checkNext_cases core alive position with ⟨-, step⟩ |
              ⟨checked, there, ⟨-, step⟩ | ⟨-, -, step⟩ | ⟨-, -, step⟩⟩
            · rw [step]
              exact ⟨fun _ _ same => (by cases same), rfl⟩
            · rw [step]
              refine ⟨?_, rfl⟩
              intro _ _ same
              cases same
              omega
            · rw [step]
              refine ⟨?_, (Core.getElem?_update core position index _).trans (if_neg (by omega))⟩
              intro _ _ same
              cases same
              omega
            · rw [step]
              exact ⟨passed, rfl⟩
      exact (ih one.1).trans one.2

/-- What the rest of a check makes of a module that it did not list: by induction on the steps
left. -/
theorem proceed_replaces {alive : List Bytes} {position steps : Nat}
    (phase : core.phase = .checking alive position)
    (terminated : ∀ (other : Nat) (another : RegisteredModule), position ≤ other →
      core.modules[other]? = some another → another.module.key ∉ alive →
      another.thread.Terminated)
    (found : core.modules[index]? = some registered) (missing : registered.module.key ∉ alive)
    (later : position ≤ index) (enough : index < position + steps) :
    ((List.replicate steps Event.proceed).foldl Core.next core).modules[index]? =
      some registered.respawned := by
  induction steps generalizing core position with
  | zero => omega
  | succ steps ih =>
      rw [List.replicate_succ, List.foldl_cons]
      have step : core.next .proceed = core.checkNext alive position := by
        unfold Core.next
        rw [phase]
      rw [step]
      rcases checkNext_cases core alive position with ⟨ended, -⟩ |
        ⟨checked, there, ⟨heard, next⟩ | ⟨unheard, -, next⟩ | ⟨unheard, running, -⟩⟩
      · have bound := (List.getElem?_eq_some_iff.mp found).1
        rw [List.getElem?_eq_none_iff] at ended
        omega
      · rw [next]
        have different : position ≠ index := by
          intro same
          subst same
          cases there.symm.trans found
          exact missing heard
        apply ih
        · rfl
        · exact fun other another after here => terminated other another (by omega) here
        · exact found
        · omega
        · omega
      · rw [next]
        by_cases same : position = index
        · subst same
          rw [proceed_keeps]
          · exact (Core.getElem?_update core position position _).trans
              ((if_pos rfl).trans (congrArg (Option.map _) found))
          · intro _ _ same
            cases same
            omega
        · apply ih
          · rfl
          · intro other another after here
            rcases Core.of_update here with ⟨equal, -⟩ | ⟨-, here⟩
            · omega
            · exact terminated other another (by omega) here
          · exact (Core.getElem?_update core position index _).trans ((if_neg same).trans found)
          · omega
          · omega
      · exact absurd (terminated position checked (Nat.le_refl _) there unheard) running

theorem AllFading.replaces (all : AllFading core)
    (listed : RunningAreListed core .check) (found : core.modules[index]? = some registered)
    (terminated : registered.thread.Terminated)
    (silent : ∀ called, registered.lastCall = some called → called + heartbeatTtl ≤ core.now) :
    (checkAndRespawnModules core).modules[index]? = some registered.respawned := by
  have missing := all.not_listed found terminated silent
  have inside := (List.getElem?_eq_some_iff.mp found).1
  apply @proceed_replaces (core.next .check) index registered core.listed 0
  · rfl
  · intro other another _ there unheard
    by_cases ended : another.thread.Terminated
    · exact ended
    · exact absurd (listed other another there ended) unheard
  · exact found
  · exact missing
  · exact Nat.zero_le _
  · omega

end Check

end Supervision

end TricPlus
