import TricPlus.CallLists
import TricPlus.DiffImport

/-!
What a diff-import calls: a write or a lifetime for each entry that is new or differs, then
a delete for each path that is missing.
-/

namespace TricPlus

open AtomicProgram

namespace EntryMap

variable {map : EntryMap} {path value : Bytes}

theorem mem_entries_iff : (path, value) ∈ map.entries ↔ map.get path = some value := by
  rcases map with ⟨entries, distinct⟩
  unfold get
  simp only
  induction entries with
  | nil =>
      rw [List.lookup_nil]
      exact iff_of_false List.not_mem_nil (fun same => by cases same)
  | cons entry entries ih =>
      rcases entry with ⟨first, stored⟩
      rw [List.map_cons, List.nodup_cons] at distinct
      rw [List.mem_cons, List.lookup_cons]
      by_cases here : path = first
      · subst here
        rw [beq_self_eq_true]
        constructor
        · intro member
          rcases member with same | later
          · rw [(Prod.mk.inj same).2]
          · exact absurd (List.mem_map_of_mem later) distinct.1
        · intro found
          exact Or.inl (congrArg (Prod.mk path) (Option.some_inj.mp found).symm)
      · rw [beq_false_of_ne here, ← ih distinct.2]
        exact ⟨fun member => member.resolve_left (fun same => here (Prod.mk.inj same).1), Or.inr⟩

theorem mem_paths_iff : path ∈ map.entries.map Prod.fst ↔ ∃ value, map.get path = some value := by
  rw [List.mem_map]
  constructor
  · intro found
    rcases found with ⟨⟨about, value⟩, member, same⟩
    cases same
    exact ⟨value, mem_entries_iff.mp member⟩
  · intro found
    rcases found with ⟨value, stored⟩
    exact ⟨(path, value), mem_entries_iff.mpr stored, rfl⟩

end EntryMap

namespace Import

def entryCall (entry : ArchiveEntry) : Option DataBusCall :=
  match entry.1.dropPrefix? Export.ttlPath with
  | some ttlPath =>
      match parseTtl entry.2 with
      | none => none
      | some ttlMs =>
          if 0 < ttlMs then some (.writeTtl (replaceFirstSlash ttlPath) (fromMillis ttlMs))
          else none
  | none => some (.writeValue (parseTarPathToKey entry.1) entry.2)

private theorem writeDiffEntry_eq (path value : Bytes) :
    writeDiffEntry (parseTarPathToKey path) value path =
      performAll (entryCall (path, value)).toList := by
  unfold writeDiffEntry entryCall
  simp only
  cases path.dropPrefix? Export.ttlPath with
  | none => rfl
  | some ttlPath =>
      simp only
      cases parseTtl value with
      | none => rfl
      | some ttlMs =>
          simp only
          split <;> rfl

/-- The entry is new, or stands with another value in the old archive. -/
def Differs (old : EntryMap) (entry : ArchiveEntry) : Prop :=
  entry.1 ≠ Export.versionPath ∧ old.get entry.1 ≠ some entry.2

instance (old : EntryMap) : DecidablePred (Differs old) :=
  fun _ => inferInstanceAs (Decidable (_ ∧ _))

/-- The path stands in the old archive alone. -/
def Missing (new : EntryMap) (path : Bytes) : Prop :=
  path ≠ Export.versionPath ∧ new.get path = none

instance (new : EntryMap) : DecidablePred (Missing new) :=
  fun _ => inferInstanceAs (Decidable (_ ∧ _))

def changed (old : EntryMap) (entries : List ArchiveEntry) : List ArchiveEntry :=
  entries.filter (fun entry => Differs old entry)

def removed (new : EntryMap) (paths : List Bytes) : List Bytes :=
  paths.filter (fun path => Missing new path)

def writeCalls (old new : EntryMap) : List DataBusCall :=
  (changed old new.entries).filterMap entryCall

def deleteCalls (old new : EntryMap) : List DataBusCall :=
  (removed new (old.entries.map Prod.fst)).map
    (fun path => .deleteValue (parseTarPathToKey path))

def diffCalls (old new : EntryMap) : List DataBusCall :=
  writeCalls old new ++ deleteCalls old new

def diffCounts (old new : EntryMap) : DiffResult where
  additions := ((changed old new.entries).filter (fun entry => (old.get entry.1).isNone)).length
  modifications := ((changed old new.entries).filter (fun entry => (old.get entry.1).isSome)).length
  deletions := (removed new (old.entries.map Prod.fst)).length

theorem performAll_then {α : Type} (first second : List DataBusCall) (result : α) :
    (performAll first).bind (fun _ => (performAll second).bind (fun _ => .done result)) =
      (performAll (first ++ second)).bind (fun _ => .done result) := by
  rw [performAll_append, Program.bind_assoc]

private theorem filterMap_entryCall_cons (entry : ArchiveEntry) (entries : List ArchiveEntry) :
    (entry :: entries).filterMap entryCall =
      (entryCall entry).toList ++ entries.filterMap entryCall := by
  rw [List.filterMap_cons]
  cases entryCall entry <;> rfl

private theorem writeChanged_eq (old : EntryMap) (entries : List ArchiveEntry)
    (result : DiffResult) :
    writeChanged old entries result =
      (performAll ((changed old entries).filterMap entryCall)).bind (fun _ => .done
        { result with
          additions := result.additions +
            ((changed old entries).filter (fun entry => (old.get entry.1).isNone)).length
          modifications := result.modifications +
            ((changed old entries).filter (fun entry => (old.get entry.1).isSome)).length }) := by
  induction entries generalizing result with
  | nil => rfl
  | cons entry entries ih =>
      rcases entry with ⟨path, newValue⟩
      have skipped : ¬ Differs old (path, newValue) →
          changed old ((path, newValue) :: entries) = changed old entries :=
        fun same => List.filter_cons_of_neg (by rwa [decide_eq_true_eq])
      have taken : Differs old (path, newValue) →
          changed old ((path, newValue) :: entries) =
            (path, newValue) :: changed old entries :=
        fun differs => List.filter_cons_of_pos (decide_eq_true differs)
      unfold writeChanged
      by_cases version : path = Export.versionPath
      · rw [if_pos version, ih, skipped (fun differs => differs.1 version)]
      · rw [if_neg version]
        cases stored : old.get path with
        | some oldValue =>
            by_cases same : oldValue = newValue
            · have kept : ¬ Differs old (path, newValue) :=
                fun differs => differs.2 (stored.trans (congrArg some same))
              simp only [if_pos same]
              rw [ih, skipped kept]
            · have differs : Differs old (path, newValue) :=
                ⟨version, fun equal => same (Option.some_inj.mp (stored.symm.trans equal))⟩
              simp only [if_neg same]
              rw [taken differs, filterMap_entryCall_cons, writeDiffEntry_eq, ← performAll_then]
              simp only [ih, List.filter_cons, stored, Option.isNone_some, Option.isSome_some,
                Bool.false_eq_true, if_true, if_false, List.length_cons, Nat.add_assoc,
                Nat.add_comm 1]
              rfl
        | none =>
            have differs : Differs old (path, newValue) :=
              ⟨version, fun equal => by cases stored.symm.trans equal⟩
            simp only
            rw [taken differs, filterMap_entryCall_cons, writeDiffEntry_eq, ← performAll_then]
            simp only [ih, List.filter_cons, stored, Option.isNone_none, Option.isSome_none,
              Bool.false_eq_true, if_true, if_false, List.length_cons, Nat.add_assoc,
              Nat.add_comm 1]
            rfl

private theorem deleteMissing_eq (new : EntryMap) (paths : List Bytes) (result : DiffResult) :
    deleteMissing new paths result =
      (performAll ((removed new paths).map
        (fun path => .deleteValue (parseTarPathToKey path)))).bind (fun _ => .done
        { result with deletions := result.deletions + (removed new paths).length }) := by
  induction paths generalizing result with
  | nil => rfl
  | cons path paths ih =>
      have skipped : ¬ Missing new path → removed new (path :: paths) = removed new paths :=
        fun there => List.filter_cons_of_neg (by rwa [decide_eq_true_eq])
      unfold deleteMissing
      by_cases version : path = Export.versionPath
      · rw [if_pos version, ih, skipped (fun missing => missing.1 version)]
      · rw [if_neg version]
        cases stored : new.get path with
        | some value =>
            have there : ¬ Missing new path := fun missing => by cases stored.symm.trans missing.2
            rw [Option.isSome_some, if_pos rfl, ih, skipped there]
        | none =>
            have missing : removed new (path :: paths) = path :: removed new paths :=
              List.filter_cons_of_pos (decide_eq_true ⟨version, stored⟩)
            rw [Option.isSome_none, if_neg Bool.false_ne_true, missing, List.map_cons,
              List.length_cons, ← List.singleton_append, ← performAll_then]
            simp only [ih, Nat.add_assoc, Nat.add_comm 1]
            rfl

theorem applyDiff_eq (old new : EntryMap) :
    applyDiff old new =
      (performAll (diffCalls old new)).bind (fun _ => .done (diffCounts old new)) := by
  have combined : applyDiff old new = (performAll (writeCalls old new)).bind (fun _ =>
      (performAll (deleteCalls old new)).bind (fun _ => .done (diffCounts old new))) := by
    unfold applyDiff
    rw [writeChanged_eq]
    simp only [deleteMissing_eq]
    change ((performAll (writeCalls old new)).bind _).bind _ = _
    rw [Program.bind_assoc]
    simp only [Program.bind, Nat.zero_add]
    rfl
  rw [combined, performAll_then]
  rfl

theorem diffCalls_updates (old new : EntryMap) :
    ∀ request ∈ diffCalls old new, request.Updates := by
  intro request member
  rcases List.mem_append.mp member with written | deleted
  · rcases List.mem_filterMap.mp written with ⟨entry, -, call⟩
    unfold entryCall at call
    split at call
    · split at call
      · cases call
      · split at call
        · cases call
          trivial
        · cases call
    · cases call
      trivial
  · rcases List.mem_map.mp deleted with ⟨path, -, call⟩
    rw [← call]
    trivial

end Import

end TricPlus
