import TricPlus.SqliteBus

/-!
Which file a key is stored in.

A namespace without a slash is a file name: its database lies directly inside the
directory of the slot, and no other such namespace has the same one.  A slash
makes a path of it, which leads out of the directory or back to the file of
another namespace.
-/

namespace TricPlus

open PosixPath (Proper slash dot)

private theorem colon_not_mem_defaultNamespace : colon ∉ defaultNamespace := by
  decide +kernel

private theorem defaultNamespace_wellFormed : Utf8.wellFormed defaultNamespace = true := by
  decide +kernel

private theorem findIdx?_colon_of_not_mem {text : Bytes} (plain : colon ∉ text) :
    text.findIdx? (fun byte => byte == colon) = none := by
  rw [List.findIdx?_eq_none_iff]
  intro byte member
  exact beq_eq_false_iff_ne.mpr (fun same => plain (same ▸ member))

private theorem findIdx?_colon_append {space : Bytes} (plain : colon ∉ space) (rest : Bytes) :
    (space ++ colon :: rest).findIdx? (fun byte => byte == colon) = some space.length := by
  rw [List.findIdx?_append, findIdx?_colon_of_not_mem plain, Option.none_or,
    List.findIdx?_cons, if_pos (beq_self_eq_true colon), Option.map_some, Nat.zero_add]

private theorem namespaceOf_of_wellFormed {key : Bytes} (wellFormed : Utf8.wellFormed key = true)
    (plain : colon ∉ key) : namespaceOf key = defaultNamespace := by
  unfold namespaceOf parseNamespace
  simp only [wellFormed, if_true, findIdx?_colon_of_not_mem plain]

private theorem namespaceOf_append {space rest : Bytes}
    (wellFormed : Utf8.wellFormed (space ++ colon :: rest) = true) (plain : colon ∉ space) :
    namespaceOf (space ++ colon :: rest) = space := by
  unfold namespaceOf parseNamespace
  simp only [wellFormed, if_true, findIdx?_colon_append plain, List.take_left]

private theorem namespaceOf_of_not_wellFormed {key : Bytes}
    (broken : Utf8.wellFormed key = false) : namespaceOf key = defaultNamespace := by
  unfold namespaceOf parseNamespace
  simp only [broken, Bool.false_eq_true, if_false,
    findIdx?_colon_of_not_mem colon_not_mem_defaultNamespace]

private theorem namespaceOf_cases (key : Bytes) :
    namespaceOf key = defaultNamespace ∨
      ∃ rest, key = namespaceOf key ++ colon :: rest ∧ Utf8.wellFormed key = true ∧
        colon ∉ namespaceOf key := by
  cases wellFormed : Utf8.wellFormed key with
  | false => exact Or.inl (namespaceOf_of_not_wellFormed wellFormed)
  | true =>
      by_cases present : colon ∈ key
      · have first : ∃ space rest, key = space ++ colon :: rest ∧ colon ∉ space :=
          List.eq_append_cons_of_mem present
        rcases first with ⟨space, rest, same, plain⟩
        have found : namespaceOf key = space := by
          rw [same]
          exact namespaceOf_append (same ▸ wellFormed) plain
        rw [found]
        exact Or.inr ⟨rest, same, rfl, plain⟩
      · exact Or.inl (namespaceOf_of_wellFormed wellFormed present)

private theorem colon_ascii : colon < 0x80 := by
  decide

private theorem slash_ascii : slash < 0x80 := by
  decide

theorem namespaceOf_wellFormed (key : Bytes) : Utf8.wellFormed (namespaceOf key) = true := by
  rcases namespaceOf_cases key with isDefault | ⟨rest, same, wellFormed, -⟩
  · rw [isDefault]
    exact defaultNamespace_wellFormed
  · rw [same, Utf8.wellFormed_append_ascii colon_ascii, Bool.and_eq_true] at wellFormed
    exact wellFormed.1

private theorem colon_not_mem_namespaceOf (key : Bytes) : colon ∉ namespaceOf key := by
  rcases namespaceOf_cases key with isDefault | ⟨-, -, -, plain⟩
  · rw [isDefault]
    exact colon_not_mem_defaultNamespace
  · exact plain

private theorem namespaceOf_append_colon {space : Bytes} (wellFormed : Utf8.wellFormed space = true)
    (plain : colon ∉ space) : namespaceOf (space ++ [colon]) = space := by
  apply namespaceOf_append _ plain
  rw [Utf8.wellFormed_append_ascii colon_ascii, wellFormed, Utf8.wellFormed_nil]
  rfl

def dbSuffix : Bytes := asBytes ".db"

theorem dbSuffix_eq : dbSuffix = dot :: asBytes "db" := by
  decide +kernel

private theorem databaseName_proper {space : Bytes} (plain : slash ∉ space) :
    Proper (space ++ dbSuffix) := by
  have suffixPlain : slash ∉ dbSuffix := by
    decide +kernel
  have suffixLong : dbSuffix.length = 3 := by
    decide +kernel
  have long : 3 ≤ (space ++ dbSuffix).length := by
    rw [List.length_append, suffixLong]
    omega
  refine ⟨?_, ?_, ?_, ?_⟩
  · intro member
    rcases List.mem_append.mp member with inSpace | inSuffix
    · exact plain inSpace
    · exact suffixPlain inSuffix
  · intro same
    rw [same, List.length_nil] at long
    omega
  · intro same
    rw [same, List.length_singleton] at long
    omega
  · intro same
    rw [same, List.length_cons, List.length_singleton] at long
    omega

theorem databaseFile_of_plain (site : Site) {space : Bytes} (plain : slash ∉ space) :
    site.databaseFile space = site.locate site.directory ++ [space ++ dbSuffix] :=
  PosixPath.resolve_join_proper (databaseName_proper plain)

theorem databaseFile_injective (site : Site) {space other : Bytes} (plain : slash ∉ space)
    (otherPlain : slash ∉ other) (same : site.databaseFile space = site.databaseFile other) :
    space = other := by
  rw [databaseFile_of_plain site plain, databaseFile_of_plain site otherPlain] at same
  have names := List.append_cancel_left same
  exact List.append_cancel_right (List.singleton_inj.mp names)

private theorem exists_last_slash {text : Bytes} (member : slash ∈ text) :
    ∃ front back, text = front ++ slash :: back ∧ slash ∉ back := by
  induction text with
  | nil => cases member
  | cons byte rest ih =>
      by_cases later : slash ∈ rest
      · rcases ih later with ⟨front, back, same, plain⟩
        exact ⟨byte :: front, back, by rw [same, List.cons_append], plain⟩
      · have here : slash = byte := (List.mem_cons.mp member).resolve_right later
        exact ⟨[], rest, by rw [here, List.nil_append], later⟩

theorem databaseFile_last (site : Site) (key : Bytes) :
    ∃ parent back, site.databaseFile (namespaceOf key) = parent ++ [back ++ dbSuffix] ∧
      Utf8.wellFormed back = true ∧ slash ∉ back ∧ colon ∉ back := by
  by_cases slashed : slash ∈ namespaceOf key
  · rcases exists_last_slash slashed with ⟨front, back, same, plain⟩
    have wellFormed := namespaceOf_wellFormed key
    rw [same, Utf8.wellFormed_append_ascii slash_ascii, Bool.and_eq_true] at wellFormed
    have noColon : colon ∉ back := by
      intro member
      apply colon_not_mem_namespaceOf key
      rw [same]
      exact List.mem_append_right _ (List.mem_cons_of_mem _ member)
    have leads : ∃ parent, site.databaseFile (namespaceOf key) = parent ++ [back ++ dbSuffix] := by
      rw [same]
      unfold Site.databaseFile Site.locate Site.databasePath
      rw [List.append_assoc, List.cons_append]
      exact PosixPath.resolve_join_last _ _ front (databaseName_proper plain)
    rcases leads with ⟨parent, file⟩
    exact ⟨parent, back, file, wellFormed.2, plain, noColon⟩
  · exact ⟨_, _, databaseFile_of_plain site slashed, namespaceOf_wellFormed key, slashed,
      colon_not_mem_namespaceOf key⟩

/-- A namespace with a slash leads out of the directory, or to the file of
another namespace, which has none. -/
theorem databaseFile_of_slash (site : Site) (key : Bytes) (slashed : slash ∈ namespaceOf key) :
    (∃ parent name, site.databaseFile (namespaceOf key) = parent ++ [name] ∧
      parent ≠ site.locate site.directory) ∨
      ∃ other, slash ∉ namespaceOf other ∧ namespaceOf key ≠ namespaceOf other ∧
        site.databaseFile (namespaceOf key) = site.databaseFile (namespaceOf other) := by
  rcases databaseFile_last site key with ⟨parent, back, file, wellFormed, plain, noColon⟩
  have backNamespace := namespaceOf_append_colon wellFormed noColon
  by_cases inside : parent = site.locate site.directory
  · right
    refine ⟨back ++ [colon], ?_, ?_, ?_⟩
    · rw [backNamespace]
      exact plain
    · rw [backNamespace]
      intro equal
      exact plain (equal ▸ slashed)
    · rw [backNamespace, file, inside, databaseFile_of_plain site plain]
  · exact Or.inl ⟨parent, back ++ dbSuffix, file, inside⟩

/-- Opening a file where these directories are all there are: every directory on
the way exists, no name is too long and none holds a NUL. -/
def opensUnder (directories : List PosixPath.Location) (path : PosixPath.RawPath) : Bool :=
  let names := PosixPath.pieces path
  let passed := (List.range names.length).map (fun count =>
    (names.take count).foldl PosixPath.enter [])
  !path.contains 0 && names.all (fun name => name.length ≤ 255) &&
    passed.all (fun location => directories.contains location)

/-- Slot 0 of `main` under `/srv/tric`, next to slot 0 of `other`. -/
def sampleSite : Site where
  workingDirectory := []
  baseDir := asBytes "/srv/tric"
  instanceName := asBytes "main"
  slot := 0
  baseEntries := [asBytes "main_0", asBytes "other_0"]
  opens := opensUnder
    [[], [asBytes "srv"], [asBytes "srv", asBytes "tric"],
      [asBytes "srv", asBytes "tric", asBytes "main_0"],
      [asBytes "srv", asBytes "tric", asBytes "other_0"]]

def openSite : Site :=
  { sampleSite with
    baseEntries := []
    opens := fun _ => true }

def stillClock : Nat → Instant := fun _ => 0

theorem stillClock_monotone : Monotone stillClock := fun _ _ _ => Nat.le_refl 0

end TricPlus
