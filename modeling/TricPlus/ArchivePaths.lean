import TricPlus.DiffExact

/-!
Whether the paths of an archive name the keys.

The export turns every colon of a data key into a slash; the import turns the first
slash back into a colon, and looks for the paths with a meaning of their own first.  A
key comes back exactly when its first separator is a colon and its only one, and its path
means nothing else.
-/

namespace TricPlus

open PosixPath (slash)

namespace Export

def ttlStem : Bytes := asBytes "_ttl:"

def versionKey : Bytes := asBytes "_meta:version"

def mainEntry (pair : Bytes × Bytes) : ArchiveEntry :=
  match (Utf8.lossy pair.1).dropPrefix? schemaStem with
  | some tableName => (schemaPath ++ tableName, pair.2)
  | none =>
      match (Utf8.lossy pair.1).dropPrefix? relStem with
      | some relName => (relPath ++ relName, [])
      | none => (dataPath (Utf8.lossy pair.1), pair.2)

def tarPath (pair : Bytes × Bytes) : Bytes := (mainEntry pair).1

theorem turnEntries_eq (pair : Bytes × Bytes) (remaining : Option Duration) :
    turnEntries pair remaining =
      mainEntry pair :: (if DataKey pair.1 then ttlEntries pair.1 remaining else []) := by
  by_cases data : DataKey pair.1
  · rw [turnEntries_of_data data, if_pos data]
    unfold mainEntry
    rw [data.1, data.2]
  · rw [if_neg data]
    unfold turnEntries mainEntry
    cases schema : (Utf8.lossy pair.1).dropPrefix? schemaStem with
    | some tableName => rfl
    | none =>
        cases rel : (Utf8.lossy pair.1).dropPrefix? relStem with
        | some relName => rfl
        | none => exact absurd ⟨schema, rel⟩ data

end Export

open Export
open Import (parseTarPathToKey replaceFirstSlash)

/-! ### Separators -/

/-- The first separator of the key is a colon and the only one, or it has none. -/
def Plainly (key : Bytes) : Prop :=
  (colon ∉ key ∧ slash ∉ key) ∨
    ∃ space rest, key = space ++ colon :: rest ∧ colon ∉ space ∧ slash ∉ space ∧ colon ∉ rest

private theorem replaceAll_of_not_mem {old new : UInt8} {text : Bytes} (absent : old ∉ text) :
    replaceAll old new text = text := by
  have kept : ∀ byte ∈ text, (if byte = old then new else byte) = byte := by
    intro byte member
    rw [if_neg]
    intro same
    exact absent (same ▸ member)
  exact (List.map_congr_left kept).trans (List.map_id' text)

private theorem replaceAll_eq_self_iff {old new : UInt8} (different : old ≠ new) {text : Bytes} :
    replaceAll old new text = text ↔ old ∉ text := by
  constructor
  · intro same member
    have changed : old ∉ replaceAll old new text := by
      unfold replaceAll
      rw [List.mem_map]
      intro found
      rcases found with ⟨byte, -, became⟩
      split at became
      · exact different became.symm
      · rename_i other
        exact other became
    exact changed (same.symm ▸ member)
  · exact replaceAll_of_not_mem

private theorem colon_ne_slash : colon ≠ slash := by
  decide

private theorem replaceFirstSlash_append {space : Bytes} (plain : slash ∉ space) (rest : Bytes) :
    replaceFirstSlash (space ++ slash :: rest) = space ++ colon :: rest := by
  unfold replaceFirstSlash
  induction space with
  | nil =>
      rw [List.nil_append, List.nil_append, List.replace_cons_self]
  | cons byte space ih =>
      rw [List.mem_cons, not_or] at plain
      have other : (slash == byte) = false := beq_eq_false_iff_ne.mpr plain.1
      simp only [List.cons_append, List.replace_cons, other, ih plain.2]

private theorem plainly_cons_colon {rest : Bytes} : Plainly (colon :: rest) ↔ colon ∉ rest := by
  constructor
  · intro plainly
    rcases plainly with ⟨noColon, -⟩ | ⟨space, back, same, noColon, -, single⟩
    · exact absurd (List.mem_cons_self ..) noColon
    · cases space with
      | nil =>
          rw [(List.cons.inj same).2]
          exact single
      | cons byte space =>
          rw [← (List.cons.inj same).1] at noColon
          exact absurd (List.mem_cons_self ..) noColon
  · intro single
    exact Or.inr ⟨[], rest, rfl, List.not_mem_nil, List.not_mem_nil, single⟩

private theorem not_plainly_cons_slash (rest : Bytes) : ¬ Plainly (slash :: rest) := by
  intro plainly
  rcases plainly with ⟨-, noSlash⟩ | ⟨space, back, same, -, noSlash, -⟩
  · exact noSlash (List.mem_cons_self ..)
  · cases space with
    | nil => exact colon_ne_slash (List.cons.inj same).1.symm
    | cons byte space =>
        rw [← (List.cons.inj same).1] at noSlash
        exact noSlash (List.mem_cons_self ..)

private theorem plainly_cons {byte : UInt8} {rest : Bytes} (noColon : byte ≠ colon)
    (noSlash : byte ≠ slash) : Plainly (byte :: rest) ↔ Plainly rest := by
  constructor
  · intro plainly
    rcases plainly with ⟨colonFree, slashFree⟩ | ⟨space, back, same, colonFree, slashFree, single⟩
    · exact Or.inl ⟨fun member => colonFree (List.mem_cons_of_mem _ member),
        fun member => slashFree (List.mem_cons_of_mem _ member)⟩
    · cases space with
      | nil => exact absurd (List.cons.inj same).1 noColon
      | cons first space =>
          exact Or.inr ⟨space, back, (List.cons.inj same).2,
            fun member => colonFree (List.mem_cons_of_mem _ member),
            fun member => slashFree (List.mem_cons_of_mem _ member), single⟩
  · intro plainly
    have free : ∀ {other : UInt8} {text : Bytes}, byte ≠ other → other ∉ text →
        other ∉ byte :: text := by
      intro other text different absent member
      exact (List.mem_cons.mp member).elim (fun same => different same.symm) absent
    rcases plainly with ⟨colonFree, slashFree⟩ | ⟨space, back, same, colonFree, slashFree, single⟩
    · exact Or.inl ⟨free noColon colonFree, free noSlash slashFree⟩
    · exact Or.inr ⟨byte :: space, back, by rw [same, List.cons_append], free noColon colonFree,
        free noSlash slashFree, single⟩

theorem replaceFirstSlash_dataPath_iff (key : Bytes) :
    replaceFirstSlash (dataPath key) = key ↔ Plainly key := by
  induction key with
  | nil =>
      have nothing : Plainly [] := Or.inl ⟨List.not_mem_nil, List.not_mem_nil⟩
      exact iff_of_true rfl nothing
  | cons byte rest ih =>
      have path : dataPath (byte :: rest) =
          (if byte = colon then slash else byte) :: dataPath rest := rfl
      rw [path]
      by_cases isColon : byte = colon
      · have turned : replaceFirstSlash (slash :: dataPath rest) = colon :: dataPath rest :=
          replaceFirstSlash_append List.not_mem_nil _
        rw [if_pos isColon, turned, isColon, plainly_cons_colon, List.cons.injEq,
          eq_self_iff_true, true_and]
        exact replaceAll_eq_self_iff colon_ne_slash
      · rw [if_neg isColon]
        by_cases isSlash : byte = slash
        · have turned : replaceFirstSlash (slash :: dataPath rest) = colon :: dataPath rest :=
            replaceFirstSlash_append List.not_mem_nil _
          rw [isSlash, turned]
          exact iff_of_false (fun same => colon_ne_slash (List.cons.inj same).1)
            (not_plainly_cons_slash rest)
        · have other : (slash == byte) = false := beq_eq_false_iff_ne.mpr (Ne.symm isSlash)
          have turned : replaceFirstSlash (byte :: dataPath rest) =
              byte :: replaceFirstSlash (dataPath rest) := by
            unfold replaceFirstSlash
            simp only [List.replace_cons, other]
          rw [turned, plainly_cons isColon isSlash, ← ih, List.cons.injEq, eq_self_iff_true,
            true_and]

theorem dropPrefix?_eq_some {text stem rest : Bytes} :
    text.dropPrefix? stem = some rest ↔ text = stem ++ rest := by
  rw [List.dropPrefix?_eq_some_iff]
  constructor
  · intro found
    rcases found with ⟨front, same, equal⟩
    rw [same, beq_iff_eq.mp equal]
  · intro same
    exact ⟨stem, same, beq_self_eq_true stem⟩

private theorem dropPrefix?_eq_none {text stem : Bytes} :
    text.dropPrefix? stem = none ↔ ¬ stem <+: text := by
  rw [Option.eq_none_iff_forall_ne_some]
  constructor
  · intro never starts
    rcases starts with ⟨rest, same⟩
    exact never rest (dropPrefix?_eq_some.mpr same.symm)
  · intro not_starts rest found
    exact not_starts ⟨rest, (dropPrefix?_eq_some.mp found).symm⟩

/-- The parts before the separator of the keys and paths with a meaning. -/
structure Meaning (stem path word : Bytes) : Prop where
  stem : stem = word ++ [colon]
  path : path = word ++ [slash]
  plain : slash ∉ word

private theorem schema_meaning : Meaning schemaStem schemaPath (asBytes "_schema") :=
  ⟨by decide +kernel, by decide +kernel, by decide +kernel⟩

private theorem rel_meaning : Meaning relStem relPath (asBytes "_rel") :=
  ⟨by decide +kernel, by decide +kernel, by decide +kernel⟩

private theorem ttl_meaning : Meaning ttlStem ttlPath (asBytes "_ttl") :=
  ⟨by decide +kernel, by decide +kernel, by decide +kernel⟩

theorem Meaning.prefix_iff {stem path word key : Bytes} (meaning : Meaning stem path word)
    (plainly : Plainly key) : path <+: dataPath key ↔ stem <+: key := by
  rw [meaning.stem, meaning.path]
  constructor
  · intro starts
    rcases starts with ⟨rest, same⟩
    have back := (replaceFirstSlash_dataPath_iff key).mpr plainly
    rw [← same, List.append_assoc, List.singleton_append,
      replaceFirstSlash_append meaning.plain] at back
    rw [← back]
    exact ⟨rest, by rw [List.append_assoc, List.singleton_append]⟩
  · intro starts
    rcases starts with ⟨rest, rfl⟩
    have colonFree : colon ∉ word := by
      rcases plainly with ⟨noColon, -⟩ | ⟨space, back, same, noColon, noSlash, single⟩
      · intro member
        exact noColon (List.mem_append_left _ (List.mem_append_left _ member))
      · intro member
        rw [List.append_assoc, List.singleton_append] at same
        rcases List.append_eq_append_iff.mp same with
          ⟨between, spaceIs, restIs⟩ | ⟨between, wordIs, backIs⟩
        · exact noColon (spaceIs ▸ List.mem_append_left _ member)
        · cases between with
          | nil =>
              rw [List.append_nil] at wordIs
              exact noColon (wordIs ▸ member)
          | cons byte between =>
              apply single
              rw [(List.cons.inj backIs).2]
              exact List.mem_append_right _ (List.mem_cons_self ..)
    refine ⟨dataPath rest, ?_⟩
    unfold dataPath
    have kept := @replaceAll_of_not_mem colon slash word colonFree
    unfold replaceAll at kept ⊢
    rw [List.map_append, List.map_append, kept]
    rfl

private theorem versionPath_iff {key : Bytes} (plainly : Plainly key) :
    dataPath key = versionPath ↔ key = versionKey := by
  constructor
  · intro same
    have back := (replaceFirstSlash_dataPath_iff key).mpr plainly
    rw [same] at back
    rw [← back]
    decide +kernel
  · intro same
    rw [same]
    decide +kernel

private theorem not_prefix_of_take {stem other rest : Bytes} (count : Nat)
    (short : count ≤ stem.length)
    (otherShort : count ≤ other.length) (different : stem.take count ≠ other.take count) :
    ¬ stem <+: other ++ rest := by
  intro starts
  rcases starts with ⟨back, same⟩
  apply different
  rw [← List.take_append_of_le_length short, same, List.take_append_of_le_length otherShort]

/-! ### Texts stay well formed -/

section Utf8

variable {pair : Bytes × Bytes} (utf8 : Utf8.wellFormed pair.1 = true)

include utf8

private theorem dataKey_iff : DataKey pair.1 ↔ ¬ schemaStem <+: pair.1 ∧ ¬ relStem <+: pair.1 := by
  unfold DataKey
  rw [Utf8.lossy_of_wellFormed utf8, dropPrefix?_eq_none, dropPrefix?_eq_none]

private theorem mainEntry_schema {tableName : Bytes} (schema : pair.1 = schemaStem ++ tableName) :
    mainEntry pair = (schemaPath ++ tableName, pair.2) := by
  unfold mainEntry
  rw [Utf8.lossy_of_wellFormed utf8, dropPrefix?_eq_some.mpr schema]

private theorem mainEntry_rel {relName : Bytes} (rel : pair.1 = relStem ++ relName) :
    mainEntry pair = (relPath ++ relName, []) := by
  have noSchema : pair.1.dropPrefix? schemaStem = none := by
    rw [dropPrefix?_eq_none, rel]
    exact not_prefix_of_take 2 (by decide +kernel) (by decide +kernel) (by decide +kernel)
  unfold mainEntry
  rw [Utf8.lossy_of_wellFormed utf8, noSchema, dropPrefix?_eq_some.mpr rel]

private theorem mainEntry_data (data : DataKey pair.1) : mainEntry pair =
    (dataPath pair.1, pair.2) := by
  have noSchema := data.1
  have noRel := data.2
  unfold mainEntry
  rw [noSchema, noRel]
  simp only [Utf8.lossy_of_wellFormed utf8]

end Utf8

/-- To the import, the path is that of a data key. -/
structure Unreserved (path : Bytes) : Prop where
  version : path ≠ versionPath
  schema : path.dropPrefix? schemaPath = none
  rel : path.dropPrefix? relPath = none
  ttl : path.dropPrefix? ttlPath = none

private theorem parseTarPathToKey_unreserved {path : Bytes} (unreserved : Unreserved path) :
    parseTarPathToKey path = replaceFirstSlash path := by
  unfold parseTarPathToKey
  rw [unreserved.schema, unreserved.rel, unreserved.ttl]

private theorem parseTarPathToKey_schema (tableName : Bytes) :
    parseTarPathToKey (schemaPath ++ tableName) = schemaStem ++ tableName := by
  unfold parseTarPathToKey
  rw [dropPrefix?_eq_some.mpr rfl]

private theorem parseTarPathToKey_rel (relName : Bytes) :
    parseTarPathToKey (relPath ++ relName) = relStem ++ relName := by
  have noSchema : (relPath ++ relName).dropPrefix? schemaPath = none := by
    rw [dropPrefix?_eq_none]
    exact not_prefix_of_take 2 (by decide +kernel) (by decide +kernel) (by decide +kernel)
  unfold parseTarPathToKey
  rw [noSchema, dropPrefix?_eq_some.mpr rfl]

/-- The paths of the pairs name their keys, and the values stand under them unchanged. -/
structure NamesFaithfully (pairs : Set (Bytes × Bytes)) : Prop where
  back : ∀ pair ∈ pairs, parseTarPathToKey (tarPath pair) = pair.1
  apart : ∀ left ∈ pairs, ∀ right ∈ pairs, left.1 ≠ right.1 → tarPath left ≠ tarPath right
  unreserved : ∀ pair ∈ pairs, DataKey pair.1 → Unreserved (tarPath pair)
  unchanged : ∀ pair ∈ pairs, (mainEntry pair).2 = pair.2

/-- The pair is a schema, a relationship without a value, or has a plain key that means
nothing else. -/
def Faithful (pair : Bytes × Bytes) : Prop :=
  schemaStem <+: pair.1 ∨ (relStem <+: pair.1 ∧ pair.2 = []) ∨
    (DataKey pair.1 ∧ Plainly pair.1 ∧ ¬ ttlStem <+: pair.1 ∧ pair.1 ≠ versionKey)

theorem Faithful.data {pair : Bytes × Bytes} (utf8 : Utf8.wellFormed pair.1 = true)
    (faithful : Faithful pair) (data : DataKey pair.1) :
    Plainly pair.1 ∧ ¬ ttlStem <+: pair.1 ∧ pair.1 ≠ versionKey := by
  rcases (dataKey_iff utf8).mp data with ⟨noSchema, noRel⟩
  rcases faithful with schema | ⟨rel, -⟩ | ⟨-, plain⟩
  · exact absurd schema noSchema
  · exact absurd rel noRel
  · exact plain

private theorem unreserved_of_plain {key : Bytes} (utf8 : Utf8.wellFormed key = true)
    (data : DataKey key) (plainly : Plainly key) (noTtl : ¬ ttlStem <+: key)
    (noVersion : key ≠ versionKey) : Unreserved (dataPath key) := by
  rcases (@dataKey_iff (key, []) utf8).mp data with ⟨noSchema, noRel⟩
  constructor
  · intro same
    exact noVersion ((versionPath_iff plainly).mp same)
  · rw [dropPrefix?_eq_none, schema_meaning.prefix_iff plainly]
    exact noSchema
  · rw [dropPrefix?_eq_none, rel_meaning.prefix_iff plainly]
    exact noRel
  · rw [dropPrefix?_eq_none, ttl_meaning.prefix_iff plainly]
    exact noTtl

theorem Faithful.entry {pair : Bytes × Bytes} (utf8 : Utf8.wellFormed pair.1 = true)
    (faithful : Faithful pair) :
    parseTarPathToKey (tarPath pair) = pair.1 ∧ (mainEntry pair).2 = pair.2 ∧
      (tarPath pair).dropPrefix? ttlPath = none ∧ tarPath pair ≠ versionPath := by
  unfold tarPath
  by_cases data : DataKey pair.1
  · rcases faithful.data utf8 data with ⟨plainly, noTtl, noVersion⟩
    have unreserved := unreserved_of_plain utf8 data plainly noTtl noVersion
    rw [mainEntry_data utf8 data]
    refine ⟨?_, rfl, unreserved.ttl, unreserved.version⟩
    rw [parseTarPathToKey_unreserved unreserved]
    exact (replaceFirstSlash_dataPath_iff pair.1).mpr plainly
  · have reserved : ∀ {path rest : Bytes}, path.take 2 ≠ versionPath.take 2 → 2 ≤ path.length →
        path ++ rest ≠ versionPath := by
      intro path rest different long same
      apply different
      rw [← same, List.take_append_of_le_length long]
    rcases faithful with ⟨tableName, schema⟩ | ⟨⟨relName, rel⟩, noValue⟩ | ⟨isData, -⟩
    · rw [mainEntry_schema utf8 schema.symm]
      refine ⟨(parseTarPathToKey_schema tableName).trans schema, rfl, ?_,
        reserved (by decide +kernel) (by decide +kernel)⟩
      rw [dropPrefix?_eq_none]
      exact not_prefix_of_take 2 (by decide +kernel) (by decide +kernel) (by decide +kernel)
    · rw [mainEntry_rel utf8 rel.symm]
      refine ⟨(parseTarPathToKey_rel relName).trans rel, noValue.symm, ?_,
        reserved (by decide +kernel) (by decide +kernel)⟩
      rw [dropPrefix?_eq_none]
      exact not_prefix_of_take 2 (by decide +kernel) (by decide +kernel) (by decide +kernel)
    · exact absurd isData data

theorem namesFaithfully_iff {pairs : Set (Bytes × Bytes)}
    (utf8 : ∀ pair ∈ pairs, Utf8.wellFormed pair.1 = true) :
    NamesFaithfully pairs ↔ ∀ pair ∈ pairs, Faithful pair := by
  constructor
  · intro names pair member
    have wellFormed := utf8 pair member
    by_cases data : DataKey pair.1
    · have unreserved := names.unreserved pair member data
      have back := names.back pair member
      rw [parseTarPathToKey_unreserved unreserved] at back
      unfold tarPath at back unreserved
      rw [mainEntry_data wellFormed data] at back unreserved
      have plainly := (replaceFirstSlash_dataPath_iff pair.1).mp back
      refine Or.inr (Or.inr ⟨data, plainly, ?_, ?_⟩)
      · rw [← ttl_meaning.prefix_iff plainly, ← dropPrefix?_eq_none]
        exact unreserved.ttl
      · intro version
        exact unreserved.version ((versionPath_iff plainly).mpr version)
    · rw [dataKey_iff wellFormed, not_and_or, not_not, not_not] at data
      rcases data with schema | rel
      · exact Or.inl schema
      · have unchanged := names.unchanged pair member
        rcases rel with ⟨relName, rel⟩
        rw [mainEntry_rel wellFormed rel.symm] at unchanged
        exact Or.inr (Or.inl ⟨⟨relName, rel⟩, unchanged.symm⟩)
  · intro faithful
    have entry := fun pair member => (faithful pair member).entry (utf8 pair member)
    refine ⟨fun pair member => (entry pair member).1, ?_, ?_,
      fun pair member => (entry pair member).2.1⟩
    · intro left leftMember right rightMember different same
      apply different
      rw [← (entry left leftMember).1, same, (entry right rightMember).1]
    · intro pair member data
      have wellFormed := utf8 pair member
      rcases (faithful pair member).data wellFormed data with ⟨plainly, noTtl, noVersion⟩
      unfold tarPath
      rw [mainEntry_data wellFormed data]
      exact unreserved_of_plain wellFormed data plainly noTtl noVersion

theorem plainPair_faithful : Utf8.wellFormed (asBytes "a:b") = true ∧
    Faithful (asBytes "a:b", asBytes "x") := by
  refine ⟨by decide +kernel, Or.inr (Or.inr ⟨by decide +kernel, Or.inr ?_, by decide +kernel,
    by decide +kernel⟩)⟩
  exact ⟨asBytes "a", asBytes "b", by decide +kernel, by decide +kernel, by decide +kernel,
    by decide +kernel⟩

theorem plainPair_names_faithfully : NamesFaithfully {(asBytes "a:b", asBytes "x")} := by
  apply (namesFaithfully_iff _).mpr
  · intro pair member
    rw [Set.mem_singleton_iff.mp member]
    exact plainPair_faithful.2
  · intro pair member
    rw [Set.mem_singleton_iff.mp member]
    exact plainPair_faithful.1

end TricPlus
