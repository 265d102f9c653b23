import TricPlus.Lib.Utf8
import TricPlus.Lib.Words

/-!
The characters of a text in UTF-8, and its words: what blanks in the sense of Unicode
separate.  A character is the bytes it is written with.
-/

namespace Utf8

def isContinuation (byte : UInt8) : Bool :=
  decide (0x80 ≤ byte ∧ byte ≤ 0xBF)

/-- The bytes that go on with a character. -/
def goesOn (bytes : List UInt8) : Bool :=
  bytes.head?.any isContinuation

def characters : List UInt8 → List (List UInt8)
  | [] => []
  | byte :: rest =>
      match characters rest with
      | [] => [[byte]]
      | next :: others =>
          if goesOn next then (byte :: next) :: others else [byte] :: next :: others

/-- The characters with the property `White_Space`. -/
def blanks : List (List UInt8) :=
  [[0x09], [0x0A], [0x0B], [0x0C], [0x0D], [0x20], [0xC2, 0x85], [0xC2, 0xA0],
    [0xE1, 0x9A, 0x80], [0xE2, 0x80, 0x80], [0xE2, 0x80, 0x81], [0xE2, 0x80, 0x82],
    [0xE2, 0x80, 0x83], [0xE2, 0x80, 0x84], [0xE2, 0x80, 0x85], [0xE2, 0x80, 0x86],
    [0xE2, 0x80, 0x87], [0xE2, 0x80, 0x88], [0xE2, 0x80, 0x89], [0xE2, 0x80, 0x8A],
    [0xE2, 0x80, 0xA8], [0xE2, 0x80, 0xA9], [0xE2, 0x80, 0xAF], [0xE2, 0x81, 0x9F],
    [0xE3, 0x80, 0x80]]

def isBlank (character : List UInt8) : Bool :=
  decide (character ∈ blanks)

/-- `str::split_whitespace`. -/
def splitWhitespace (text : List UInt8) : List (List UInt8) :=
  (Words.words isBlank (characters text)).map List.flatten

/-- `str::trim`. -/
def trim (text : List UInt8) : List UInt8 :=
  (Words.trim isBlank (characters text)).flatten

def Group (bytes : List UInt8) : Prop :=
  ∃ lead rest, bytes = lead :: rest ∧ isContinuation lead = false ∧
    ∀ byte ∈ rest, isContinuation byte = true

@[simp] theorem characters_nil : characters [] = [] := rfl

private theorem characters_cons (byte : UInt8) (rest : List UInt8) :
    characters (byte :: rest) =
      match characters rest with
      | [] => [[byte]]
      | next :: others =>
          if goesOn next then (byte :: next) :: others else [byte] :: next :: others := rfl

theorem flatten_characters (text : List UInt8) : (characters text).flatten = text := by
  induction text with
  | nil => rfl
  | cons byte rest ih =>
      rw [characters_cons]
      cases cut : characters rest with
      | nil =>
          rw [cut] at ih
          rw [← ih]
          rfl
      | cons next others =>
          rw [cut, List.flatten_cons] at ih
          simp only
          split
          · rw [List.flatten_cons, List.cons_append, ih]
          · rw [List.flatten_cons, List.flatten_cons, ih]
            rfl

private theorem goesOn_characters {text next : List UInt8} {others : List (List UInt8)}
    (cut : characters text = next :: others) : next ≠ [] ∧ goesOn next = goesOn text := by
  cases text with
  | nil => cases cut
  | cons byte rest =>
      rw [characters_cons] at cut
      cases behind : characters rest with
      | nil =>
          rw [behind] at cut
          cases cut
          exact ⟨List.cons_ne_nil _ _, rfl⟩
      | cons second more =>
          rw [behind] at cut
          simp only at cut
          split at cut
          · cases cut
            exact ⟨List.cons_ne_nil _ _, rfl⟩
          · cases cut
            exact ⟨List.cons_ne_nil _ _, rfl⟩

theorem characters_solid (text : List UInt8) :
    ∀ character ∈ characters text, character ≠ [] := by
  induction text with
  | nil =>
      intro character member
      cases member
  | cons byte rest ih =>
      rw [characters_cons]
      cases cut : characters rest with
      | nil => exact List.forall_mem_singleton.mpr (List.cons_ne_nil _ _)
      | cons next others =>
          rw [cut, List.forall_mem_cons] at ih
          simp only
          split
          · exact List.forall_mem_cons.mpr ⟨List.cons_ne_nil _ _, ih.2⟩
          · exact List.forall_mem_cons.mpr
              ⟨List.cons_ne_nil _ _, List.forall_mem_cons.mpr ih⟩

private theorem characters_append (front : List UInt8) {back : List UInt8}
    (begins : goesOn back = false) :
    characters (front ++ back) = characters front ++ characters back := by
  induction front with
  | nil => rfl
  | cons byte front ih =>
      rw [List.cons_append, characters_cons, characters_cons, ih]
      cases cut : characters front with
      | nil =>
          rw [List.nil_append]
          cases behind : characters back with
          | nil => rfl
          | cons next others =>
              simp only [(goesOn_characters behind).2, begins]
              rfl
      | cons next others =>
          rw [List.cons_append]
          simp only
          split
          · rfl
          · rfl

private theorem characters_group {lead : UInt8} {rest : List UInt8}
    (follow : ∀ byte ∈ rest, isContinuation byte = true) :
    characters (lead :: rest) = [lead :: rest] := by
  induction rest generalizing lead with
  | nil => rfl
  | cons next rest ih =>
      rw [List.forall_mem_cons] at follow
      have goes : goesOn (next :: rest) = true := follow.1
      rw [characters_cons, ih follow.2]
      simp only [goes, if_true]

private theorem characters_flatten {groups : List (List UInt8)}
    (grouped : ∀ group ∈ groups, Group group) :
    characters groups.flatten = groups := by
  induction groups with
  | nil => rfl
  | cons group groups ih =>
      rw [List.forall_mem_cons] at grouped
      obtain ⟨⟨lead, rest, rfl, -, follow⟩, others⟩ := grouped
      have begins : goesOn groups.flatten = false := by
        cases groups with
        | nil => rfl
        | cons next groups =>
            obtain ⟨first, tail, rfl, leads, -⟩ := others _ (List.mem_cons_self ..)
            exact leads
      rw [List.flatten_cons, characters_append _ begins, ih others, characters_group follow]
      rfl

private theorem characters_grouped {text : List UInt8} (begins : goesOn text = false) :
    ∀ character ∈ characters text, Group character := by
  suffices grouped : ∀ next others, characters text = next :: others →
      (∃ lead rest, next = lead :: rest ∧ ∀ byte ∈ rest, isContinuation byte = true) ∧
        ∀ character ∈ others, Group character by
    cases cut : characters text with
    | nil =>
        intro character member
        cases member
    | cons next others =>
        obtain ⟨⟨lead, rest, rfl, follow⟩, behind⟩ := grouped next others cut
        have leads := (goesOn_characters cut).2
        rw [begins] at leads
        exact List.forall_mem_cons.mpr ⟨⟨lead, rest, rfl, leads, follow⟩, behind⟩
  clear begins
  induction text with
  | nil =>
      intro next others cut
      cases cut
  | cons byte rest ih =>
      intro next others cut
      rw [characters_cons] at cut
      cases behind : characters rest with
      | nil =>
          rw [behind] at cut
          cases cut
          exact ⟨⟨byte, [], rfl, fun _ member => absurd member List.not_mem_nil⟩,
            fun _ member => absurd member List.not_mem_nil⟩
      | cons second more =>
          obtain ⟨⟨lead, tail, rfl, follow⟩, grouped⟩ := ih second more behind
          rw [behind] at cut
          simp only at cut
          by_cases goes : goesOn (lead :: tail) = true
          · rw [if_pos goes] at cut
            cases cut
            exact ⟨⟨byte, lead :: tail, rfl, List.forall_mem_cons.mpr ⟨goes, follow⟩⟩, grouped⟩
          · rw [if_neg goes] at cut
            cases cut
            exact ⟨⟨byte, [], rfl, fun _ member => absurd member List.not_mem_nil⟩,
              List.forall_mem_cons.mpr
                ⟨⟨lead, tail, rfl, Bool.eq_false_iff.mpr goes, follow⟩, grouped⟩⟩

theorem goesOn_of_wellFormed {text : List UInt8} (whole : wellFormed text = true) :
    goesOn text = false := by
  cases text with
  | nil => rfl
  | cons lead rest =>
      have reads : ∃ owed, following lead = some owed := by
        cases found : following lead with
        | some owed => exact ⟨owed, rfl⟩
        | none =>
            unfold wellFormed completes at whole
            rw [found] at whole
            cases whole
      obtain ⟨owed, found⟩ := reads
      change isContinuation lead = false
      by_contra continues
      rw [Bool.not_eq_false] at continues
      have between : 0x80 ≤ lead ∧ lead ≤ 0xBF := of_decide_eq_true continues
      have above : ¬ lead < 0x80 := UInt8.not_lt.mpr between.1
      have below : lead < 0xC2 := UInt8.lt_of_le_of_lt between.2 (by decide)
      unfold following at found
      rw [if_neg above, if_pos below] at found
      cases found

theorem splitWhitespace_trim {text : List UInt8} (whole : wellFormed text = true) :
    splitWhitespace (trim text) = splitWhitespace text := by
  have grouped := characters_grouped (goesOn_of_wellFormed whole)
  have kept : ∀ character ∈ Words.trim isBlank (characters text), Group character := by
    intro character member
    apply grouped
    exact (List.dropWhile_suffix _).subset ((List.rdropWhile_prefix _ _).subset member)
  unfold splitWhitespace trim
  rw [characters_flatten kept, Words.words_trim]

theorem splitWhitespace_word {word : List UInt8} {blank : UInt8} {text : List UInt8}
    (single : characters word = word.map (fun byte => [byte]))
    (plain : ∀ byte ∈ word, isBlank [byte] = false) (some : word ≠ [])
    (ascii : isContinuation blank = false) (separates : isBlank [blank] = true)
    (begins : goesOn text = false) :
    splitWhitespace (word ++ blank :: text) = word :: splitWhitespace text := by
  have cut : characters (word ++ blank :: text) =
      word.map (fun byte => [byte]) ++ [blank] :: characters text := by
    have behind : characters (blank :: text) = [blank] :: characters text := by
      have alone := characters_append [blank] begins
      rw [List.singleton_append] at alone
      rw [alone]
      rfl
    rw [characters_append word (by exact ascii : goesOn (blank :: text) = false), single, behind]
  unfold splitWhitespace
  rw [cut, Words.words_append_blank _ separates, List.map_append]
  have one : Words.words isBlank (word.map (fun byte => [byte])) =
      [word.map (fun byte => [byte])] := by
    apply Words.words_plain
    · intro character member
      obtain ⟨byte, inside, rfl⟩ := List.mem_map.mp member
      exact plain byte inside
    · exact fun nothing => some (List.map_eq_nil_iff.mp nothing)
  rw [one, List.map_singleton, ← single, flatten_characters, List.singleton_append]

end Utf8
