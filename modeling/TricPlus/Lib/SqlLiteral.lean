import Mathlib

/-!
Literals of SQL and how they are read: numbers with or without a sign, NULL, the truth values, and
texts in quotes, in which a quote is doubled and, in some dialects, a backslash escapes what
stands behind it.

A literal is read off the front of a text, as far as it goes; what stands behind is left.
-/

namespace SqlLiteral

inductive Literal where
  | number (digits : List Char)
  | signed (sign : Char) (digits : List Char)
  | text (content : List Char)
  | null
  | boolean (truth : Bool)
  deriving DecidableEq

/-- The text that a literal stands for.  NULL stands for none. -/
def Literal.contents : Literal → List Char
  | .number digits => digits
  | .signed sign digits => sign :: digits
  | .text content => content
  | .null => []
  | .boolean truth => if truth then "true".toList else "false".toList

/-- What a backslash with a character behind it stands for: a character, or the two themselves. -/
structure Escapes where
  of : Char → List Char
  quote : of '\'' = ['\'']
  backslash : of '\\' = ['\\']
  short : ∀ character, (of character).length ≤ 2

/-! ### Readers -/

abbrev Reading := List Char × List Char

def prefixed (front : List Char) (reading : Option Reading) : Option Reading :=
  reading.map (fun read => (front ++ read.1, read.2))

/-- The characters that two characters stand for, if the first one escapes. -/
def escaped (escapes : Option Escapes) (first second : Char) : Option (List Char) :=
  if first = '\\' then escapes.map (fun escapes => escapes.of second) else none

def readText (escapes : Option Escapes) : List Char → Option Reading
  | [] => none
  | [last] => if last = '\'' then some ([], []) else none
  | first :: second :: text =>
      if first = '\'' then
        if second = '\'' then prefixed ['\''] (readText escapes text)
        else some ([], second :: text)
      else
        match escaped escapes first second with
        | some front => prefixed front (readText escapes text)
        | none => prefixed [first] (readText escapes (second :: text))

def readDigits (text : List Char) : Reading :=
  (text.takeWhile Char.isDigit, text.dropWhile Char.isDigit)

def readFraction : List Char → Reading
  | [] => ([], [])
  | point :: text =>
      if point = '.' then (point :: (readDigits text).1, (readDigits text).2) else ([], point :: text)

def readSign : List Char → Reading
  | [] => ([], [])
  | sign :: text => if sign = '+' ∨ sign = '-' then ([sign], text) else ([], sign :: text)

def readExponent : List Char → Reading
  | [] => ([], [])
  | mark :: text =>
      let sign := readSign text
      let digits := readDigits sign.2
      if (mark = 'e' ∨ mark = 'E') ∧ digits.1 ≠ [] then (mark :: (sign.1 ++ digits.1), digits.2)
      else ([], mark :: text)

def readUnsigned (text : List Char) : Option Reading :=
  let whole := readDigits text
  let fraction := readFraction whole.2
  let exponent := readExponent fraction.2
  if whole.1 = [] ∧ fraction.1.length ≤ 1 then none
  else some (whole.1 ++ (fraction.1 ++ exponent.1), exponent.2)

def readNumber : List Char → Option (Literal × List Char)
  | [] => none
  | first :: text =>
      if first = '+' ∨ first = '-' then
        (readUnsigned text).map (fun read => (.signed first read.1, read.2))
      else (readUnsigned (first :: text)).map (fun read => (.number read.1, read.2))

def isWordCharacter (character : Char) : Bool := character.isAlphanum || character == '_'

def keyword (word : List Char) : Option Literal :=
  let lower := word.map Char.toLower
  if lower = "null".toList then some .null
  else if lower = "true".toList then some (.boolean true)
  else if lower = "false".toList then some (.boolean false)
  else none

def readKeyword (text : List Char) : Option (Literal × List Char) :=
  (keyword (text.takeWhile isWordCharacter)).map (fun literal =>
    (literal, text.dropWhile isWordCharacter))

def readPlain (text : List Char) : Option (Literal × List Char) :=
  (readNumber text).or (readKeyword text)

/-- The literal that a text begins with. -/
def read (escapes : Option Escapes) (text : List Char) : Option (Literal × List Char) :=
  if text.head? = some '\'' then
    (readText escapes text.tail).map (fun read => (.text read.1, read.2))
  else readPlain text

def closed (content rest : List Char) : List Char :=
  content.flatMap (fun character => if character = '\'' then ['\'', '\''] else [character]) ++
    '\'' :: rest

def kept (escapes : Escapes) : List Char → Bool
  | [] => true
  | [last] => last != '\\'
  | first :: second :: text =>
      if first = '\\' then escapes.of second == [first, second] && kept escapes text
      else kept escapes (second :: text)

/-- A comma or a closing bracket, and whatever follows. -/
def Stops (rest : List Char) : Prop :=
  ∃ behind, rest = ',' :: behind ∨ rest = ')' :: behind

/-- The reader leaves what stands behind. -/
def Stable (reader : List Char → Reading) : Prop :=
  ∀ text rest, Stops rest → reader (text ++ rest) = ((reader text).1, (reader text).2 ++ rest)

section Behind

variable {rest : List Char}

theorem Stops.first (stops : Stops rest) : ∃ first behind, rest = first :: behind ∧
    first.isDigit = false ∧ isWordCharacter first = false ∧ first ≠ '.' ∧ first ≠ '\'' ∧
    first ≠ '+' ∧ first ≠ '-' ∧ first ≠ 'e' ∧ first ≠ 'E' := by
  obtain ⟨behind, rfl | rfl⟩ := stops
  · exact ⟨_, _, rfl, by decide, by decide, by decide, by decide, by decide, by decide, by decide,
      by decide⟩
  · exact ⟨_, _, rfl, by decide, by decide, by decide, by decide, by decide, by decide, by decide,
      by decide⟩

private theorem takeWhile_append_stop {p : Char → Bool} {first : Char} (stops : p first = false)
    (text behind : List Char) :
    (text ++ first :: behind).takeWhile p = text.takeWhile p ∧
      (text ++ first :: behind).dropWhile p = text.dropWhile p ++ first :: behind := by
  induction text with
  | nil =>
      rw [List.nil_append, List.takeWhile_cons, List.dropWhile_cons, stops]
      exact ⟨rfl, rfl⟩
  | cons character text ih =>
      rw [List.cons_append, List.takeWhile_cons, List.dropWhile_cons, List.takeWhile_cons,
        List.dropWhile_cons, ih.1, ih.2]
      cases p character <;> exact ⟨rfl, rfl⟩

private theorem readDigits_stable : Stable readDigits := by
  intro text rest stops
  obtain ⟨first, behind, rfl, digit, -⟩ := stops.first
  obtain ⟨taken, left⟩ := takeWhile_append_stop digit text behind
  unfold readDigits
  rw [taken, left]

private theorem readFraction_cons (point : Char) (text : List Char) :
    readFraction (point :: text) =
      if point = '.' then (point :: (readDigits text).1, (readDigits text).2)
      else ([], point :: text) := rfl

private theorem readFraction_stable : Stable readFraction := by
  intro text rest stops
  cases text with
  | nil =>
      obtain ⟨first, behind, rfl, -, -, point, -⟩ := stops.first
      exact if_neg point
  | cons point text =>
      rw [List.cons_append, readFraction_cons, readFraction_cons, readDigits_stable text rest stops]
      split <;> rfl

private theorem readSign_cons (sign : Char) (text : List Char) :
    readSign (sign :: text) =
      if sign = '+' ∨ sign = '-' then ([sign], text) else ([], sign :: text) := rfl

private theorem readSign_stable : Stable readSign := by
  intro text rest stops
  cases text with
  | nil =>
      obtain ⟨first, behind, rfl, -, -, -, -, plus, minus, -⟩ := stops.first
      exact if_neg (not_or.mpr ⟨plus, minus⟩)
  | cons sign text =>
      rw [List.cons_append, readSign_cons, readSign_cons]
      split <;> rfl

private theorem readExponent_stable : Stable readExponent := by
  intro text rest stops
  cases text with
  | nil =>
      obtain ⟨first, behind, rfl, -, -, -, -, -, -, lower, upper⟩ := stops.first
      exact if_neg (fun marked => marked.1.elim lower upper)
  | cons mark text =>
      rw [List.cons_append]
      unfold readExponent
      simp only
      rw [readSign_stable text rest stops]
      simp only
      rw [readDigits_stable _ rest stops]
      split <;> rfl

private theorem readUnsigned_stable (text : List Char) (stops : Stops rest) :
    readUnsigned (text ++ rest) =
      (readUnsigned text).map (fun read => (read.1, read.2 ++ rest)) := by
  unfold readUnsigned
  simp only
  rw [readDigits_stable text rest stops]
  simp only
  rw [readFraction_stable _ rest stops]
  simp only
  rw [readExponent_stable _ rest stops]
  split <;> rfl

private theorem readUnsigned_stop (stops : Stops rest) : readUnsigned rest = none :=
  readUnsigned_stable [] stops

private theorem readNumber_cons (first : Char) (text : List Char) :
    readNumber (first :: text) =
      if first = '+' ∨ first = '-' then
        (readUnsigned text).map (fun read => (.signed first read.1, read.2))
      else (readUnsigned (first :: text)).map (fun read => (.number read.1, read.2)) := rfl

private theorem readNumber_stable (text : List Char) (stops : Stops rest) :
    readNumber (text ++ rest) = (readNumber text).map (fun read => (read.1, read.2 ++ rest)) := by
  cases text with
  | nil =>
      have none := readUnsigned_stop stops
      obtain ⟨first, behind, rfl, -, -, -, -, plus, minus, -⟩ := stops.first
      rw [List.nil_append, readNumber_cons, if_neg (not_or.mpr ⟨plus, minus⟩), none]
      rfl
  | cons first text =>
      rw [List.cons_append, readNumber_cons, readNumber_cons, ← List.cons_append,
        readUnsigned_stable text stops, readUnsigned_stable (first :: text) stops]
      split <;> rw [Option.map_map, Option.map_map] <;> rfl

private theorem readKeyword_stable (text : List Char) (stops : Stops rest) :
    readKeyword (text ++ rest) = (readKeyword text).map (fun read => (read.1, read.2 ++ rest)) := by
  obtain ⟨first, behind, rfl, -, word, -⟩ := stops.first
  obtain ⟨taken, left⟩ := takeWhile_append_stop word text behind
  unfold readKeyword
  rw [taken, left, Option.map_map]
  rfl

theorem readPlain_stable (text : List Char) (stops : Stops rest) :
    readPlain (text ++ rest) = (readPlain text).map (fun read => (read.1, read.2 ++ rest)) := by
  unfold readPlain
  rw [readNumber_stable text stops, readKeyword_stable text stops]
  cases readNumber text <;> rfl

end Behind

section Plain

variable {text left : List Char} {literal : Literal}

def Splits (reader : List Char → Reading) : Prop :=
  ∀ text, (reader text).1 ++ (reader text).2 = text

private theorem readDigits_splits : Splits readDigits := fun _ => List.takeWhile_append_dropWhile

private theorem readFraction_splits : Splits readFraction := by
  intro text
  cases text with
  | nil => rfl
  | cons point text =>
      rw [readFraction_cons]
      split
      · exact congrArg (point :: ·) (readDigits_splits text)
      · rfl

private theorem readSign_splits : Splits readSign := by
  intro text
  cases text with
  | nil => rfl
  | cons sign text =>
      rw [readSign_cons]
      split <;> rfl

private theorem readExponent_splits : Splits readExponent := by
  intro text
  cases text with
  | nil => rfl
  | cons mark text =>
      unfold readExponent
      simp only
      split
      · rw [List.cons_append, List.append_assoc, readDigits_splits, readSign_splits]
      · rfl

private theorem readUnsigned_splits {digits : List Char}
    (reads : readUnsigned text = some (digits, left)) : digits ++ left = text := by
  unfold readUnsigned at reads
  simp only at reads
  split at reads
  · cases reads
  · cases reads
    rw [List.append_assoc, List.append_assoc, readExponent_splits, readFraction_splits,
      readDigits_splits]

private theorem readNumber_contents (reads : readNumber text = some (literal, left)) :
    literal.contents ++ left = text := by
  cases text with
  | nil => cases reads
  | cons first text =>
      rw [readNumber_cons] at reads
      split at reads
      · obtain ⟨⟨digits, behind⟩, unsigned, same⟩ := Option.map_eq_some_iff.mp reads
        cases same
        exact congrArg (first :: ·) (readUnsigned_splits unsigned)
      · obtain ⟨⟨digits, behind⟩, unsigned, same⟩ := Option.map_eq_some_iff.mp reads
        cases same
        exact readUnsigned_splits unsigned

def numeral (text : List Char) : Bool := (readNumber text).map Prod.snd == some []

private theorem numeral_iff : numeral text = true ↔ ∃ literal, readNumber text = some
    (literal, []) := by
  unfold numeral
  rw [beq_iff_eq, Option.map_eq_some_iff]
  constructor
  · rintro ⟨⟨literal, left⟩, reads, rfl⟩
    exact ⟨literal, reads⟩
  · rintro ⟨literal, reads⟩
    exact ⟨_, reads, rfl⟩

private theorem keyword_contents (found : keyword text = some literal)
    (same : literal.contents = text) :
    text = "true".toList ∨ text = "false".toList := by
  unfold keyword at found
  simp only at found
  split at found
  next lower =>
    cases found
    rw [← same] at lower
    cases lower
  next =>
    split at found
    next =>
      cases found
      exact Or.inl same.symm
    next =>
      split at found
      next =>
        cases found
        exact Or.inr same.symm
      next => cases found

theorem readPlain_quote : readPlain ('\'' :: text) = none := rfl

theorem readPlain_self_iff :
    (∃ literal, readPlain text = some (literal, []) ∧ literal.contents = text) ↔
      numeral text = true ∨ text = "true".toList ∨ text = "false".toList := by
  unfold readPlain
  constructor
  · rintro ⟨literal, reads, same⟩
    cases number : readNumber text with
    | some read =>
        rw [number] at reads
        cases reads
        exact Or.inl (numeral_iff.mpr ⟨_, number⟩)
    | none =>
        rw [number] at reads
        obtain ⟨word, found, cut⟩ := Option.map_eq_some_iff.mp reads
        obtain ⟨rfl, nothing⟩ := Prod.mk.inj cut
        have whole := List.takeWhile_append_dropWhile (p := isWordCharacter) (l := text)
        rw [nothing, List.append_nil] at whole
        rw [whole] at found
        exact Or.inr (keyword_contents found same)
  · rintro (number | rfl | rfl)
    · obtain ⟨literal, reads⟩ := numeral_iff.mp number
      have same := readNumber_contents reads
      rw [List.append_nil] at same
      rw [reads]
      exact ⟨literal, rfl, same⟩
    · exact ⟨.boolean true, rfl, rfl⟩
    · exact ⟨.boolean false, rfl, rfl⟩

end Plain

section Quotes

variable {escapes : Option Escapes} {backslashes : Escapes} {first second : Char}
  {content left rest text : List Char}

private theorem prefixed_eq_some {front : List Char} {reading : Option Reading} :
    prefixed front reading = some (content, left) ↔
      ∃ behind, reading = some (behind, left) ∧ front ++ behind = content := by
  unfold prefixed
  cases reading with
  | none => exact iff_of_false nofun (fun ⟨_, wrong, _⟩ => nomatch wrong)
  | some read =>
      constructor
      · intro same
        cases same
        exact ⟨read.1, rfl, rfl⟩
      · rintro ⟨behind, same, rfl⟩
        cases same
        rfl

private theorem readText_pair (first second : Char) (text : List Char) :
    readText escapes (first :: second :: text) =
      if first = '\'' then
        if second = '\'' then prefixed ['\''] (readText escapes text)
        else some ([], second :: text)
      else
        match escaped escapes first second with
        | some front => prefixed front (readText escapes text)
        | none => prefixed [first] (readText escapes (second :: text)) := rfl

private theorem length_escaped {front : List Char}
    (escape : escaped escapes first second = some front) :
    front.length ≤ 2 := by
  unfold escaped at escape
  split at escape
  · obtain ⟨backslashes, -, rfl⟩ := Option.map_eq_some_iff.mp escape
    exact backslashes.short second
  · cases escape

theorem readText_shorter (reads : readText escapes text = some (content, left)) :
    content.length + left.length < text.length := by
  induction text using readText.induct escapes generalizing content with
  | case1 => cases reads
  | case2 =>
      cases reads
      exact Nat.one_pos
  | case3 last other =>
      rw [readText, if_neg other] at reads
      cases reads
  | case4 text ih =>
      rw [readText_pair, if_pos rfl, if_pos rfl] at reads
      obtain ⟨behind, behindReads, rfl⟩ := prefixed_eq_some.mp reads
      have shorter := ih behindReads
      simp only [List.length_append, List.length_cons, List.length_nil]
      omega
  | case5 second text other =>
      rw [readText_pair, if_pos rfl, if_neg other] at reads
      cases reads
      simp only [List.length_cons, List.length_nil]
      omega
  | case6 first second text other front escape ih =>
      rw [readText_pair, if_neg other, escape] at reads
      obtain ⟨behind, behindReads, rfl⟩ := prefixed_eq_some.mp reads
      have shorter := ih behindReads
      have short := length_escaped escape
      simp only [List.length_append, List.length_cons]
      omega
  | case7 first second text other plain ih =>
      rw [readText_pair, if_neg other, plain] at reads
      obtain ⟨behind, behindReads, rfl⟩ := prefixed_eq_some.mp reads
      have shorter := ih behindReads
      simp only [List.length_append, List.length_cons, List.length_nil] at shorter ⊢
      omega

private theorem readText_self : readText escapes text ≠ some (content, text) := by
  intro reads
  have shorter := readText_shorter reads
  omega

private theorem closed_quote : closed
    ('\'' :: content) rest = '\'' :: '\'' :: closed content rest := rfl

private theorem closed_cons (other : first ≠ '\'') :
    closed (first :: content) rest = first :: closed content rest := by
  unfold closed
  rw [List.flatMap_cons, if_neg other]
  rfl

private theorem length_closed (content rest : List Char) : rest.length <
    (closed content rest).length := by
  unfold closed
  rw [List.length_append, List.length_cons]
  omega

private theorem closed_ne_rest : closed content rest ≠ rest := by
  intro same
  have longer := length_closed content rest
  rw [same] at longer
  exact Nat.lt_irrefl _ longer

private theorem readText_end (stops : Stops rest) : readText escapes ('\'' :: rest) = some
    ([], rest) := by
  obtain ⟨first, behind, rfl, -, -, -, quote, -⟩ := stops.first
  rw [readText_pair, if_pos rfl, if_neg quote]

private theorem readText_character (plain : ∀ second, escaped escapes first second = none) :
    readText escapes (closed (first :: content) rest) =
      prefixed [first] (readText escapes (closed content rest)) := by
  by_cases quote : first = '\''
  · subst quote
    rfl
  · rw [closed_cons quote]
    cases behind : closed content rest with
    | nil =>
        have longer := length_closed content rest
        rw [behind] at longer
        cases longer
    | cons second text => rw [readText_pair, if_neg quote, plain]

private theorem readText_backslash :
    readText (some backslashes) ('\\' :: second :: text) =
      prefixed (backslashes.of second) (readText (some backslashes) text) := rfl

private theorem readText_shifted : readText escapes ('\'' :: closed content rest) ≠ some
    (text, rest) := by
  intro reads
  induction content generalizing text with
  | nil =>
      change readText escapes ('\'' :: '\'' :: rest) = _ at reads
      rw [readText_pair, if_pos rfl, if_pos rfl] at reads
      obtain ⟨behind, reads, -⟩ := prefixed_eq_some.mp reads
      exact readText_self reads
  | cons first content ih =>
      by_cases quote : first = '\''
      · subst quote
        rw [closed_quote, readText_pair, if_pos rfl, if_pos rfl] at reads
        obtain ⟨behind, reads, -⟩ := prefixed_eq_some.mp reads
        exact ih reads
      · rw [closed_cons quote, readText_pair, if_pos rfl, if_neg quote, ← closed_cons quote] at reads
        exact closed_ne_rest (congrArg Prod.snd (Option.some.inj reads))

private theorem escaped_none (second : Char) : escaped none first second = none := by
  unfold escaped
  split <;> rfl

private theorem escaped_other (other : first ≠ '\\') (second : Char) :
    escaped escapes first second = none := if_neg other

@[elab_as_elim]
theorem backslash_induction {motive : List Char → Prop} (nil : motive []) (lone : motive ['\\'])
    (pair : ∀ second content, motive content → motive ('\\' :: second :: content))
    (character : ∀ first content, first ≠ '\\' → motive content → motive (first :: content))
    (content : List Char) : motive content := by
  induction content using List.twoStepInduction with
  | nil => exact nil
  | singleton first =>
      by_cases backslash : first = '\\'
      · exact backslash ▸ lone
      · exact character first [] backslash nil
  | cons_cons first second content ih next =>
      by_cases backslash : first = '\\'
      · exact backslash ▸ pair second content ih
      · exact character first (second :: content) backslash (next second)

private theorem readText_lone : readText (some backslashes) (closed ['\\'] rest) ≠ some
    (text, rest) := by
  intro reads
  change readText _ ('\\' :: '\'' :: rest) = _ at reads
  rw [readText_backslash] at reads
  obtain ⟨behind, reads, -⟩ := prefixed_eq_some.mp reads
  exact readText_self reads

private theorem readText_escape_iff :
    readText (some backslashes) (closed ('\\' :: second :: content) rest) = some (text, rest) ↔
      second ≠ '\'' ∧
        prefixed (backslashes.of second) (readText (some backslashes) (closed content rest)) =
          some (text, rest) := by
  by_cases quote : second = '\''
  · subst quote
    refine iff_of_false (fun reads => ?_) (fun wrong => wrong.1 rfl)
    change readText _ ('\\' :: '\'' :: '\'' :: closed content rest) = _ at reads
    rw [readText_backslash] at reads
    obtain ⟨behind, reads, -⟩ := prefixed_eq_some.mp reads
    exact readText_shifted reads
  · rw [closed_cons (by decide), closed_cons quote, readText_backslash]
    exact (and_iff_right quote).symm

private theorem length_readText (stops : Stops rest)
    (reads : readText (some backslashes) (closed content rest) = some (text, rest)) :
    text.length ≤ content.length := by
  induction content using backslash_induction generalizing text with
  | nil =>
      rw [show closed [] rest = '\'' :: rest from rfl, readText_end stops] at reads
      cases reads
      exact Nat.le_refl 0
  | lone => exact absurd reads readText_lone
  | pair second content ih =>
      obtain ⟨behind, behindReads, rfl⟩ := prefixed_eq_some.mp (readText_escape_iff.mp reads).2
      have short := backslashes.short second
      have shorter := ih behindReads
      rw [List.length_append, List.length_cons, List.length_cons]
      omega
  | character first content other ih =>
      rw [readText_character (escaped_other other)] at reads
      obtain ⟨behind, behindReads, rfl⟩ := prefixed_eq_some.mp reads
      exact Nat.succ_le_succ (ih behindReads)

private theorem kept_character (other : first ≠ '\\') :
    kept backslashes (first :: content) = kept backslashes content := by
  cases content with
  | nil => exact bne_iff_ne.mpr other
  | cons second content => exact if_neg other

private theorem of_append_eq_iff {behind : List Char} (shorter : behind.length ≤ content.length) :
    backslashes.of second ++ behind = '\\' :: second :: content ↔
      backslashes.of second = ['\\', second] ∧ behind = content := by
  constructor
  · intro same
    have short := backslashes.short second
    have lengths := congrArg List.length same
    rw [List.length_append, List.length_cons, List.length_cons] at lengths
    exact List.append_inj (same.trans (List.append_nil [] ▸ rfl)) (by
      rw [List.length_cons, List.length_singleton]
      omega : _ = ['\\', second].length)
  · rintro ⟨stands, rfl⟩
    rw [stands]
    rfl

private theorem readText_kept_iff (stops : Stops rest) :
    readText (some backslashes) (closed content rest) = some (content, rest) ↔
      kept backslashes content = true := by
  induction content using backslash_induction with
  | nil => exact iff_of_true (readText_end stops) rfl
  | lone => exact iff_of_false readText_lone Bool.false_ne_true
  | pair second content ih =>
      rw [readText_escape_iff, prefixed_eq_some]
      change _ ↔ (backslashes.of second == ['\\', second] && kept backslashes content) = true
      rw [Bool.and_eq_true, beq_iff_eq, ← ih]
      constructor
      · rintro ⟨-, behind, reads, same⟩
        obtain ⟨stands, rfl⟩ := (of_append_eq_iff (length_readText stops reads)).mp same
        exact ⟨stands, reads⟩
      · rintro ⟨stands, reads⟩
        refine ⟨?_, content, reads, (of_append_eq_iff (Nat.le_refl _)).mpr ⟨stands, rfl⟩⟩
        rintro rfl
        rw [backslashes.quote] at stands
        cases stands
  | character first content other ih =>
      rw [readText_character (escaped_other other), prefixed_eq_some, kept_character other, ← ih]
      constructor
      · rintro ⟨behind, reads, same⟩
        cases same
        exact reads
      · exact fun reads => ⟨content, reads, rfl⟩

private theorem readText_closed (stops : Stops rest) :
    readText none (closed content rest) = some (content, rest) := by
  induction content with
  | nil => exact readText_end stops
  | cons first content ih =>
      rw [readText_character escaped_none, ih]
      rfl

theorem readText_closed_iff (stops : Stops rest) :
    readText escapes (closed content rest) = some (content, rest) ↔
      ∀ backslashes ∈ escapes, kept backslashes content = true := by
  cases escapes with
  | none => exact iff_of_true (readText_closed stops) nofun
  | some backslashes =>
      rw [readText_kept_iff stops]
      constructor
      · rintro keeps other ⟨⟩
        exact keeps
      · exact fun keeps => keeps backslashes rfl

end Quotes

end SqlLiteral
