import TricPlus.ImportKeys
import TricPlus.Lib.Base64
import TricPlus.Lib.Lines
import TricPlus.Lib.Words

/-!
The file of the authorized keys, and the base64 decoder it is read with.

The decoder shifts six bits into a buffer with each character and takes a byte out as soon as it
holds one.  A line of the file is a label and a key in base64; a line that cannot be read is
skipped without notice.
-/

namespace TricPlus

/-- The characters with the property `White_Space`. -/
def isWhitespace (character : Char) : Bool :=
  let code := character.toNat
  decide ((0x09 ≤ code ∧ code ≤ 0x0D) ∨ code = 0x20 ∨ code = 0x85 ∨ code = 0xA0 ∨ code = 0x1680 ∨
    (0x2000 ≤ code ∧ code ≤ 0x200A) ∨ code = 0x2028 ∨ code = 0x2029 ∨ code = 0x202F ∨
    code = 0x205F ∨ code = 0x3000)

namespace Auth

/-! ### The decoder -/

def base64Table : Bytes :=
  asBytes "ABCDEFGHIJKLMNOPQRSTUVWXYZabcdefghijklmnopqrstuvwxyz0123456789+/"

def equalsSign : UInt8 := 0x3D

/-- What has been put out, and the bits that have not yet been; the buffer is a `u32`. -/
structure Decoder where
  output : Bytes
  buffer : Nat
  bits : Nat
  deriving DecidableEq

namespace Decoder

def start : Decoder := ⟨[], 0, 0⟩

def push (decoder : Decoder) (value : Nat) : Decoder :=
  let buffer := (decoder.buffer <<< 6) % 2 ^ 32 ||| value
  let bits := decoder.bits + 6
  if 8 ≤ bits then
    let bits := bits - 8
    { output := decoder.output ++ [UInt8.ofNat (buffer >>> bits)]
      buffer := buffer &&& ((1 <<< bits) - 1)
      bits := bits }
  else
    { output := decoder.output
      buffer := buffer
      bits := bits }

/-- The loop over the bytes of the input. -/
def read : Bytes → Decoder → Option Decoder
  | [], decoder => some decoder
  | byte :: bytes, decoder =>
      if byte = equalsSign then some decoder
      else
        match base64Table.idxOf? byte with
        | some value => read bytes (decoder.push value)
        | none => none

/-- The buffer holds no more than its bits, and these make no byte. -/
structure Fits (decoder : Decoder) : Prop where
  buffer : decoder.buffer < 2 ^ decoder.bits
  bits : decoder.bits < 8

end Decoder

def decodeBase64 (input : Text) : Option Bytes :=
  (Decoder.read input.asBytes Decoder.start).map Decoder.output

namespace Decoder

section Bits

variable {decoder last : Decoder} {output : Bytes} {buffer value number : Nat}

theorem shifted (small : buffer < 2 ^ 26) (six : value < 64) :
    (buffer <<< 6) % 2 ^ 32 ||| value = buffer * 64 + value := by
  have whole : buffer <<< 6 = buffer * 64 := Nat.shiftLeft_eq buffer 6
  have inside : buffer <<< 6 < 2 ^ 32 := by omega
  rw [Nat.mod_eq_of_lt inside, ← Nat.shiftLeft_add_eq_or_of_lt six, whole]

theorem Fits.small (fits : decoder.Fits) : decoder.buffer < 2 ^ 26 :=
  fits.buffer.trans_le (Nat.pow_le_pow_right (by decide) (by have := fits.bits; omega))

private theorem push_byte (fits : decoder.Fits) (six : value < 64) (full : 2 ≤ decoder.bits) :
    decoder.push value =
      { output := decoder.output ++
          [UInt8.ofNat ((decoder.buffer * 64 + value) / 2 ^ (decoder.bits - 2))]
        buffer := (decoder.buffer * 64 + value) % 2 ^ (decoder.bits - 2)
        bits := decoder.bits - 2 } := by
  have left : decoder.bits + 6 - 8 = decoder.bits - 2 := by omega
  have mask : 1 <<< (decoder.bits - 2) - 1 = 2 ^ (decoder.bits - 2) - 1 := by
    rw [Nat.shiftLeft_eq, Nat.one_mul]
  unfold push
  simp only
  rw [if_pos (by omega), shifted fits.small six, left, mask, Nat.shiftRight_eq_div_pow,
    Nat.and_two_pow_sub_one_eq_mod]

private theorem push_bits (fits : decoder.Fits) (six : value < 64) (few : decoder.bits < 2) :
    decoder.push value =
      { output := decoder.output
        buffer := decoder.buffer * 64 + value
        bits := decoder.bits + 6 } := by
  unfold push
  simp only
  rw [if_neg (by omega), shifted fits.small six]

theorem Fits.push (fits : decoder.Fits) (six : value < 64) : (decoder.push value).Fits := by
  have bits := fits.bits
  have buffer := fits.buffer
  by_cases full : 2 ≤ decoder.bits
  · rw [push_byte fits six full]
    exact ⟨Nat.mod_lt _ (Nat.two_pow_pos _), by simp only; omega⟩
  · rw [push_bits fits six (by omega)]
    have more : 2 ^ (decoder.bits + 6) = 2 ^ decoder.bits * 64 := Nat.pow_add 2 _ 6
    exact ⟨by simp only; omega, by simp only; omega⟩

private theorem length_base64Table : base64Table.length = 64 := by decide +kernel

private theorem read_fits {input : Bytes} (fits : decoder.Fits)
    (done : read input decoder = some last) :
    last.Fits := by
  induction input generalizing decoder with
  | nil =>
      cases done
      exact fits
  | cons byte input ih =>
      unfold read at done
      split at done
      · cases done
        exact fits
      · split at done
        · next value found =>
            obtain ⟨inside, -⟩ := List.idxOf?_eq_some_iff.mp found
            rw [length_base64Table] at inside
            exact ih (fits.push inside) done
        · cases done

private theorem read_front {front back : Bytes} (done : read (front ++ back) decoder = some last) :
    ∃ middle, read front decoder = some middle := by
  induction front generalizing decoder with
  | nil => exact ⟨decoder, rfl⟩
  | cons byte front ih =>
      rw [List.cons_append] at done
      unfold read at done ⊢
      split at done
      · next ends => exact ⟨decoder, if_pos ends⟩
      · next goesOn =>
          rw [if_neg goesOn]
          split at done
          · exact ih done
          · cases done

private theorem digits_plain : ∀ number < 64, (Base64.digit number).toNat < 128 ∧
    isWhitespace (Base64.digit number) = false := by
  decide +kernel

private theorem idxOf_digits : ∀ number < 64,
    UInt8.ofNat (Base64.digit number).toNat ≠ equalsSign ∧
      base64Table.idxOf? (UInt8.ofNat (Base64.digit number).toNat) = some number := by
  decide +kernel

private theorem read_digit (six : number < 64) (text : Text) :
    read (Text.asBytes (Base64.digit number :: text)) decoder =
      read text.asBytes (decoder.push number) := by
  have ascii := (digits_plain number six).1
  obtain ⟨goesOn, place⟩ := idxOf_digits number six
  rw [asBytes_cons ascii]
  conv => lhs; unfold read
  rw [if_neg goesOn]
  simp only [place]

private theorem read_padding (text : Text) :
    read (Text.asBytes (Base64.padding :: text)) decoder = some decoder := by
  rw [asBytes_cons (by decide : Base64.padding.toNat < 128)]
  rfl

private theorem push_first {first more : Nat} (byte : first < 256) (six : more < 16) :
    (push ⟨output, 0, 0⟩ (first / 4)).push (first % 4 * 16 + more) =
      ⟨output ++ [UInt8.ofNat first], more, 4⟩ := by
  have begun : (push ⟨output, 0, 0⟩ (first / 4)) = ⟨output, first / 4, 6⟩ := by
    rw [push_bits ⟨Nat.one_pos, Nat.zero_lt_succ _⟩ (by omega) Nat.two_pos]
    simp only [Nat.zero_mul, Nat.zero_add]
  have fits : Fits ⟨output, first / 4, 6⟩ := ⟨by simp only; omega, by simp only; omega⟩
  have whole : (first / 4 * 64 + (first % 4 * 16 + more)) / 2 ^ (6 - 2) = first := by omega
  have left : (first / 4 * 64 + (first % 4 * 16 + more)) % 2 ^ (6 - 2) = more := by omega
  rw [begun, push_byte fits (by omega) (by simp only; omega)]
  simp only [whole, left]

private theorem push_second {second more : Nat} (byte : second < 256) (six : more < 4) :
    push ⟨output, second / 16, 4⟩ (second % 16 * 4 + more) =
      ⟨output ++ [UInt8.ofNat second], more, 2⟩ := by
  have fits : Fits ⟨output, second / 16, 4⟩ := ⟨by simp only; omega, by simp only; omega⟩
  have whole : (second / 16 * 64 + (second % 16 * 4 + more)) / 2 ^ (4 - 2) = second := by omega
  have left : (second / 16 * 64 + (second % 16 * 4 + more)) % 2 ^ (4 - 2) = more := by omega
  rw [push_byte fits (by omega) (by simp only; omega)]
  simp only [whole, left]

private theorem push_third {third : Nat} (byte : third < 256) :
    push ⟨output, third / 64, 2⟩ (third % 64) = ⟨output ++ [UInt8.ofNat third], 0, 0⟩ := by
  have fits : Fits ⟨output, third / 64, 2⟩ := ⟨by simp only; omega, by simp only; omega⟩
  have whole : (third / 64 * 64 + third % 64) / 2 ^ (2 - 2) = third := by omega
  have left : (third / 64 * 64 + third % 64) % 2 ^ (2 - 2) = 0 := by omega
  rw [push_byte fits (by omega) (by simp only; omega)]
  simp only [whole, left]

private theorem read_encode (bytes output : Bytes) :
    ∃ last, read (Text.asBytes (Base64.encode bytes)) ⟨output, 0, 0⟩ = some last ∧
      last.output = output ++ bytes := by
  fun_induction Base64.encode bytes generalizing output with
  | case1 =>
      rw [asBytes_eq]
      exact ⟨⟨output, 0, 0⟩, rfl, (List.append_nil output).symm⟩
  | case2 first =>
      have byte := first.toNat_lt
      rw [read_digit (by omega), read_digit (by omega), read_padding,
        ← Nat.add_zero (first.toNat % 4 * 16), push_first byte (by decide), UInt8.ofNat_toNat]
      exact ⟨_, rfl, rfl⟩
  | case3 first second =>
      have byte := first.toNat_lt
      have next := second.toNat_lt
      rw [read_digit (by omega), read_digit (by omega), read_digit (by omega), read_padding,
        push_first byte (by omega), ← Nat.add_zero (second.toNat % 16 * 4),
        push_second next (by decide), UInt8.ofNat_toNat, UInt8.ofNat_toNat, List.append_assoc]
      exact ⟨_, rfl, rfl⟩
  | case4 first second third bytes ih =>
      have byte := first.toNat_lt
      have next := second.toNat_lt
      have other := third.toNat_lt
      rw [read_digit (by omega), read_digit (by omega), read_digit (by omega),
        read_digit (by omega), push_first byte (by omega), push_second next (by omega),
        push_third other, UInt8.ofNat_toNat, UInt8.ofNat_toNat, UInt8.ofNat_toNat]
      obtain ⟨last, done, written⟩ := ih (output ++ [first] ++ [second] ++ [third])
      refine ⟨last, done, ?_⟩
      rw [written]
      simp only [List.append_assoc, List.cons_append, List.nil_append]

end Bits

end Decoder

private theorem decodeBase64_encode (bytes : Bytes) :
    decodeBase64 (Base64.encode bytes) = some bytes := by
  obtain ⟨last, done, written⟩ := Decoder.read_encode bytes []
  unfold decodeBase64 Decoder.start
  rw [done, Option.map_some, written, List.nil_append]

private theorem read_prefix_fits {bytes front : Bytes}
    (begun : front <+: Text.asBytes (Base64.encode bytes)) :
    ∃ decoder, Decoder.read front Decoder.start = some decoder ∧ decoder.Fits := by
  obtain ⟨back, same⟩ := begun
  obtain ⟨last, done, -⟩ := Decoder.read_encode bytes []
  rw [← same] at done
  obtain ⟨middle, read⟩ := Decoder.read_front done
  exact ⟨middle, read, Decoder.read_fits ⟨by decide, by decide⟩ read⟩

/-! ### The file -/

/-- A label and its key, as `VerifyingKey` makes one of the bytes. -/
structure AuthorizedKey (VerifyingKey : Type) where
  label : Text
  verifyingKey : VerifyingKey
  deriving DecidableEq

section Parsing

variable {VerifyingKey : Type} (fromBytes : Bytes → Option VerifyingKey)

def parseParts (parts : List Text) : Option (AuthorizedKey VerifyingKey) := do
  let label ← parts[0]?
  let keyB64 ← parts[1]?
  let keyBytes ← decodeBase64 keyB64
  if keyBytes.length ≠ 32 then none
  else do
    let verifyingKey ← fromBytes keyBytes
    some ⟨label, verifyingKey⟩

def parseAuthorizedKeys (content : Text) : List (AuthorizedKey VerifyingKey) :=
  ((Lines.lines '\n' '\r' content).filter (fun line =>
    line.head? ≠ some '#' ∧ Words.trim isWhitespace line ≠ [])).filterMap
    (fun line => parseParts fromBytes (Words.words isWhitespace line))

end Parsing

/-- A label without blanks that does not look like a comment, and a key that is accepted. -/
structure KeyLine {VerifyingKey : Type} (fromBytes : Bytes → Option VerifyingKey) where
  label : Text
  key : Bytes
  verifyingKey : VerifyingKey
  nonempty : label ≠ []
  plain : ∀ character ∈ label, isWhitespace character = false
  uncommented : label.head? ≠ some '#'
  size : key.length = 32
  accepted : fromBytes key = some verifyingKey

/-- Blanks that do not end the line. -/
structure Blanks where
  text : Text
  blank : ∀ character ∈ text, isWhitespace character = true ∧ character ≠ '\n'

/-- A line of the file.  A key may be followed by blanks, among them the carriage return that
stands before a newline. -/
inductive FileLine {VerifyingKey : Type} (fromBytes : Bytes → Option VerifyingKey) where
  | key (line : KeyLine fromBytes) (first : Char) (blanks : Blanks)
      (blank : isWhitespace first = true ∧ first ≠ '\n') (behind : Blanks)
  | comment (text : Text) (single : '\n' ∉ text)
  | blank (blanks : Blanks)

namespace FileLine

variable {VerifyingKey : Type} {fromBytes : Bytes → Option VerifyingKey}

def text : FileLine fromBytes → Text
  | key line first blanks _ behind =>
      line.label ++ first :: blanks.text ++ Base64.encode line.key ++ behind.text
  | comment text _ => '#' :: text
  | blank blanks => blanks.text

def authorized : FileLine fromBytes → Option (AuthorizedKey VerifyingKey)
  | key line _ _ _ _ => some ⟨line.label, line.verifyingKey⟩
  | _ => none

end FileLine

/-- The lines one after the other.  A newline at the end is one before a last blank line. -/
def rendered {VerifyingKey : Type} {fromBytes : Bytes → Option VerifyingKey}
    (lines : List (FileLine fromBytes)) : Text :=
  Separated.joined '\n' (lines.map FileLine.text)

section Reading

variable {VerifyingKey : Type} {fromBytes : Bytes → Option VerifyingKey}

def parseLine (fromBytes : Bytes → Option VerifyingKey) (line : Text) :
    Option (AuthorizedKey VerifyingKey) :=
  if line.head? = some '#' then none
  else parseParts fromBytes (Words.words isWhitespace line)

private theorem parseLine_eq (lines : List Text) :
    (lines.filter (fun line => line.head? ≠ some '#' ∧ Words.trim isWhitespace line ≠ [])).filterMap
        (fun line => parseParts fromBytes (Words.words isWhitespace line)) =
      lines.filterMap (parseLine fromBytes) := by
  rw [List.filterMap_filter]
  apply List.filterMap_congr
  intro line member
  unfold parseLine
  by_cases comment : line.head? = some '#'
  · rw [if_pos comment, if_neg (by simp [comment])]
  · by_cases blank : Words.trim isWhitespace line = []
    · rw [if_neg comment, if_neg (by simp [blank]), ← Words.words_trim, blank]
      rfl
    · rw [if_neg comment, if_pos (by simp [comment, blank])]

private theorem words_blank {text : Text}
    (blank : ∀ character ∈ text, isWhitespace character = true) :
    Words.words isWhitespace text = [] := by
  induction text with
  | nil => rfl
  | cons first rest ih =>
      rw [Words.words_cons_blank (blank first (List.mem_cons_self ..))]
      exact ih (fun character member => blank character (List.mem_cons_of_mem _ member))

private theorem words_behind {text : Text}
    (blank : ∀ character ∈ text, isWhitespace character = true)
    (front : Text) : Words.words isWhitespace (front ++ text) = Words.words isWhitespace front := by
  induction text generalizing front with
  | nil => rw [List.append_nil]
  | cons first rest ih =>
      rw [Words.words_append_blank _ (blank first (List.mem_cons_self ..)),
        words_blank (fun character member => blank character (List.mem_cons_of_mem _ member)),
        List.append_nil]

private theorem words_before {text : Text}
    (blank : ∀ character ∈ text, isWhitespace character = true)
    (back : Text) : Words.words isWhitespace (text ++ back) = Words.words isWhitespace back := by
  induction text with
  | nil => rfl
  | cons first rest ih =>
      rw [List.cons_append, Words.words_cons_blank (blank first (List.mem_cons_self ..))]
      exact ih (fun character member => blank character (List.mem_cons_of_mem _ member))

private theorem encode_plain {bytes : Bytes} : ∀ character ∈ Base64.encode bytes,
    isWhitespace character = false := by
  intro character member
  rcases Base64.mem_encode member with digit | rfl
  · obtain ⟨number, six, rfl⟩ := Base64.exists_digit digit
    exact (Decoder.digits_plain number six).2
  · decide

private theorem parseLine_text (line : FileLine fromBytes) :
    parseLine fromBytes line.text = line.authorized := by
  unfold parseLine
  cases line with
  | comment text single => exact if_pos rfl
  | blank blanks =>
      rw [if_neg]
      · exact congrArg (parseParts fromBytes)
          (words_blank (fun character member => (blanks.blank character member).1))
      · intro comment
        have first := List.mem_of_mem_head? comment
        have blank := (blanks.blank '#' first).1
        revert blank
        decide
  | key line first blanks blank behind =>
      have some : Base64.encode line.key ≠ [] := by
        apply Base64.encode_ne_nil
        intro nothing
        have size := line.size
        rw [nothing] at size
        cases size
      have words : Words.words isWhitespace
          (line.label ++ first :: blanks.text ++ Base64.encode line.key ++ behind.text) =
          [line.label, Base64.encode line.key] := by
        rw [words_behind (fun character member => (behind.blank character member).1),
          List.append_assoc, List.cons_append, Words.words_append_blank _ blank.1,
          words_before (fun character member => (blanks.blank character member).1),
          Words.words_plain line.plain line.nonempty, Words.words_plain encode_plain some]
        rfl
      have head : (line.label ++ first :: blanks.text ++ Base64.encode line.key ++
          behind.text).head? = line.label.head? := by
        simp only [List.append_assoc]
        exact List.head?_append_of_ne_nil _ line.nonempty
      change (if (line.label ++ first :: blanks.text ++ Base64.encode line.key ++
        behind.text).head? = Option.some '#' then none else _) = _
      rw [head, if_neg line.uncommented]
      change parseParts fromBytes (Words.words isWhitespace (line.label ++ first :: blanks.text ++
        Base64.encode line.key ++ behind.text)) = _
      rw [words]
      unfold parseParts
      simp only [List.getElem?_cons_zero, List.getElem?_cons_succ, Option.bind_eq_bind,
        Option.bind_some, decodeBase64_encode, line.size, line.accepted, ne_eq, not_true,
        if_false]
      rfl

private theorem text_single (line : FileLine fromBytes) : '\n' ∉ line.text := by
  cases line with
  | comment text single =>
      intro member
      rcases List.mem_cons.mp member with same | inside
      · cases same
      · exact single inside
  | blank blanks => exact fun member => (blanks.blank _ member).2 rfl
  | key line first blanks blank behind =>
      intro member
      change '\n' ∈ line.label ++ first :: blanks.text ++ Base64.encode line.key ++
        behind.text at member
      simp only [List.mem_append, List.mem_cons] at member
      rcases member with ((label | same | between) | key) | after
      · cases line.plain _ label
      · exact blank.2 same.symm
      · exact (blanks.blank _ between).2 rfl
      · cases encode_plain _ key
      · exact (behind.blank _ after).2 rfl

private theorem parseLine_return (line : Text) :
    parseLine fromBytes (line ++ ['\r']) = parseLine fromBytes line := by
  unfold parseLine
  rw [Words.words_concat_blank line (by decide : isWhitespace '\r' = true)]
  cases line with
  | nil => rfl
  | cons first rest => rfl

private theorem parseAuthorizedKeys_rendered (lines : List (FileLine fromBytes)) :
    parseAuthorizedKeys fromBytes (rendered lines) = lines.filterMap FileLine.authorized := by
  unfold parseAuthorizedKeys rendered
  rw [parseLine_eq, Lines.filterMap_lines parseLine_return rfl]
  · rw [List.filterMap_map]
    exact List.filterMap_congr (fun line _ => parseLine_text line)
  · intro text member
    obtain ⟨line, -, rfl⟩ := List.mem_map.mp member
    exact text_single line

end Reading

/-- Base64 is decoded to what was encoded, in a buffer that holds less than a byte after each
character; and a file of keys, comments and blank lines is read as its keys. -/
theorem authorized_keys_read {VerifyingKey : Type} (fromBytes : Bytes → Option VerifyingKey) :
    (∀ bytes, decodeBase64 (Base64.encode bytes) = some bytes ∧
      ∀ front, front <+: Text.asBytes (Base64.encode bytes) →
        ∃ decoder, Decoder.read front Decoder.start = some decoder ∧
          decoder.buffer < 2 ^ decoder.bits ∧ decoder.bits < 8) ∧
    ∀ lines : List (FileLine fromBytes),
      parseAuthorizedKeys fromBytes (rendered lines) = lines.filterMap FileLine.authorized := by
  refine ⟨fun bytes => ⟨decodeBase64_encode bytes, ?_⟩, parseAuthorizedKeys_rendered⟩
  intro front begun
  obtain ⟨decoder, read, fits⟩ := read_prefix_fits begun
  exact ⟨decoder, read, fits.buffer, fits.bits⟩

def sampleKey : KeyLine some where
  label := ['m', 'e']
  key := List.replicate 32 7
  verifyingKey := List.replicate 32 7
  nonempty := List.cons_ne_nil _ _
  plain := List.forall_mem_cons.mpr ⟨by decide, List.forall_mem_singleton.mpr (by decide)⟩
  uncommented := by decide
  size := rfl
  accepted := rfl

def noBlanks : Blanks := ⟨[], fun _ member => by cases member⟩

def sampleFile : List (FileLine some) :=
  [.comment " keys".toList (by decide),
    .key sampleKey ' ' noBlanks ⟨by decide, by decide⟩
      ⟨['\r'], List.forall_mem_singleton.mpr ⟨by decide, by decide⟩⟩,
    .blank noBlanks]

theorem sample_file_is_read :
    parseAuthorizedKeys some
        "# keys\nme BwcHBwcHBwcHBwcHBwcHBwcHBwcHBwcHBwcHBwcHBwc=\r\n".toList =
      [⟨['m', 'e'], List.replicate 32 7⟩] := by
  have text : rendered sampleFile =
      "# keys\nme BwcHBwcHBwcHBwcHBwcHBwcHBwcHBwcHBwcHBwcHBwc=\r\n".toList := by
    decide +kernel
  rw [← text]
  exact (authorized_keys_read some).2 sampleFile

end Auth

end TricPlus
