import Mathlib

/-!
Patterns with wildcards, and when one is no more than a prefix.

A pattern is read symbol by symbol into tokens; behind an escape the next symbol stands for
itself.  A pattern that ends in the wildcard for any string says the same as the test for
the prefix before it exactly if no other wildcard and no escape is read in it.
-/

namespace LikePattern

variable {α : Type} [DecidableEq α]

/-- The wildcards, and which texts are one character. -/
structure Alphabet (α : Type) where
  percent : α
  underscore : α
  letter : α
  Character : List α → Prop
  width : Nat
  distinct : percent ≠ underscore
  other : letter ≠ underscore
  single : Character [letter]
  nonempty : ∀ text, Character text → text ≠ []
  short : ∀ text, Character text → text.length ≤ width

inductive Token (α : Type) where
  | anyString
  | anyCharacter
  | literal (symbol : α)
  deriving DecidableEq

/-- What a sequence of tokens stands for. -/
def Matches (alphabet : Alphabet α) : List (Token α) → List α → Prop
  | [], text => text = []
  | .anyString :: tokens, text =>
      ∃ front back, text = front ++ back ∧ Matches alphabet tokens back
  | .anyCharacter :: tokens, text =>
      ∃ front back, text = front ++ back ∧ alphabet.Character front ∧
        Matches alphabet tokens back
  | .literal symbol :: tokens, text =>
      ∃ back, text = symbol :: back ∧ Matches alphabet tokens back

def Alphabet.token (alphabet : Alphabet α) (symbol : α) : Token α :=
  if symbol = alphabet.percent then .anyString
  else if symbol = alphabet.underscore then .anyCharacter
  else .literal symbol

/-- The tokens of a pattern.  `some count` stands behind the first symbol of an escape, of
which so many are to come; an empty escape escapes nothing. -/
def read (alphabet : Alphabet α) (escape : List α) : Option Nat → List α → List (Token α)
  | _, [] => []
  | some (count + 1), _ :: rest => read alphabet escape (some count) rest
  | some 0, symbol :: rest => .literal symbol :: read alphabet escape none rest
  | none, symbol :: rest =>
      if escape ≠ [] ∧ escape.isPrefixOf (symbol :: rest) then
        read alphabet escape (some (escape.length - 1)) rest
      else alphabet.token symbol :: read alphabet escape none rest

/-- A stem without wildcards and escapes, and the wildcard behind it. -/
def Plain (alphabet : Alphabet α) (escape stem : List α) : Prop :=
  read alphabet escape none (stem ++ [alphabet.percent]) = stem.map .literal ++ [.anyString]

instance (alphabet : Alphabet α) (escape stem : List α) : Decidable (Plain alphabet escape stem) :=
  inferInstanceAs (Decidable (_ = _))

variable {alphabet : Alphabet α} {escape : List α}

def sample (alphabet : Alphabet α) (tokens : List (Token α)) : List α :=
  tokens.flatMap (fun
    | .anyString => []
    | .anyCharacter => [alphabet.letter]
    | .literal symbol => [symbol])

omit [DecidableEq α] in
private theorem matches_sample (tokens : List (Token α)) :
    Matches alphabet tokens (sample alphabet tokens) := by
  induction tokens with
  | nil => rfl
  | cons token tokens ih =>
      cases token with
      | anyString => exact ⟨[], _, rfl, ih⟩
      | anyCharacter => exact ⟨[alphabet.letter], _, rfl, alphabet.single, ih⟩
      | literal symbol => exact ⟨_, rfl, ih⟩

private theorem length_sample (tokens : List (Token α)) :
    (sample alphabet tokens).length + tokens.count .anyString = tokens.length := by
  induction tokens with
  | nil => rfl
  | cons token tokens ih =>
      unfold sample at ih ⊢
      rw [List.flatMap_cons, List.length_append, List.length_cons, List.count_cons]
      cases token with
      | anyString =>
          simp only [List.length_nil, BEq.rfl, if_true]
          omega
      | anyCharacter =>
          have different : (Token.anyCharacter == (Token.anyString : Token α)) = false :=
            beq_eq_false_iff_ne.mpr (fun same => by cases same)
          simp only [List.length_singleton, different, Bool.false_eq_true, if_false]
          omega
      | literal symbol =>
          have different : (Token.literal symbol == (Token.anyString : Token α)) = false :=
            beq_eq_false_iff_ne.mpr (fun same => by cases same)
          simp only [List.length_singleton, different, Bool.false_eq_true, if_false]
          omega

omit [DecidableEq α] in
private theorem length_of_matches {tokens : List (Token α)} {text : List α}
    (fits : Matches alphabet tokens text) (bounded : Token.anyString ∉ tokens) :
    text.length ≤ tokens.length * (alphabet.width + 1) := by
  induction tokens generalizing text with
  | nil =>
      cases fits
      exact Nat.zero_le _
  | cons token tokens ih =>
      rw [List.length_cons, Nat.succ_mul]
      have rest : Token.anyString ∉ tokens :=
        fun member => bounded (List.mem_cons_of_mem _ member)
      cases token with
      | anyString => exact absurd (List.mem_cons_self ..) bounded
      | anyCharacter =>
          rcases fits with ⟨front, back, rfl, character, fits⟩
          have shortFront := alphabet.short front character
          have shortBack := ih fits rest
          rw [List.length_append]
          omega
      | literal symbol =>
          rcases fits with ⟨back, rfl, fits⟩
          have shortBack := ih fits rest
          rw [List.length_cons]
          omega

omit [DecidableEq α] in
private theorem matches_of_matches_nil {tokens : List (Token α)} (fits : Matches alphabet tokens [])
    (nonempty : tokens ≠ []) (text : List α) : Matches alphabet tokens text := by
  cases tokens with
  | nil => exact absurd rfl nonempty
  | cons token tokens =>
      cases token with
      | anyString =>
          rcases fits with ⟨front, back, same, fits⟩
          rw [(List.append_eq_nil_iff.mp same.symm).2] at fits
          exact ⟨text, [], (List.append_nil text).symm, fits⟩
      | anyCharacter =>
          rcases fits with ⟨front, back, same, character, -⟩
          exact absurd (List.append_eq_nil_iff.mp same.symm).1 (alphabet.nonempty front character)
      | literal symbol =>
          rcases fits with ⟨back, same, -⟩
          cases same

private theorem read_symbol (symbol : α) (rest : List α) :
    read alphabet escape none (symbol :: rest) =
      if escape ≠ [] ∧ escape.isPrefixOf (symbol :: rest) then
        read alphabet escape (some (escape.length - 1)) rest
      else alphabet.token symbol :: read alphabet escape none rest := rfl

private theorem read_nil (state : Option Nat) : read alphabet escape state [] = [] := by
  cases state with
  | none => rfl
  | some count => cases count <;> rfl

private theorem token_percent (alphabet : Alphabet α) :
    alphabet.token alphabet.percent = .anyString :=
  if_pos rfl

private theorem length_read (state : Option Nat) (pattern : List α) :
    (read alphabet escape state pattern).length ≤ pattern.length := by
  induction pattern generalizing state with
  | nil =>
      rw [read_nil]
      exact Nat.le_refl 0
  | cons symbol rest ih =>
      rw [List.length_cons]
      cases state with
      | none =>
          rw [read_symbol]
          split
          · exact Nat.le_succ_of_le (ih _)
          · exact Nat.succ_le_succ (ih _)
      | some count =>
          cases count with
          | zero => exact Nat.succ_le_succ (ih none)
          | succ count => exact Nat.le_succ_of_le (ih (some count))

private theorem length_sample_read (stem : List α) :
    (sample alphabet (read alphabet escape none (stem ++ [alphabet.percent]))).length ≤
      stem.length := by
  induction stem with
  | nil =>
      rw [List.nil_append, read_symbol, read_nil, read_nil, token_percent]
      split
      · exact Nat.le_refl 0
      · exact Nat.le_refl 0
  | cons symbol stem ih =>
      rw [List.cons_append, List.length_cons, read_symbol]
      split
      · have sampled := @length_sample α _ alphabet
          (read alphabet escape (some (escape.length - 1)) (stem ++ [alphabet.percent]))
        have few := @length_read α _ alphabet escape (some (escape.length - 1))
          (stem ++ [alphabet.percent])
        rw [List.length_append, List.length_singleton] at few
        omega
      · unfold sample at ih ⊢
        rw [List.flatMap_cons, List.length_append]
        have one : ∀ token : Token α, (match token with
            | .anyString => []
            | .anyCharacter => [alphabet.letter]
            | .literal symbol => [symbol] : List α).length ≤ 1 := by
          intro token
          cases token with
          | anyString => exact Nat.zero_le 1
          | anyCharacter => exact Nat.le_refl 1
          | literal symbol => exact Nat.le_refl 1
        have first := one (alphabet.token symbol)
        omega

private theorem plain_of_sample {stem : List α}
    (starts : stem <+: sample alphabet (read alphabet escape none (stem ++ [alphabet.percent])))
    (endless : Token.anyString ∈ read alphabet escape none (stem ++ [alphabet.percent])) :
    Plain alphabet escape stem := by
  unfold Plain
  induction stem with
  | nil =>
      rw [List.nil_append, read_symbol, read_nil, read_nil, token_percent] at endless ⊢
      split at endless
      · cases endless
      · rename_i taken
        rw [if_neg taken]
        rfl
  | cons symbol stem ih =>
      rw [List.cons_append, read_symbol] at starts endless ⊢
      split at starts
      · rename_i taken
        rw [if_pos taken] at endless
        have sampled := @length_sample α _ alphabet
          (read alphabet escape (some (escape.length - 1)) (stem ++ [alphabet.percent]))
        have few := @length_read α _ alphabet escape (some (escape.length - 1))
          (stem ++ [alphabet.percent])
        have some := List.count_pos_iff.mpr endless
        have long := starts.length_le
        rw [List.length_append, List.length_singleton] at few
        rw [List.length_cons] at long
        omega
      · rename_i taken
        rw [if_neg taken] at endless ⊢
        have few := @length_sample_read α _ alphabet escape stem
        unfold Alphabet.token at starts endless ⊢
        by_cases any : symbol = alphabet.percent
        · rw [if_pos any] at starts
          have long := starts.length_le
          change _ ≤ (sample alphabet
            (read alphabet escape none (stem ++ [alphabet.percent]))).length at long
          rw [List.length_cons] at long
          omega
        · rw [if_neg any] at starts endless ⊢
          by_cases one : symbol = alphabet.underscore
          · rw [if_pos one] at starts
            have same := (List.cons_prefix_cons.mp starts).1
            exact absurd (same.symm.trans one) alphabet.other
          · rw [if_neg one] at starts endless ⊢
            have rest := (List.cons_prefix_cons.mp starts).2
            rcases List.mem_cons.mp endless with impossible | endless
            · cases impossible
            · rw [ih rest endless]
              rfl

def Satisfies (alphabet : Alphabet α) (negated : Bool) (tokens : List (Token α))
    (text : List α) : Prop :=
  if negated = true then ¬ Matches alphabet tokens text else Matches alphabet tokens text

omit [DecidableEq α] in
private theorem matches_literals {stem text : List α} :
    Matches alphabet (stem.map .literal ++ [.anyString]) text ↔ stem <+: text := by
  induction stem generalizing text with
  | nil =>
      constructor
      · intro _
        exact List.nil_prefix
      · intro _
        exact ⟨text, [], (List.append_nil text).symm, rfl⟩
  | cons symbol stem ih =>
      constructor
      · intro fits
        rcases fits with ⟨back, rfl, fits⟩
        exact List.cons_prefix_cons.mpr ⟨rfl, ih.mp fits⟩
      · intro starts
        rcases starts with ⟨rest, rfl⟩
        exact ⟨stem ++ rest, rfl, ih.mpr (List.prefix_append stem rest)⟩

theorem satisfies_plain {stem : List α} (plain : Plain alphabet escape stem) (text : List α) :
    Satisfies alphabet false (read alphabet escape none (stem ++ [alphabet.percent])) text ↔
      stem <+: text := by
  unfold Satisfies
  rw [if_neg Bool.false_ne_true, plain]
  exact matches_literals

omit [DecidableEq α] in
private theorem negated_differs (tokens : List (Token α)) (stem : List α) :
    ∃ text, ¬ (Satisfies alphabet true tokens text ↔ stem <+: text) := by
  by_contra agree
  push Not at agree
  unfold Satisfies at agree
  simp only [if_true] at agree
  cases stem with
  | nil => exact (agree (sample alphabet tokens)).mpr List.nil_prefix (matches_sample tokens)
  | cons symbol stem =>
      have others : ∀ text : List α, ¬ symbol :: stem <+: text → Matches alphabet tokens text :=
        fun text away => not_not.mp (fun fails => away ((agree text).mp fails))
      have atNil := others [] (fun starts => by cases List.prefix_nil.mp starts)
      by_cases nothing : tokens = []
      · subst nothing
        rcases ne_or_eq symbol alphabet.percent with away | same
        · have fits := others [alphabet.percent]
            (fun starts => away (List.cons_prefix_cons.mp starts).1)
          cases fits
        · have fits := others [alphabet.underscore]
            (fun starts => alphabet.distinct (same.symm.trans (List.cons_prefix_cons.mp starts).1))
          cases fits
      · exact (agree (symbol :: stem)).mpr List.prefix_rfl
          (matches_of_matches_nil atNil nothing (symbol :: stem))

/-- A pattern that ends in the wildcard for any string says the same as the test for what
stands before it, for every text, exactly if it is plain and not negated. -/
theorem prefix_iff (negated : Bool) (stem : List α) :
    (∀ text, Satisfies alphabet negated
        (read alphabet escape none (stem ++ [alphabet.percent])) text ↔ stem <+: text) ↔
      negated = false ∧ Plain alphabet escape stem := by
  constructor
  · intro agree
    cases negated with
    | true =>
        rcases negated_differs (read alphabet escape none (stem ++ [alphabet.percent])) stem with
          ⟨text, differs⟩
        exact absurd (agree text) differs
    | false =>
        refine ⟨rfl, ?_⟩
        unfold Satisfies at agree
        simp only [Bool.false_eq_true, if_false] at agree
        apply plain_of_sample ((agree _).mp (matches_sample _))
        by_contra bounded
        have fits := (agree (stem ++ List.replicate ((read alphabet escape none
          (stem ++ [alphabet.percent])).length * (alphabet.width + 1) + 1) alphabet.letter)).mpr
            (List.prefix_append _ _)
        have short := length_of_matches fits bounded
        rw [List.length_append, List.length_replicate] at short
        omega
  · intro plain
    rcases plain with ⟨rfl, plain⟩
    exact satisfies_plain plain

end LikePattern
