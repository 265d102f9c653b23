import TricPlus.Lib.Separated

/-!
The words of a text: what its blanks separate, without empty pieces.  A text is a list of
characters of any kind, with a test that tells the blanks.
-/

namespace Words

variable {α : Type} {blank : α → Bool}

def words [DecidableEq α] (blank : α → Bool) (text : List α) : List (List α) :=
  (text.splitOnP blank).filter (fun word => word ≠ [])

def trim (blank : α → Bool) (text : List α) : List α :=
  (text.dropWhile blank).rdropWhile blank

section Splitting

variable [DecidableEq α]

@[simp] theorem words_nil : words blank ([] : List α) = [] := rfl

theorem words_cons_blank {first : α} (isBlank : blank first = true) (rest : List α) :
    words blank (first :: rest) = words blank rest := by
  unfold words
  rw [List.splitOnP_cons_eq_if_modifyHead, if_pos isBlank, List.filter_cons_of_neg (by simp)]

theorem words_append_blank (front : List α) {separator : α} (isBlank : blank separator = true)
    (back : List α) :
    words blank (front ++ separator :: back) = words blank front ++ words blank back := by
  unfold words
  rw [List.splitOnP_append_cons front back isBlank, List.filter_append]

theorem words_concat_blank (front : List α) {last : α} (isBlank : blank last = true) :
    words blank (front ++ [last]) = words blank front := by
  rw [words_append_blank front isBlank, words_nil, List.append_nil]

theorem words_plain {text : List α} (plain : ∀ character ∈ text, blank character = false)
    (some : text ≠ []) : words blank text = [text] := by
  unfold words
  rw [List.splitOnP_eq_singleton plain, List.filter_cons_of_pos (by simpa using some)]
  rfl

private theorem words_dropWhile (text : List α) :
    words blank (text.dropWhile blank) = words blank text := by
  induction text with
  | nil => rfl
  | cons first rest ih =>
      by_cases isBlank : blank first = true
      · rw [List.dropWhile_cons_of_pos isBlank, words_cons_blank isBlank]
        exact ih
      · rw [List.dropWhile_cons_of_neg isBlank]

private theorem words_rdropWhile (text : List α) :
    words blank (text.rdropWhile blank) = words blank text := by
  induction text using List.reverseRecOn with
  | nil => rfl
  | append_singleton front last ih =>
      by_cases isBlank : blank last = true
      · rw [List.rdropWhile_concat_pos _ _ _ isBlank, words_concat_blank front isBlank]
        exact ih
      · rw [List.rdropWhile_concat_neg _ _ _ isBlank]

theorem words_trim (text : List α) : words blank (trim blank text) = words blank text := by
  unfold trim
  rw [words_rdropWhile, words_dropWhile]

theorem words_ne_nil {first : α} (plain : blank first = false) (rest : List α) :
    words blank (first :: rest) ≠ [] := by
  unfold words
  rw [List.splitOnP_cons_eq_if_modifyHead, if_neg (by simp [plain])]
  cases split : rest.splitOnP blank with
  | nil => exact absurd split (List.splitOnP_ne_nil blank rest)
  | cons word others => simp

theorem mem_of_mem_words {text word : List α} (member : word ∈ words blank text)
    {character : α} (inside : character ∈ word) : character ∈ text := by
  have piece := (List.mem_filter.mp member).1
  clear member
  induction text generalizing word with
  | nil =>
      rw [List.splitOnP_nil, List.mem_singleton] at piece
      rw [piece] at inside
      cases inside
  | cons first rest ih =>
      rw [List.splitOnP_cons_eq_if_modifyHead] at piece
      by_cases isBlank : blank first = true
      · rw [if_pos isBlank] at piece
        rcases List.mem_cons.mp piece with rfl | later
        · cases inside
        · exact List.mem_cons_of_mem _ (ih inside later)
      · rw [if_neg isBlank] at piece
        cases split : rest.splitOnP blank with
        | nil => exact absurd split (List.splitOnP_ne_nil blank rest)
        | cons head others =>
            rw [split] at piece ih
            rcases List.mem_cons.mp piece with rfl | later
            · rcases List.mem_cons.mp inside with rfl | within
              · exact List.mem_cons_self ..
              · exact List.mem_cons_of_mem _ (ih within (List.mem_cons_self ..))
            · exact List.mem_cons_of_mem _ (ih inside (List.mem_cons_of_mem _ later))

end Splitting

section Joining

variable {β : Type} [DecidableEq β] {blank : List β → Bool}

omit [DecidableEq β] in
theorem length_joined (separator : β) (parts : List (List β)) :
    (Separated.joined separator parts).length =
      (parts.map List.length).sum + (parts.length - 1) := by
  induction parts with
  | nil => rfl
  | cons part parts ih =>
      cases parts with
      | nil =>
          unfold Separated.joined
          rw [List.intercalate_singleton]
          rfl
      | cons next parts =>
          unfold Separated.joined at ih ⊢
          rw [List.intercalate_cons_cons, List.length_append, List.length_append, ih,
            List.map_cons (l := next :: parts), List.sum_cons]
          simp only [List.length_cons, List.length_nil]
          omega

omit [DecidableEq β] in
private theorem splitOnP_length_le {text : List (List β)}
    (solid : ∀ character ∈ text, character ≠ []) :
    (((text.splitOnP blank).map List.flatten).map List.length).sum +
      ((text.splitOnP blank).length - 1) ≤ text.flatten.length := by
  induction text with
  | nil => exact Nat.le_refl 0
  | cons first rest ih =>
      rw [List.forall_mem_cons] at solid
      have shorter := ih solid.2
      have one := List.length_pos_of_ne_nil solid.1
      rw [List.splitOnP_cons_eq_if_modifyHead, List.flatten_cons, List.length_append]
      cases split : rest.splitOnP blank with
      | nil => exact absurd split (List.splitOnP_ne_nil blank rest)
      | cons word others =>
          rw [split] at shorter
          simp only [List.map_cons, List.sum_cons, List.length_cons] at shorter
          by_cases isBlank : blank first = true
          · rw [if_pos isBlank]
            simp only [List.map_cons, List.sum_cons, List.length_cons, List.flatten_nil,
              List.length_nil]
            omega
          · rw [if_neg isBlank]
            simp only [List.modifyHead_cons, List.map_cons, List.sum_cons, List.length_cons,
              List.flatten_cons, List.length_append]
            omega

theorem joined_words_length_le (separator : β) {text : List (List β)}
    (solid : ∀ character ∈ text, character ≠ []) :
    (Separated.joined separator ((words blank text).map List.flatten)).length ≤
      text.flatten.length := by
  have pieces := @splitOnP_length_le β blank text solid
  have fewer : (words blank text).Sublist (text.splitOnP blank) := List.filter_sublist
  have sums := ((fewer.map List.flatten).map List.length).sum_le_sum
    (fun size _ => Nat.zero_le size)
  have count := fewer.length_le
  rw [length_joined, List.length_map]
  omega

end Joining

end Words
