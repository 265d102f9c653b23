import Mathlib

/-!
Texts joined by a separator that may occur in them, and what the joined text still tells:
the pieces that the separator cuts.
-/

namespace Separated

variable {α : Type} [DecidableEq α] {separator : α}

def joined (separator : α) (parts : List (List α)) : List α :=
  [separator].intercalate parts

def pieces (separator : α) (parts : List (List α)) : List (List α) :=
  parts.flatMap (List.splitOn separator)

theorem pieces_cons (part : List α) (parts : List (List α)) :
    pieces separator (part :: parts) = part.splitOn separator ++ pieces separator parts := rfl

theorem pieces_cons_plain {part : List α} (plain : separator ∉ part) (parts : List (List α)) :
    pieces separator (part :: parts) = part :: pieces separator parts := by
  rw [pieces_cons, List.splitOn_eq_singleton plain]
  rfl

theorem pieces_plain {parts : List (List α)} (plain : ∀ part ∈ parts, separator ∉ part) :
    pieces separator parts = parts := by
  induction parts with
  | nil => rfl
  | cons part parts ih =>
      rw [pieces_cons_plain (plain part (List.mem_cons_self ..)),
        ih (fun other member => plain other (List.mem_cons_of_mem _ member))]

theorem splitOn_joined {parts : List (List α)} (some : parts ≠ []) :
    (joined separator parts).splitOn separator = pieces separator parts := by
  induction parts with
  | nil => exact absurd rfl some
  | cons part parts ih =>
      cases parts with
      | nil =>
          unfold joined
          rw [List.intercalate_singleton, pieces_cons]
          exact (List.append_nil _).symm
      | cons next parts =>
          have rest := ih (List.cons_ne_nil next parts)
          unfold joined at rest ⊢
          rw [List.intercalate_cons_cons, List.append_assoc, List.singleton_append,
            List.splitOn_append_cons_self, rest]
          rfl

theorem joined_eq_iff {left right : List (List α)} (leftSome : left ≠ []) (rightSome : right ≠ []) :
    joined separator left = joined separator right ↔
      pieces separator left = pieces separator right := by
  constructor
  · intro same
    rw [← splitOn_joined leftSome, same, splitOn_joined rightSome]
  · intro same
    have cut : (joined separator left).splitOn separator =
        (joined separator right).splitOn separator := by
      rw [splitOn_joined leftSome, splitOn_joined rightSome, same]
    have again : List.intercalate [separator] ((joined separator left).splitOn separator) =
        joined separator left := List.intercalate_splitOn separator
    rw [← again, cut, List.intercalate_splitOn]

theorem joined_iff_of_length {left right : List (List α)} (same : left.length = right.length) :
    joined separator left = joined separator right ↔
      pieces separator left = pieces separator right := by
  cases left with
  | nil =>
      rw [List.eq_nil_of_length_eq_zero same.symm]
      exact iff_of_true rfl rfl
  | cons first left =>
      cases right with
      | nil => cases same
      | cons second right => exact joined_eq_iff (List.cons_ne_nil _ _) (List.cons_ne_nil _ _)

theorem parts_of_single {parts : List (List α)} {piece : List α}
    (single : pieces separator parts = [piece]) : parts = [piece] := by
  cases parts with
  | nil => cases single
  | cons part rest =>
      rw [pieces_cons] at single
      have some := List.splitOn_ne_nil separator part
      cases cut : part.splitOn separator with
      | nil => exact absurd cut some
      | cons first others =>
          rw [cut] at single
          have ends := List.append_eq_nil_iff.mp (List.cons.inj single).2
          have again : List.intercalate [separator] (part.splitOn separator) = part :=
            List.intercalate_splitOn separator
          have whole : part = first := by
            rw [← again, cut, ends.1, List.intercalate_singleton]
          have none : rest = [] := by
            cases rest with
            | nil => rfl
            | cons next rest =>
                rw [pieces_cons] at ends
                exact absurd (List.append_eq_nil_iff.mp ends.2).1 (List.splitOn_ne_nil _ next)
          rw [whole, none, (List.cons.inj single).1]

theorem length_splitOn (text : List α) :
    (text.splitOn separator).length = text.count separator + 1 := by
  induction text with
  | nil => rfl
  | cons first text ih =>
      rw [List.splitOn_cons_eq_if_modifyHead]
      by_cases cuts : first = separator
      · rw [if_pos (beq_iff_eq.mpr cuts), List.length_cons, ih, cuts, List.count_cons_self]
      · rw [if_neg (fun same => cuts (beq_iff_eq.mp same)), List.length_modifyHead, ih,
          List.count_cons_of_ne cuts]

theorem length_pieces (parts : List (List α)) :
    (pieces separator parts).length =
      (parts.map (fun part => part.count separator + 1)).sum := by
  unfold pieces
  rw [List.length_flatMap]
  apply congrArg List.sum
  exact List.map_congr_left (fun part _ => length_splitOn part)

theorem splitOn_injective {left right : List α}
    (same : left.splitOn separator = right.splitOn separator) : left = right := by
  have joins : List.intercalate [separator] (left.splitOn separator) = left :=
    List.intercalate_splitOn separator
  rw [← joins, same]
  exact List.intercalate_splitOn separator

theorem parts_of_counts {left right : List (List α)}
    (counts : left.map (List.count separator) = right.map (List.count separator))
    (same : pieces separator left = pieces separator right) : left = right := by
  induction left generalizing right with
  | nil =>
      rw [List.map_nil] at counts
      exact (List.map_eq_nil_iff.mp counts.symm).symm
  | cons first left ih =>
      cases right with
      | nil => cases counts
      | cons second right =>
          rw [pieces_cons, pieces_cons] at same
          have long : (first.splitOn separator).length = (second.splitOn separator).length := by
            rw [length_splitOn, length_splitOn, (List.cons.inj counts).1]
          rcases List.append_inj same long with ⟨heads, tails⟩
          rw [splitOn_injective heads, ih (List.cons.inj counts).2 tails]

omit [DecidableEq α] in
theorem joined_replicate (counts : List Nat) :
    joined separator (counts.map (fun count => List.replicate count separator)) =
      List.replicate (counts.sum + (counts.length - 1)) separator := by
  induction counts with
  | nil => rfl
  | cons count counts ih =>
      cases counts with
      | nil =>
          unfold joined
          rw [List.map_cons, List.map_nil, List.intercalate_singleton]
          rfl
      | cons next counts =>
          unfold joined at ih ⊢
          rw [List.map_cons] at ih
          rw [List.map_cons, List.map_cons, List.intercalate_cons_cons, ih, ← List.replicate_one,
            List.replicate_append_replicate, List.replicate_append_replicate]
          congr 1
          simp only [List.sum_cons, List.length_cons]
          omega

theorem splitOn_append_plain {front : List α} (plain : separator ∉ front) (back : List α) :
    (front ++ back).splitOn separator =
      (front ++ (back.splitOn separator).headD []) :: (back.splitOn separator).tail := by
  induction front with
  | nil =>
      cases cut : back.splitOn separator with
      | nil => exact absurd cut (List.splitOn_ne_nil separator back)
      | cons first others =>
          rw [List.nil_append, cut]
          rfl
  | cons first front ih =>
      have other : (first == separator) = false :=
        beq_eq_false_iff_ne.mpr (fun same => plain (same ▸ List.mem_cons_self ..))
      rw [List.cons_append, List.splitOn_cons_eq_if_modifyHead, if_neg (by rw [other]; decide),
        ih (fun member => plain (List.mem_cons_of_mem _ member))]
      rfl

theorem not_mem_piece {text piece : List α} (member : piece ∈ text.splitOn separator) :
    separator ∉ piece := by
  induction text generalizing piece with
  | nil =>
      rw [List.splitOn_nil, List.mem_singleton] at member
      rw [member]
      exact List.not_mem_nil
  | cons first text ih =>
      rw [List.splitOn_cons_eq_if_modifyHead] at member
      by_cases cuts : (first == separator) = true
      · rw [if_pos cuts] at member
        rcases List.mem_cons.mp member with rfl | later
        · exact List.not_mem_nil
        · exact ih later
      · rw [if_neg cuts] at member
        cases cut : text.splitOn separator with
        | nil => exact absurd cut (List.splitOn_ne_nil separator text)
        | cons head others =>
            rw [cut] at member
            rcases List.mem_cons.mp member with rfl | later
            · intro inside
              rcases List.mem_cons.mp inside with same | within
              · exact cuts (beq_iff_eq.mpr same.symm)
              · exact ih (cut ▸ List.mem_cons_self ..) within
            · exact ih (cut ▸ List.mem_cons_of_mem _ later)

theorem mem_of_mem_piece {text piece : List α} (member : piece ∈ text.splitOn separator)
    {character : α} (inside : character ∈ piece) : character ∈ text := by
  induction text generalizing piece with
  | nil =>
      rw [List.splitOn_nil, List.mem_singleton] at member
      rw [member] at inside
      cases inside
  | cons first text ih =>
      rw [List.splitOn_cons_eq_if_modifyHead] at member
      by_cases cuts : (first == separator) = true
      · rw [if_pos cuts] at member
        rcases List.mem_cons.mp member with rfl | later
        · cases inside
        · exact List.mem_cons_of_mem _ (ih later inside)
      · rw [if_neg cuts] at member
        cases cut : text.splitOn separator with
        | nil => exact absurd cut (List.splitOn_ne_nil separator text)
        | cons head others =>
            rw [cut] at member
            rcases List.mem_cons.mp member with rfl | later
            · rcases List.mem_cons.mp inside with rfl | within
              · exact List.mem_cons_self ..
              · exact List.mem_cons_of_mem _ (ih (cut ▸ List.mem_cons_self ..) within)
            · exact List.mem_cons_of_mem _ (ih (cut ▸ List.mem_cons_of_mem _ later) inside)

theorem exists_piece {text : List α} {character : α} (member : character ∈ text)
    (other : character ≠ separator) : ∃ piece ∈ text.splitOn separator, character ∈ piece := by
  induction text with
  | nil => cases member
  | cons first text ih =>
      rw [List.splitOn_cons_eq_if_modifyHead]
      by_cases cuts : (first == separator) = true
      · rw [if_pos cuts]
        rcases List.mem_cons.mp member with rfl | later
        · exact absurd (beq_iff_eq.mp cuts) other
        · obtain ⟨piece, there, inside⟩ := ih later
          exact ⟨piece, List.mem_cons_of_mem _ there, inside⟩
      · rw [if_neg cuts]
        cases cut : text.splitOn separator with
        | nil => exact absurd cut (List.splitOn_ne_nil separator text)
        | cons head others =>
            rcases List.mem_cons.mp member with rfl | later
            · exact ⟨_, List.mem_cons_self .., List.mem_cons_self ..⟩
            · obtain ⟨piece, there, inside⟩ := ih later
              rw [cut] at there
              rcases List.mem_cons.mp there with rfl | behind
              · exact ⟨_, List.mem_cons_self .., List.mem_cons_of_mem _ inside⟩
              · exact ⟨piece, List.mem_cons_of_mem _ behind, inside⟩

omit [DecidableEq α] in
theorem joined_cons {part : List α} {parts : List (List α)} (some : parts ≠ []) :
    joined separator (part :: parts) = part ++ separator :: joined separator parts := by
  unfold joined
  rw [List.intercalate_cons_of_ne_nil some, List.append_assoc]
  rfl

end Separated
