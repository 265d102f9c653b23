import TricPlus.Lib.Separated

/-!
The lines of a text, which a newline ends, or a carriage return and a newline.  What stands
behind the last newline is a line too, if there is anything.
-/

namespace Lines

variable {α : Type} [DecidableEq α] {newline carriageReturn : α}

def stripReturn (carriageReturn : α) (line : List α) : List α :=
  if line.getLast? = some carriageReturn then line.dropLast else line

/-- `str::lines` -/
def lines (newline carriageReturn : α) (text : List α) : List (List α) :=
  let cut := text.splitOn newline
  cut.dropLast.map (stripReturn carriageReturn) ++
    cut.getLast?.toList.filter (fun line => line ≠ [])

theorem stripReturn_cases (carriageReturn : α) (line : List α) :
    stripReturn carriageReturn line = line ∨
      line = stripReturn carriageReturn line ++ [carriageReturn] := by
  unfold stripReturn
  split
  · next ends =>
      obtain ⟨front, rfl⟩ := List.getLast?_eq_some_iff.mp ends
      rw [List.dropLast_concat]
      exact Or.inr rfl
  · exact Or.inl rfl

theorem mem_of_mem_stripReturn {line : List α} {character : α}
    (member : character ∈ stripReturn carriageReturn line) : character ∈ line := by
  unfold stripReturn at member
  split at member
  · exact List.mem_of_mem_dropLast member
  · exact member

theorem stripReturn_append (carriageReturn : α) (front : List α) {back : List α}
    (some : back ≠ []) : stripReturn carriageReturn (front ++ back) =
      front ++ stripReturn carriageReturn back := by
  unfold stripReturn
  rw [List.getLast?_append_of_ne_nil _ some, List.dropLast_append_of_ne_nil some]
  split <;> rfl

theorem stripReturn_cons {first : α} (other : first ≠ carriageReturn) (rest : List α) :
    ∃ others, stripReturn carriageReturn (first :: rest) = first :: others ∧
      ∀ character ∈ others, character ∈ rest := by
  cases rest with
  | nil =>
      refine ⟨[], if_neg (fun ends => other (Option.some_inj.mp ends)), ?_⟩
      exact fun character member => member
  | cons second rest =>
      refine ⟨_, stripReturn_append carriageReturn [first] (List.cons_ne_nil second rest), ?_⟩
      exact fun character member => mem_of_mem_stripReturn member

theorem lines_append (newline carriageReturn : α) (front back : List α) :
    lines newline carriageReturn (front ++ newline :: back) =
      (front.splitOn newline).map (stripReturn carriageReturn) ++
        lines newline carriageReturn back := by
  have some := List.splitOn_ne_nil newline back
  unfold lines
  simp only
  rw [List.splitOn_append_cons_self, List.dropLast_append_of_ne_nil some, List.map_append,
    List.append_assoc, List.getLast?_append_of_ne_nil _ some]

/-- A reader that does not care for a carriage return at the end, and finds nothing on an empty
line, reads a text line by line. -/
theorem filterMap_lines {β : Type} {read : List α → Option β}
    (returns : ∀ line, read (line ++ [carriageReturn]) = read line) (empty : read [] = none)
    {texts : List (List α)} (single : ∀ text ∈ texts, newline ∉ text) :
    (lines newline carriageReturn (Separated.joined newline texts)).filterMap read =
      texts.filterMap read := by
  have stripped : ∀ line, read (stripReturn carriageReturn line) = read line := by
    intro line
    rcases stripReturn_cases carriageReturn line with same | ends
    · rw [same]
    · conv => rhs; rw [ends]
      exact (returns _).symm
  have whole : ∀ cut : List (List α),
      (cut.dropLast.map (stripReturn carriageReturn) ++
        cut.getLast?.toList.filter (fun line => line ≠ [])).filterMap read =
        cut.filterMap read := by
    intro cut
    rw [List.filterMap_append, List.filterMap_map]
    rcases List.eq_nil_or_concat' cut with rfl | ⟨front, last, rfl⟩
    · rfl
    · have same : (read ∘ stripReturn carriageReturn) = read := funext stripped
      rw [same, List.dropLast_concat, List.getLast?_concat, List.filterMap_append]
      congr 1
      by_cases blank : last = []
      · subst blank
        change [] = List.filterMap read [[]]
        rw [List.filterMap_cons_none empty]
        rfl
      · rw [Option.toList_some, List.filter_cons_of_pos (by rw [decide_eq_true_eq]; exact blank)]
        rfl
  unfold lines
  simp only
  rw [whole]
  cases texts with
  | nil =>
      change List.filterMap read [[]] = []
      rw [List.filterMap_cons_none empty]
      rfl
  | cons text texts =>
      rw [Separated.splitOn_joined (List.cons_ne_nil text texts), Separated.pieces_plain single]

end Lines
