import Mathlib

/-!
Answers to a list of questions, each of which may have none, and the sizes of the answers.
-/

namespace Answers

variable {α β : Type} {answer : α → Option β} {inputs : List α} {answers : List β}

theorem mapM_eq_some_iff : inputs.mapM answer = some answers ↔
    inputs.map answer = answers.map some := by
  induction inputs generalizing answers with
  | nil =>
      rw [List.mapM_nil, List.map_nil]
      cases answers with
      | nil => exact iff_of_true rfl rfl
      | cons first answers => exact iff_of_false (fun same => by cases same) (fun same => by cases same)
  | cons input inputs ih =>
      rw [List.mapM_cons, List.map_cons]
      cases first : answer input with
      | none =>
          apply iff_of_false
          · intro same
            cases same
          · intro same
            cases answers with
            | nil => cases same
            | cons other answers => cases (List.cons.inj same).1
      | some output =>
          cases rest : inputs.mapM answer with
          | none =>
              apply iff_of_false
              · intro same
                cases same
              · intro same
                cases answers with
                | nil => cases same
                | cons other answers =>
                    rw [ih.mpr (List.cons.inj same).2] at rest
                    cases rest
          | some outputs =>
              rw [ih.mp rest]
              change some (output :: outputs) = some answers ↔
                (output :: outputs).map some = answers.map some
              rw [Option.some_inj]
              exact ((Option.some_injective β).list_map.eq_iff).symm

theorem mapM_length (all : inputs.mapM answer = some answers) : answers.length = inputs.length := by
  have same := congrArg List.length (mapM_eq_some_iff.mp all)
  rw [List.length_map, List.length_map] at same
  exact same.symm

theorem sum_filterMap {size : β → Nat} {expected : α → Nat}
    (sized : ∀ input ∈ inputs, ∃ output, answer input = some output ∧
      size output = expected input) :
    ((inputs.filterMap answer).map size).sum = (inputs.map expected).sum := by
  induction inputs with
  | nil => rfl
  | cons input inputs ih =>
      obtain ⟨output, found, same⟩ := sized input (List.mem_cons_self ..)
      rw [List.filterMap_cons_some found, List.map_cons, List.map_cons, List.sum_cons,
        List.sum_cons, same, ih (fun other member => sized other (List.mem_cons_of_mem _ member))]

theorem eq_of_sum_eq {lower upper : α → Nat} (ordered : ∀ input ∈ inputs, lower input ≤ upper input)
    (same : (inputs.map lower).sum = (inputs.map upper).sum) :
    ∀ input ∈ inputs, lower input = upper input := by
  induction inputs with
  | nil => exact fun input member => by cases member
  | cons first inputs ih =>
      have rest := fun input member => ordered input (List.mem_cons_of_mem first member)
      have below := List.sum_le_sum rest
      have here := ordered first (List.mem_cons_self ..)
      rw [List.map_cons, List.map_cons, List.sum_cons, List.sum_cons] at same
      intro input member
      rcases List.mem_cons.mp member with rfl | behind
      · omega
      · exact ih rest (by omega) input behind

theorem flatMap_eq_map_iff {lists : α → List β} {single : α → β}
    (some : ∀ input ∈ inputs, lists input ≠ []) :
    inputs.flatMap lists = inputs.map single ↔ ∀ input ∈ inputs, lists input = [single input] := by
  induction inputs with
  | nil => exact iff_of_true rfl (fun input member => by cases member)
  | cons first inputs ih =>
      have rest := fun input member => some input (List.mem_cons_of_mem first member)
      have long : inputs.length ≤ (inputs.flatMap lists).length := by
        rw [List.length_flatMap]
        conv => lhs; rw [← List.length_map fun input => (lists input).length]
        apply List.length_le_sum_of_one_le
        intro size member
        obtain ⟨input, there, rfl⟩ := List.mem_map.mp member
        exact List.length_pos_iff.mpr (rest input there)
      rw [List.flatMap_cons, List.map_cons, List.forall_mem_cons]
      constructor
      · intro same
        obtain ⟨head, others, here⟩ :=
          List.exists_cons_of_ne_nil (some first (List.mem_cons_self ..))
        rw [here, List.cons_append] at same
        obtain ⟨heads, tails⟩ := List.cons.inj same
        have lengths := congrArg List.length tails
        rw [List.length_append, List.length_map] at lengths
        have none : others = [] := List.eq_nil_of_length_eq_zero (by omega)
        rw [none, List.nil_append] at tails
        exact ⟨by rw [here, heads, none], (ih rest).mp tails⟩
      · rintro ⟨here, behind⟩
        rw [here, (ih rest).mpr behind]
        rfl

theorem length_filterMap_eq {other : α → Option β}
    (same : ∀ input ∈ inputs, (answer input).isSome = (other input).isSome) :
    (inputs.filterMap answer).length = (inputs.filterMap other).length := by
  rw [List.length_filterMap_eq_countP, List.length_filterMap_eq_countP]
  exact List.countP_congr (fun input member => by rw [same input member])

/-- Where the same questions are answered, the lists of answers are the same exactly if all
answers are. -/
theorem filterMap_eq_iff {other : α → Option β}
    (same : ∀ input ∈ inputs, (answer input).isSome = (other input).isSome) :
    inputs.filterMap answer = inputs.filterMap other ↔
      ∀ input ∈ inputs, answer input = other input := by
  induction inputs with
  | nil => exact iff_of_true rfl (fun input member => by cases member)
  | cons first inputs ih =>
      obtain ⟨here, rest⟩ := List.forall_mem_cons.mp same
      rw [List.forall_mem_cons, ← ih rest]
      cases found : answer first with
      | none =>
          rw [found] at here
          cases there : other first with
          | none =>
              rw [List.filterMap_cons_none found, List.filterMap_cons_none there]
              exact (and_iff_right rfl).symm
          | some output =>
              rw [there] at here
              cases here
      | some output =>
          rw [found] at here
          cases there : other first with
          | none =>
              rw [there] at here
              cases here
          | some second =>
              rw [List.filterMap_cons_some found, List.filterMap_cons_some there, List.cons.injEq,
                Option.some_inj]

theorem forall₂_iff {relation first second : α → α → Prop} {others : List α}
    (same : ∀ left right, relation left right → (first left right ↔ second left right))
    (related : List.Forall₂ relation inputs others) :
    List.Forall₂ first inputs others ↔ List.Forall₂ second inputs others := by
  induction related with
  | nil => exact iff_of_true .nil .nil
  | cons here _ ih => rw [List.forall₂_cons, List.forall₂_cons, same _ _ here, ih]

theorem flatMap_eq_iff_forall₂ {lists : α → List β} {relation : α → α → Prop} {others : List α}
    (long : ∀ first second, relation first second → (lists first).length = (lists second).length)
    (related : List.Forall₂ relation inputs others) :
    inputs.flatMap lists = others.flatMap lists ↔
      List.Forall₂ (fun first second => lists first = lists second) inputs others := by
  induction related with
  | nil => exact iff_of_true rfl .nil
  | cons here _ ih =>
      rw [List.flatMap_cons, List.flatMap_cons, List.forall₂_cons, ← ih]
      constructor
      · exact fun same => List.append_inj same (long _ _ here)
      · rintro ⟨first, rest⟩
        rw [first, rest]

end Answers
