import Mathlib

/-!
Rows whose values are named by a list, and the same rows in the order of the columns.
-/

namespace Reordering

variable {Name Value Text : Type} {names columns : List Name} {values ordered : List Value}

/-- The two rows give the same values to the same names. -/
structure Reordered (names columns : List Name) (values ordered : List Value) : Prop where
  listed : values.length = names.length
  wide : ordered.length = columns.length
  same : (names.zip values).Perm (columns.zip ordered)

/-- The row in the order of the columns; one without a value for each name is left as it is. -/
def InOrder (names columns : List Name) (values ordered : List Value) : Prop :=
  Reordered names columns values ordered ∨ (values.length ≠ names.length ∧ ordered = values)

/-- What stands at the place of a column has the text of what the list gives to that column. -/
def PlacedAsListed (text : Value → Text) (names columns : List Name) (values : List Value) :
    Prop :=
  ∀ (listed placed : Nat) (name : Name), names[listed]? = some name → columns[placed]? = some name →
    values[listed]?.map text = values[placed]?.map text

theorem length_inOrder (perm : names.Perm columns) (inOrder : InOrder names columns values ordered) :
    values.length = ordered.length := by
  rcases inOrder with reordered | ⟨-, rfl⟩
  · rw [reordered.listed, reordered.wide, perm.length_eq]
  · rfl

theorem zip_map (pairs : List (Name × Value)) :
    (pairs.map Prod.fst).zip (pairs.map Prod.snd) = pairs := by
  rw [List.zip_map', List.map_id'']
  exact fun pair => rfl

private theorem exists_pairs {pairs : List (Name × Value)}
    (perm : columns.Perm (pairs.map Prod.fst)) :
    ∃ sorted : List (Name × Value), sorted.Perm pairs ∧ sorted.map Prod.fst = columns := by
  have named : List.Forall₂ (fun (name : Name) (pair : Name × Value) => name = pair.1)
      (pairs.map Prod.fst) pairs := by
    rw [List.forall₂_map_left_iff]
    exact List.forall₂_same.mpr (fun _ _ => rfl)
  have composed := List.perm_comp_forall₂ perm named
  obtain ⟨sorted, same, sortedPerm⟩ := composed
  refine ⟨sorted, sortedPerm, ?_⟩
  have mapped : List.Forall₂ (· = ·) columns (sorted.map Prod.fst) :=
    List.forall₂_map_right_iff.mpr same
  exact (List.forall₂_eq_eq_eq ▸ mapped : columns = sorted.map Prod.fst).symm

private theorem exists_pairs_at {pairs : List (Name × Value)}
    (perm : columns.Perm (pairs.map Prod.fst))
    {placed : Nat} {name : Name} {value : Value} (member : (name, value) ∈ pairs)
    (there : columns[placed]? = some name) :
    ∃ sorted : List (Name × Value), sorted.Perm pairs ∧ sorted.map Prod.fst = columns ∧
      sorted[placed]? = some (name, value) := by
  obtain ⟨before, after, rfl⟩ := List.append_of_mem member
  obtain ⟨inside, here⟩ := List.getElem?_eq_some_iff.mp there
  have split : columns = columns.take placed ++ name :: columns.drop (placed + 1) := by
    rw [← here, List.cons_getElem_drop_succ, List.take_append_drop]
  have rest : (columns.take placed ++ columns.drop (placed + 1)).Perm
      ((before ++ after).map Prod.fst) := by
    rw [split, List.map_append, List.map_cons] at perm
    rw [List.map_append]
    exact (List.perm_middle.symm.trans (perm.trans List.perm_middle)).cons_inv
  obtain ⟨sorted, sortedPerm, sortedNames⟩ := exists_pairs rest
  obtain ⟨front, back, rfl, fronts, backs⟩ := List.map_eq_append_iff.mp sortedNames
  have width : front.length = placed := by
    rw [← List.length_map Prod.fst, fronts, List.length_take_of_le (Nat.le_of_lt inside)]
  refine ⟨front ++ (name, value) :: back, ?_, ?_, ?_⟩
  · exact List.perm_middle.trans ((sortedPerm.cons _).trans List.perm_middle.symm)
  · rw [List.map_append, List.map_cons, fronts, backs]
    exact split.symm
  · rw [← width, List.getElem?_append_right (Nat.le_refl _), Nat.sub_self]
    rfl

private theorem reordered_of_pairs (listed : values.length = names.length)
    {sorted : List (Name × Value)} (same : sorted.Perm (names.zip values))
    (inOrder : sorted.map Prod.fst = columns) :
    Reordered names columns values (sorted.map Prod.snd) where
  listed := listed
  wide := by rw [List.length_map, ← inOrder, List.length_map]
  same := by rw [← inOrder, zip_map]; exact same.symm

private theorem names_of_zip (listed : values.length = names.length) (perm : names.Perm columns) :
    columns.Perm ((names.zip values).map Prod.fst) := by
  rw [List.map_fst_zip (Nat.le_of_eq listed.symm)]
  exact perm.symm

theorem exists_inOrder (perm : names.Perm columns) (values : List Value) :
    ∃ ordered, InOrder names columns values ordered := by
  by_cases listed : values.length = names.length
  · obtain ⟨sorted, same, inOrder⟩ := exists_pairs (names_of_zip listed perm)
    exact ⟨_, Or.inl (reordered_of_pairs listed same inOrder)⟩
  · exact ⟨values, Or.inr ⟨listed, rfl⟩⟩

private theorem exists_reordered (perm : names.Perm columns) (full : values.length = names.length)
    {listed placed : Nat} {name : Name} (given : names[listed]? = some name)
    (there : columns[placed]? = some name) :
    ∃ ordered, Reordered names columns values ordered ∧ ordered[placed]? = values[listed]? := by
  obtain ⟨inside, _⟩ := List.getElem?_eq_some_iff.mp given
  have within : listed < values.length := by rwa [full]
  have value := List.getElem?_eq_getElem within
  have pair : (names.zip values)[listed]? = some (name, values[listed]) := by
    rw [List.getElem?_zip_eq_some]
    exact ⟨given, value⟩
  obtain ⟨sorted, same, inOrder, here⟩ :=
    exists_pairs_at (names_of_zip full perm) (List.mem_of_getElem? pair) there
  refine ⟨_, reordered_of_pairs full same inOrder, ?_⟩
  rw [List.getElem?_map, here, value]
  rfl

theorem placedAsListed_self {text : Value → Text} (once : names.Nodup) (values : List Value) :
    PlacedAsListed text names names values := by
  intro listed placed name given there
  have within := (List.getElem?_eq_some_iff.mp given).1
  rw [(List.getElem?_inj within once).mp (given.trans there.symm)]

theorem PlacedAsListed.texts {text : Value → Text} (perm : names.Perm columns)
    (placed : PlacedAsListed text names columns values)
    (reordered : Reordered names columns values ordered) :
    values.map text = ordered.map text := by
  have lengths := length_inOrder perm (Or.inl reordered)
  apply List.ext_getElem?
  intro place
  rw [List.getElem?_map, List.getElem?_map]
  by_cases inside : place < ordered.length
  · have within : place < columns.length := by rwa [← reordered.wide]
    have column := List.getElem?_eq_getElem within
    have pair : (columns.zip ordered)[place]? = some (columns[place], ordered[place]) := by
      rw [List.getElem?_zip_eq_some]
      exact ⟨column, List.getElem?_eq_getElem inside⟩
    obtain ⟨listed, found⟩ := List.mem_iff_getElem?.mp
      (reordered.same.mem_iff.mpr (List.mem_of_getElem? pair))
    obtain ⟨given, value⟩ := List.getElem?_zip_eq_some.mp found
    rw [← placed listed place _ given column, value, List.getElem?_eq_getElem inside]
  · rw [List.getElem?_eq_none (Nat.not_lt.mp inside),
      List.getElem?_eq_none (lengths ▸ Nat.not_lt.mp inside)]

theorem placedAsListed_of_texts {text : Value → Text} (perm : names.Perm columns)
    (full : values.length = names.length)
    (texts : ∀ ordered, Reordered names columns values ordered →
      values.map text = ordered.map text) : PlacedAsListed text names columns values := by
  intro listed placed name given there
  obtain ⟨ordered, reordered, value⟩ := exists_reordered perm full given there
  have same := congrArg (fun row => row[placed]?) (texts ordered reordered)
  simp only [List.getElem?_map] at same
  rw [← value, same]

theorem PlacedAsListed.names_eq {text : Value → Text} (perm : names.Perm columns)
    (full : values.length = names.length) (placed : PlacedAsListed text names columns values)
    (distinct : (values.map text).Nodup) : names = columns := by
  apply List.ext_getElem?
  intro place
  by_cases inside : place < names.length
  · have given := List.getElem?_eq_getElem inside
    obtain ⟨other, there⟩ := List.mem_iff_getElem?.mp
      (perm.mem_iff.mp (List.getElem_mem inside))
    have texts := placed place other _ given there
    rw [← List.getElem?_map, ← List.getElem?_map] at texts
    have here : place < (values.map text).length := by rwa [List.length_map, full]
    rw [(List.getElem?_inj here distinct).mp texts, there, ← (List.getElem?_inj here distinct).mp texts,
      given]
  · rw [List.getElem?_eq_none (Nat.not_lt.mp inside),
      List.getElem?_eq_none (perm.length_eq ▸ Nat.not_lt.mp inside)]

theorem Reordered.perm (reordered : Reordered names columns values ordered) :
    values.Perm ordered := by
  have seconds := reordered.same.map Prod.snd
  rwa [List.map_snd_zip (Nat.le_of_eq reordered.listed),
    List.map_snd_zip (Nat.le_of_eq reordered.wide)] at seconds

theorem getElem?_of_kind {Column : Type} {kind : Column → Bool} {columns : List Column}
    {left right : List Value} (leftFull : left.length = columns.length)
    (rightFull : right.length = columns.length)
    (same : ((columns.zip left).filter (fun pair => kind pair.1)).map Prod.snd =
      ((columns.zip right).filter (fun pair => kind pair.1)).map Prod.snd) :
    ∀ (index : Nat) (column : Column), columns[index]? = some column → kind column = true →
      left[index]? = right[index]? := by
  induction columns generalizing left right with
  | nil =>
      intro index column here
      cases here
  | cons first columns ih =>
      obtain ⟨leftFirst, left, rfl⟩ := List.exists_cons_of_length_eq_add_one leftFull
      obtain ⟨rightFirst, right, rfl⟩ := List.exists_cons_of_length_eq_add_one rightFull
      rw [List.zip_cons_cons, List.zip_cons_cons, List.filter_cons, List.filter_cons] at same
      have leftRest := Nat.succ.inj leftFull
      have rightRest := Nat.succ.inj rightFull
      intro index column here holds
      by_cases firstKind : kind first = true
      · simp only [firstKind, if_true, List.map_cons, List.cons.injEq] at same
        cases index with
        | zero => exact congrArg some same.1
        | succ index => exact ih leftRest rightRest same.2 index column here holds
      · simp only [firstKind, Bool.false_eq_true, if_false] at same
        cases index with
        | zero =>
            cases here
            exact absurd holds firstKind
        | succ index => exact ih leftRest rightRest same index column here holds

theorem forall₂_each {R S : Value → Value → Prop} {rows : List Value}
    (each : ∀ row, ∃ other, R row other)
    (all : ∀ others, List.Forall₂ R rows others → List.Forall₂ S rows others) :
    ∀ row ∈ rows, ∀ other, R row other → S row other := by
  induction rows with
  | nil => exact fun row member => by cases member
  | cons first rows ih =>
      obtain ⟨chosen, firstChosen⟩ := each first
      have restAll : ∀ others, List.Forall₂ R rows others → List.Forall₂ S rows others :=
        fun others related => (List.forall₂_cons.mp (all (chosen :: others)
          (.cons firstChosen related))).2
      have exists_rest : ∀ rest : List Value, ∃ others, List.Forall₂ R rest others := by
        intro rest
        induction rest with
        | nil => exact ⟨[], .nil⟩
        | cons row rest more =>
            obtain ⟨other, related⟩ := each row
            obtain ⟨others, relatedRest⟩ := more
            exact ⟨other :: others, .cons related relatedRest⟩
      intro row member other related
      rcases List.mem_cons.mp member with rfl | behind
      · obtain ⟨others, relatedRest⟩ := exists_rest rows
        exact (List.forall₂_cons.mp (all (other :: others) (.cons related relatedRest))).1
      · exact ih restAll row behind other related

theorem forall₂_of_each {R S : Value → Value → Prop} {rows others : List Value}
    (each : ∀ row ∈ rows, ∀ other, R row other → S row other)
    (related : List.Forall₂ R rows others) : List.Forall₂ S rows others := by
  induction related with
  | nil => exact .nil
  | @cons row other rows others here _ ih =>
      have first := each row (List.mem_cons_self ..) other here
      exact .cons first (ih (fun row member => each row (List.mem_cons_of_mem _ member)))

end Reordering
