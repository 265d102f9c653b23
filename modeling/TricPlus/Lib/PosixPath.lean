import Mathlib

/-!
Paths as POSIX resolves them, without symbolic links.

A raw path is a byte string.  Joining puts a separator between two of them,
unless the second is absolute and replaces the first.  Resolving walks the pieces
between the slashes and gives a location: the names from the root down.
-/

namespace PosixPath

abbrev RawPath := List UInt8

abbrev Name := List UInt8

abbrev Location := List Name

instance transOrd_location : Std.TransOrd Location := inferInstance

def slash : UInt8 := 0x2F

def dot : UInt8 := 0x2E

/-- `Path::join`. -/
def join (base tail : RawPath) : RawPath :=
  if tail.head? = some slash then tail
  else if base = [] ∨ base.getLast? = some slash then base ++ tail
  else base ++ slash :: tail

def pieces : RawPath → List Name
  | [] => [[]]
  | byte :: rest =>
      if byte = slash then [] :: pieces rest
      else (pieces rest).modifyHead (fun piece => byte :: piece)

def enter (here : Location) (piece : Name) : Location :=
  if piece = [] ∨ piece = [dot] then here
  else if piece = [dot, dot] then here.dropLast
  else here ++ [piece]

def resolve (workingDirectory : Location) (path : RawPath) : Location :=
  (pieces path).foldl enter (if path.head? = some slash then [] else workingDirectory)

def Proper (name : Name) : Prop :=
  slash ∉ name ∧ name ≠ [] ∧ name ≠ [dot] ∧ name ≠ [dot, dot]

private theorem pieces_ne_nil (path : RawPath) : pieces path ≠ [] := by
  induction path with
  | nil => exact List.cons_ne_nil _ _
  | cons byte rest ih =>
      unfold pieces
      split
      · exact List.cons_ne_nil _ _
      · intro empty
        exact ih (List.modifyHead_eq_nil_iff.mp empty)

private theorem pieces_of_slash_not_mem {path : RawPath} (plain : slash ∉ path) :
    pieces path = [path] := by
  induction path with
  | nil => rfl
  | cons byte rest ih =>
      have different : byte ≠ slash := fun same => plain (same ▸ List.mem_cons_self ..)
      have restPlain : slash ∉ rest := fun member => plain (List.mem_cons_of_mem _ member)
      rw [pieces, if_neg different, ih restPlain, List.modifyHead_cons]

private theorem pieces_append_slash (front back : RawPath) :
    pieces (front ++ slash :: back) = pieces front ++ pieces back := by
  induction front with
  | nil =>
      simp only [List.nil_append, pieces, if_true, List.cons_append]
  | cons byte front ih =>
      rw [List.cons_append, pieces, pieces, ih]
      split
      · rfl
      · obtain ⟨head, tail, same⟩ := List.exists_cons_of_ne_nil (pieces_ne_nil front)
        rw [same, List.cons_append, List.modifyHead_cons, List.modifyHead_cons,
          List.cons_append]

private theorem enter_proper {name : Name} (proper : Proper name) (here : Location) :
    enter here name = here ++ [name] := by
  obtain ⟨-, notEmpty, notDot, notDots⟩ := proper
  unfold enter
  rw [if_neg (not_or.mpr ⟨notEmpty, notDot⟩), if_neg notDots]

private theorem resolve_join {workingDirectory : Location} {base tail : RawPath}
    (relative : tail.head? ≠ some slash) :
    resolve workingDirectory (join base tail) =
      (pieces tail).foldl enter (resolve workingDirectory base) := by
  unfold join
  rw [if_neg relative]
  rcases List.eq_nil_or_concat base with rfl | ⟨init, last, rfl⟩
  · rw [if_pos (Or.inl rfl), List.nil_append]
    unfold resolve
    rw [if_neg relative]
    rfl
  · have nonempty : init ++ [last] ≠ [] := by
      intro empty
      exact absurd (List.append_eq_nil_iff.mp empty).2 (List.cons_ne_nil _ _)
    have sameHead : ∀ more : RawPath,
        ((init ++ [last]) ++ more).head? = (init ++ [last]).head? := by
      intro more
      exact List.head?_append_of_ne_nil _ nonempty
    rw [List.concat_eq_append]
    by_cases ends : last = slash
    · subst ends
      rw [if_pos (Or.inr List.getLast?_concat)]
      unfold resolve
      rw [sameHead, List.append_assoc, List.singleton_append, pieces_append_slash,
        pieces_append_slash, List.foldl_append, List.foldl_append]
      rfl
    · have open' : ¬ (init ++ [last] = [] ∨ (init ++ [last]).getLast? = some slash) := by
        rw [List.getLast?_concat]
        rintro (empty | same)
        · exact nonempty empty
        · exact ends (Option.some.inj same)
      rw [if_neg open']
      unfold resolve
      rw [sameHead, pieces_append_slash, List.foldl_append]

theorem resolve_join_proper {workingDirectory : Location} {base : RawPath} {name : Name}
    (proper : Proper name) :
    resolve workingDirectory (join base name) = resolve workingDirectory base ++ [name] := by
  have relative : name.head? ≠ some slash := by
    intro absolute
    exact proper.1 (List.mem_of_mem_head? absolute)
  rw [resolve_join relative, pieces_of_slash_not_mem proper.1]
  exact enter_proper proper _

theorem resolve_join_last (workingDirectory : Location) (base front : RawPath) {name : Name}
    (proper : Proper name) :
    ∃ parent, resolve workingDirectory (join base (front ++ slash :: name)) =
      parent ++ [name] := by
  have walk : ∀ start : Location,
      (pieces (front ++ slash :: name)).foldl enter start =
        (pieces front).foldl enter start ++ [name] := by
    intro start
    rw [pieces_append_slash, pieces_of_slash_not_mem proper.1, List.foldl_append]
    exact enter_proper proper _
  by_cases absolute : (front ++ slash :: name).head? = some slash
  · unfold join
    rw [if_pos absolute]
    exact ⟨_, walk _⟩
  · rw [resolve_join absolute]
    exact ⟨_, walk _⟩

def splitAtLastDot : Name → Option (Name × Name)
  | [] => none
  | byte :: rest =>
      match splitAtLastDot rest with
      | some (before, after) => some (byte :: before, after)
      | none => if byte = dot then some ([], rest) else none

/-- `Path::extension` of a file name: a leading dot starts no extension. -/
def extension (name : Name) : Option Name :=
  match splitAtLastDot name with
  | some (before, after) => if name = [dot, dot] ∨ before = [] then none else some after
  | none => none

/-- `Path::file_stem` of a file name. -/
def fileStem (name : Name) : Name :=
  match splitAtLastDot name with
  | some (before, _) => if name = [dot, dot] ∨ before = [] then name else before
  | none => name

private theorem splitAtLastDot_of_not_mem {name : Name} (plain : dot ∉ name) :
    splitAtLastDot name = none := by
  induction name with
  | nil => rfl
  | cons byte rest ih =>
      have different : byte ≠ dot := fun same => plain (same ▸ List.mem_cons_self ..)
      rw [splitAtLastDot, ih (fun member => plain (List.mem_cons_of_mem _ member))]
      exact if_neg different

private theorem splitAtLastDot_append (before : Name) {after : Name} (plain : dot ∉ after) :
    splitAtLastDot (before ++ dot :: after) = some (before, after) := by
  induction before with
  | nil =>
      rw [List.nil_append, splitAtLastDot, splitAtLastDot_of_not_mem plain]
      exact if_pos rfl
  | cons byte before ih => rw [List.cons_append, splitAtLastDot, ih]

private theorem eq_of_splitAtLastDot {name before after : Name}
    (split : splitAtLastDot name = some (before, after)) : name = before ++ dot :: after := by
  induction name generalizing before with
  | nil => cases split
  | cons byte rest ih =>
      rw [splitAtLastDot] at split
      cases inner : splitAtLastDot rest with
      | some pair =>
          rw [inner] at split
          obtain ⟨rfl, rfl⟩ := Prod.mk.inj (Option.some.inj split)
          rw [ih inner, List.cons_append]
      | none =>
          rw [inner] at split
          by_cases same : byte = dot
          · simp only [if_pos same] at split
            obtain ⟨rfl, rfl⟩ := Prod.mk.inj (Option.some.inj split)
            rw [same, List.nil_append]
          · simp only [if_neg same, reduceCtorEq] at split

theorem extension_eq_some {name ext : Name} (found : extension name = some ext) :
    name = fileStem name ++ dot :: ext ∧ fileStem name ≠ [] := by
  unfold extension at found
  unfold fileStem
  cases split : splitAtLastDot name with
  | none =>
      rw [split] at found
      cases found
  | some pair =>
      rcases pair with ⟨before, after⟩
      rw [split] at found
      simp only at found ⊢
      split at found
      · cases found
      · rename_i ordinary
        cases found
        rw [if_neg ordinary]
        exact ⟨eq_of_splitAtLastDot split, (not_or.mp ordinary).2⟩

theorem extension_append {stem ext : Name} (nonempty : stem ≠ []) (plain : dot ∉ ext)
    (proper : ext ≠ []) :
    extension (stem ++ dot :: ext) = some ext ∧ fileStem (stem ++ dot :: ext) = stem := by
  have ordinary : ¬ (stem ++ dot :: ext = [dot, dot] ∨ stem = []) := by
    rintro (dots | empty)
    · obtain ⟨head, stem, rfl⟩ := List.exists_cons_of_ne_nil nonempty
      have lengths := congrArg List.length dots
      have longer := List.length_pos_iff.mpr proper
      simp only [List.length_append, List.length_cons, List.length_nil] at lengths
      omega
    · exact nonempty empty
  unfold extension fileStem
  rw [splitAtLastDot_append stem plain]
  exact ⟨if_neg ordinary, if_neg ordinary⟩

end PosixPath
