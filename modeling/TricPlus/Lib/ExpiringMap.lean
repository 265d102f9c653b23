import TricPlus.Lib.OrderedScan

/-!
Finite maps whose entries may carry a deadline.

An entry is live strictly before its deadline, and for ever when it has none.
`purge` removes what is no longer live; the operations below never look at the
clock themselves, so that eager expiry is `purge` before each of them.
-/

namespace ExpiringMap

open Std (ExtTreeMap TransOrd LawfulEqOrd LawfulEqCmp)
open OrderedScan

variable {κ β Time : Type}

structure Entry (β Time : Type) where
  value : β
  deadline : Option Time
  deriving DecidableEq

section Live

variable [LinearOrder Time]

def Entry.live (now : Time) (entry : Entry β Time) : Bool :=
  match entry.deadline with
  | none => true
  | some deadline => decide (now < deadline)

@[simp] theorem Entry.live_none (now : Time) (value : β) :
    Entry.live now ⟨value, none⟩ = true := rfl

@[simp] theorem Entry.live_some (now deadline : Time) (value : β) :
    Entry.live now ⟨value, some deadline⟩ = decide (now < deadline) := rfl

theorem Entry.live_of_le {now later : Time} (ordered : now ≤ later) {entry : Entry β Time}
    (live : entry.live later = true) : entry.live now = true := by
  rcases entry with ⟨value, deadline⟩
  cases deadline with
  | none => rfl
  | some deadline =>
      simp only [Entry.live_some, decide_eq_true_eq] at live ⊢
      exact lt_of_le_of_lt ordered live

/-- What is left of an entry at a given time. -/
def remains (now : Time) (entry : Option (Entry β Time)) : Option (Entry β Time) :=
  entry.filter (Entry.live now)

@[simp] theorem remains_none (now : Time) :
    remains now (none : Option (Entry β Time)) = none := rfl

@[simp] theorem remains_lasting (now : Time) (value : β) :
    remains now (some (⟨value, none⟩ : Entry β Time)) = some ⟨value, none⟩ := rfl

theorem remains_some (now : Time) (entry : Entry β Time) :
    remains now (some entry) = if entry.live now then some entry else none := rfl

theorem remains_remains {now later : Time} (ordered : now ≤ later)
    (entry : Option (Entry β Time)) :
    remains later (remains now entry) = remains later entry := by
  cases entry with
  | none => rfl
  | some entry =>
      simp only [remains_some]
      cases early : entry.live now with
      | true => rfl
      | false =>
          have late : entry.live later = false := by
            by_contra stillLive
            have live := Entry.live_of_le ordered (Bool.not_eq_false _ ▸ stillLive)
            rw [early] at live
            cases live
          simp only [Bool.false_eq_true, if_false, remains_none, late]

@[simp] theorem remains_idem (now : Time) (entry : Option (Entry β Time)) :
    remains now (remains now entry) = remains now entry :=
  remains_remains (le_refl now) entry

theorem remains_eq_some {now : Time} {entry : Option (Entry β Time)} {found : Entry β Time} :
    remains now entry = some found ↔ entry = some found ∧ found.live now = true :=
  Option.filter_eq_some_iff

end Live

abbrev Contents (κ β Time : Type) [Ord κ] := ExtTreeMap κ (Entry β Time)

section Map

variable [Ord κ] [TransOrd κ] [LawfulEqOrd κ]

def purge [LinearOrder Time] (now : Time) (contents : Contents κ β Time) : Contents κ β Time :=
  contents.filter (fun _ entry => entry.live now)

def store (key : κ) (value : β) (contents : Contents κ β Time) : Contents κ β Time :=
  contents.insert key ⟨value, none⟩

def storeUntil (key : κ) (value : β) (deadline : Time) (contents : Contents κ β Time) :
    Contents κ β Time :=
  contents.insert key ⟨value, some deadline⟩

def setDeadline (key : κ) (deadline : Time) (contents : Contents κ β Time) :
    Contents κ β Time :=
  match contents[key]? with
  | none => contents
  | some entry => contents.insert key ⟨entry.value, some deadline⟩

def remove (key : κ) (contents : Contents κ β Time) : Contents κ β Time :=
  contents.erase key

def value? (key : κ) (contents : Contents κ β Time) : Option β :=
  contents[key]?.map Entry.value

def deadline? (key : κ) (contents : Contents κ β Time) : Option Time :=
  contents[key]?.bind Entry.deadline

def listing (contents : Contents κ β Time) : List (κ × β) :=
  contents.toList.map (fun pair => (pair.1, pair.2.value))

@[simp] theorem getElem?_purge [LinearOrder Time] (now : Time) (contents : Contents κ β Time) (key : κ) :
    (purge now contents)[key]? = remains now contents[key]? := by
  unfold purge remains
  rw [ExtTreeMap.getElem?_filter']

@[simp] theorem getElem?_store [DecidableEq κ] (key other : κ) (value : β) (contents : Contents κ β Time) :
    (store key value contents)[other]? =
      if key = other then some ⟨value, none⟩ else contents[other]? := by
  simp only [store, ExtTreeMap.getElem?_insert, LawfulEqCmp.compare_eq_iff_eq]

@[simp] theorem getElem?_storeUntil [DecidableEq κ] (key other : κ) (value : β)
    (deadline : Time) (contents : Contents κ β Time) :
    (storeUntil key value deadline contents)[other]? =
      if key = other then some ⟨value, some deadline⟩ else contents[other]? := by
  simp only [storeUntil, ExtTreeMap.getElem?_insert, LawfulEqCmp.compare_eq_iff_eq]

@[simp] theorem getElem?_setDeadline [DecidableEq κ] (key other : κ) (deadline : Time)
    (contents : Contents κ β Time) :
    (setDeadline key deadline contents)[other]? =
      if key = other then contents[key]?.map (fun entry => ⟨entry.value, some deadline⟩)
      else contents[other]? := by
  unfold setDeadline
  cases found : contents[key]? with
  | none =>
      by_cases same : key = other
      · subst same
        simp only [if_true, Option.map_none, found]
      · simp only [if_neg same]
  | some entry =>
      simp only [ExtTreeMap.getElem?_insert, LawfulEqCmp.compare_eq_iff_eq, Option.map_some]

@[simp] theorem getElem?_remove [DecidableEq κ] (key other : κ) (contents : Contents κ β Time) :
    (remove key contents)[other]? = if key = other then none else contents[other]? := by
  simp only [remove, ExtTreeMap.getElem?_erase, LawfulEqCmp.compare_eq_iff_eq]

def storeAll (pairs : List (κ × β)) (contents : Contents κ β Time) : Contents κ β Time :=
  pairs.foldl (fun contents pair => store pair.1 pair.2 contents) contents

theorem getElem?_storeAll_of_not_mem [DecidableEq κ] {pairs : List (κ × β)} {key : κ}
    (absent : key ∉ pairs.map Prod.fst) (contents : Contents κ β Time) :
    (storeAll pairs contents)[key]? = contents[key]? := by
  induction pairs generalizing contents with
  | nil => rfl
  | cons pair pairs ih =>
      rw [List.map_cons, List.mem_cons, not_or] at absent
      unfold storeAll at ih ⊢
      rw [List.foldl_cons, ih absent.2, getElem?_store, if_neg (Ne.symm absent.1)]

theorem getElem?_storeAll_of_mem [DecidableEq κ] {pairs : List (κ × β)}
    (distinct : (pairs.map Prod.fst).Nodup) {key : κ} {value : β} (member : (key, value) ∈ pairs)
    (contents : Contents κ β Time) : (storeAll pairs contents)[key]? = some ⟨value, none⟩ := by
  induction pairs generalizing contents with
  | nil => cases member
  | cons pair pairs ih =>
      rw [List.map_cons, List.nodup_cons] at distinct
      rcases List.mem_cons.mp member with same | inRest
      · subst same
        have rest := getElem?_storeAll_of_not_mem distinct.1 (store key value contents)
        rw [getElem?_store, if_pos rfl] at rest
        exact rest
      · exact ih distinct.2 inRest (store pair.1 pair.2 contents)

theorem mem_listing (contents : Contents κ β Time) (key : κ) (value : β) :
    (key, value) ∈ listing contents ↔ value? key contents = some value := by
  unfold listing value?
  rw [List.mem_map]
  constructor
  · rintro ⟨⟨found, entry⟩, member, same⟩
    obtain ⟨rfl, rfl⟩ := Prod.mk.inj same
    rw [ExtTreeMap.mem_toList_iff_getElem?_eq_some.mp member]
    rfl
  · intro stored
    obtain ⟨entry, found, rfl⟩ := Option.map_eq_some_iff.mp stored
    exact ⟨(key, entry), ExtTreeMap.mem_toList_iff_getElem?_eq_some.mpr found, rfl⟩

omit [LawfulEqOrd κ] in
theorem listing_ascending (contents : Contents κ β Time) : Ascending (listing contents) := by
  unfold listing Ascending
  rw [List.pairwise_map]
  exact ExtTreeMap.ordered_keys_toList

end Map

end ExpiringMap
