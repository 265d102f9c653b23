import Mathlib

/-!
Ordered listings of finite maps.

A listing is a list of key-value pairs in strictly ascending key order.  Such a
list is determined by its members, so a scan is specified by saying which pairs
it contains.  The scan proper is the one every ordered map offers: start at the
prefix, stop at the first key that no longer carries it.
-/

namespace OrderedScan

open Std (ExtTreeMap TransOrd LawfulEqOrd ReflCmp OrientedCmp TransCmp LawfulEqCmp)

variable {α κ β : Type}

def Ascending [Ord κ] (pairs : List (κ × β)) : Prop :=
  pairs.Pairwise (fun left right => compare left.1 right.1 = .lt)

theorem compare_lt_irrefl [Ord κ] [TransOrd κ] (key : κ) : compare key key ≠ .lt := by
  have same : compare key key = .eq := ReflCmp.compare_self
  rw [same]
  exact Ordering.noConfusion

private theorem compare_lt_asymm [Ord κ] [TransOrd κ] {left right : κ}
    (below : compare left right = .lt) : compare right left ≠ .lt := by
  have swapped : compare right left = (compare left right).swap := OrientedCmp.eq_swap
  rw [swapped, below]
  exact Ordering.noConfusion

theorem Ascending.nodup [Ord κ] [TransOrd κ] {pairs : List (κ × β)}
    (ascending : Ascending pairs) : pairs.Nodup := by
  refine ascending.imp ?_
  rintro left right below rfl
  exact compare_lt_irrefl left.1 below

theorem Ascending.keys_nodup [Ord κ] [TransOrd κ] {pairs : List (κ × β)}
    (ascending : Ascending pairs) : (pairs.map Prod.fst).Nodup := by
  rw [List.Nodup, List.pairwise_map]
  refine ascending.imp ?_
  intro left right below same
  rw [same] at below
  exact compare_lt_irrefl right.1 below

theorem Ascending.eq_of_mem_iff [Ord κ] [TransOrd κ] {left right : List (κ × β)}
    (leftAscending : Ascending left) (rightAscending : Ascending right)
    (same : ∀ pair, pair ∈ left ↔ pair ∈ right) : left = right := by
  have permuted : left.Perm right :=
    (List.perm_ext_iff_of_nodup leftAscending.nodup rightAscending.nodup).mpr same
  refine permuted.eq_of_pairwise ?_ leftAscending rightAscending
  intro first second _ _ below above
  exact absurd above (compare_lt_asymm below)

theorem Ascending.filter [Ord κ] {pairs : List (κ × β)} (ascending : Ascending pairs)
    (keep : κ × β → Bool) : Ascending (pairs.filter keep) :=
  List.Pairwise.filter keep ascending

theorem toList_ascending [Ord κ] [TransOrd κ] (map : ExtTreeMap κ β) :
    Ascending map.toList :=
  ExtTreeMap.ordered_keys_toList

def sortByKey [Ord κ] (pairs : List (κ × β)) : List (κ × β) :=
  pairs.insertionSort (fun left right => (compare left.1 right.1).isLE = true)

theorem mem_sortByKey [Ord κ] (pairs : List (κ × β)) (pair : κ × β) :
    pair ∈ sortByKey pairs ↔ pair ∈ pairs :=
  (List.perm_insertionSort _ pairs).mem_iff

theorem sortByKey_pairwise [Ord κ] [TransOrd κ] (pairs : List (κ × β)) :
    (sortByKey pairs).Pairwise (fun left right => (compare left.1 right.1).isLE = true) := by
  have total : Std.Total (fun left right : κ × β => (compare left.1 right.1).isLE = true) := by
    constructor
    intro left right
    have swapped : compare right.1 left.1 = (compare left.1 right.1).swap := OrientedCmp.eq_swap
    rw [swapped]
    cases compare left.1 right.1 <;> simp
  have transitive : IsTrans (κ × β) (fun left right => (compare left.1 right.1).isLE = true) :=
    ⟨fun _ _ _ first second => TransCmp.isLE_trans first second⟩
  exact List.pairwise_insertionSort _ pairs

theorem sortByKey_ascending [Ord κ] [TransOrd κ] [LawfulEqOrd κ] {pairs : List (κ × β)}
    (distinct : (pairs.map Prod.fst).Nodup) : Ascending (sortByKey pairs) := by
  have sortedDistinct : ((sortByKey pairs).map Prod.fst).Nodup :=
    (((List.perm_insertionSort _ pairs).map Prod.fst).nodup_iff).mpr distinct
  have apart : (sortByKey pairs).Pairwise (fun left right => left.1 ≠ right.1) :=
    List.pairwise_map.mp sortedDistinct
  refine ((sortByKey_pairwise pairs).and apart).imp ?_
  rintro left right ⟨atMost, different⟩
  rcases Ordering.isLE_iff_eq_lt_or_eq_eq.mp atMost with below | equal
  · exact below
  · exact absurd (LawfulEqCmp.eq_of_compare equal) different

private theorem orderedInsert_front {r : α → α → Prop} [DecidableRel r] {item : α} {items : List α}
    (first : ∀ other ∈ items, r item other) : items.orderedInsert r item = item :: items := by
  cases items with
  | nil => rfl
  | cons other items =>
      exact List.orderedInsert_cons_of_le r items (first other (List.mem_cons_self ..))

private theorem filter_orderedInsert {r : α → α → Prop} [DecidableRel r] [IsTrans α r]
    (keep : α → Bool)
    (item : α) {items : List α} (sorted : items.Pairwise r) :
    (items.orderedInsert r item).filter keep =
      if keep item = true then (items.filter keep).orderedInsert r item
      else items.filter keep := by
  induction items with
  | nil =>
      rw [List.orderedInsert_nil, List.filter_cons]
      rfl
  | cons other items ih =>
      have above := (List.pairwise_cons.mp sorted).1
      by_cases before : r item other
      · have first : ∀ later ∈ (other :: items).filter keep, r item later := by
          intro later member
          rcases List.mem_cons.mp (List.mem_filter.mp member).1 with rfl | behind
          · exact before
          · exact IsTrans.trans _ _ _ before (above later behind)
        rw [List.orderedInsert_cons_of_le r items before, List.filter_cons,
          orderedInsert_front first]
      · rw [List.orderedInsert_of_not_le r items before, List.filter_cons, List.filter_cons,
          ih (List.pairwise_cons.mp sorted).2]
        by_cases kept : keep other = true
        · rw [if_pos kept, if_pos kept, List.orderedInsert_of_not_le r _ before]
          split
          · rfl
          · rfl
        · rw [if_neg kept, if_neg kept]

theorem filter_sortByKey [Ord κ] [TransOrd κ] (keep : κ × β → Bool) (pairs : List (κ × β)) :
    (sortByKey pairs).filter keep = sortByKey (pairs.filter keep) := by
  have transitive : IsTrans (κ × β)
      (fun left right => (compare left.1 right.1).isLE = true) :=
    ⟨fun _ _ _ first second => TransCmp.isLE_trans first second⟩
  induction pairs with
  | nil => rfl
  | cons pair pairs ih =>
      have inserted := filter_orderedInsert keep pair (sortByKey_pairwise pairs)
      rw [ih] at inserted
      rw [List.filter_cons]
      refine inserted.trans ?_
      split
      · rfl
      · rfl

section Prefix

variable [Ord α]

theorem compare_append_left [TransOrd α] (front left right : List α) :
    compare (front ++ left) (front ++ right) = compare left right := by
  induction front with
  | nil => rfl
  | cons head tail ih =>
      have same : compare head head = .eq := ReflCmp.compare_self
      rw [List.cons_append, List.cons_append, List.compare_cons_cons, same]
      exact ih

private theorem isLE_of_isPrefix [TransOrd α] {stem key : List α} (starts : stem <+: key) :
    (compare stem key).isLE = true := by
  obtain ⟨rest, rfl⟩ := starts
  induction stem with
  | nil =>
      rw [List.compare_eq_compareLex]
      exact List.isLE_compareLex_nil_left
  | cons head tail ih =>
      have same : compare head head = .eq := ReflCmp.compare_self
      rw [List.cons_append, List.compare_cons_cons, same]
      exact ih

private theorem isPrefix_of_between [TransOrd α] [LawfulEqOrd α] :
    (stem lower upper : List α) → (compare stem lower).isLE = true →
      (compare lower upper).isLE = true → stem <+: upper → stem <+: lower
  | [], lower, _, _, _, _ => List.nil_prefix
  | head :: tail, [], _, above, _, _ => by
      rw [List.compare_cons_nil] at above
      cases above
  | head :: tail, _ :: _, [], _, _, starts => by
      exact absurd (List.prefix_nil.mp starts) (List.cons_ne_nil head tail)
  | head :: tail, low :: lows, up :: ups, above, below, starts => by
      obtain ⟨rfl, tailStarts⟩ := List.cons_prefix_cons.mp starts
      rw [List.compare_cons_cons] at above below
      have sameHead : compare head low = .eq := by
        have swapped : compare low head = (compare head low).swap := OrientedCmp.eq_swap
        rw [swapped] at below
        cases order : compare head low with
        | lt => rw [order] at below; cases below
        | eq => rfl
        | gt => rw [order] at above; cases above
      have headEq : head = low := LawfulEqCmp.eq_of_compare sameHead
      subst headEq
      have same : compare head head = .eq := ReflCmp.compare_self
      rw [same] at above below
      exact List.cons_prefix_cons.mpr
        ⟨rfl, isPrefix_of_between tail lows ups above below tailStarts⟩

/-- The scan an ordered map performs: the range from the prefix upward, taken
while the keys carry the prefix. -/
def prefixScan (stem : List α) (pairs : List (List α × β)) [BEq α] : List (List α × β) :=
  (pairs.dropWhile (fun pair => compare pair.1 stem == .lt)).takeWhile
    (fun pair => stem.isPrefixOf pair.1)

private theorem takeWhile_eq_filter_of_ascending [TransOrd α] [LawfulEqOrd α] [BEq α] [LawfulBEq α]
    (stem : List α) (pairs : List (List α × β)) (ascending : Ascending pairs)
    (above : ∀ pair ∈ pairs, (compare stem pair.1).isLE = true) :
    pairs.takeWhile (fun pair => stem.isPrefixOf pair.1) =
      pairs.filter (fun pair => stem.isPrefixOf pair.1) := by
  induction pairs with
  | nil => rfl
  | cons head tail ih =>
      have headBelow := (List.pairwise_cons.mp ascending).1
      cases starts : stem.isPrefixOf head.1 with
      | true =>
          simp only [List.takeWhile_cons, List.filter_cons, starts, if_true]
          rw [ih (List.pairwise_cons.mp ascending).2
            (fun pair member => above pair (List.mem_cons_of_mem head member))]
      | false =>
          simp only [List.takeWhile_cons, List.filter_cons, starts, Bool.false_eq_true, if_false]
          symm
          rw [List.filter_eq_nil_iff]
          intro pair member carries
          have below : (compare head.1 pair.1).isLE = true := by
            rw [headBelow pair member]
            rfl
          have headStarts := isPrefix_of_between stem head.1 pair.1
            (above head (List.mem_cons_self ..)) below (List.isPrefixOf_iff_prefix.mp carries)
          rw [List.isPrefixOf_iff_prefix.mpr headStarts] at starts
          cases starts

private theorem above_of_not_lt [TransOrd α] (stem : List α) {head : List α × β}
    {tail : List (List α × β)} (ascending : Ascending (head :: tail))
    (notBelow : compare head.1 stem ≠ .lt) :
    ∀ pair ∈ head :: tail, (compare stem pair.1).isLE = true := by
  have headAbove : (compare stem head.1).isLE = true := by
    have swapped : compare stem head.1 = (compare head.1 stem).swap := OrientedCmp.eq_swap
    rw [swapped]
    cases order : compare head.1 stem with
    | lt => exact absurd order notBelow
    | eq => rfl
    | gt => rfl
  intro pair member
  rcases List.mem_cons.mp member with rfl | inTail
  · exact headAbove
  · have below : (compare head.1 pair.1).isLE = true := by
      rw [(List.pairwise_cons.mp ascending).1 pair inTail]
      rfl
    exact TransCmp.isLE_trans headAbove below

private theorem prefixScan_eq_filter [TransOrd α] [LawfulEqOrd α] [BEq α] [LawfulBEq α]
    (stem : List α) (pairs : List (List α × β)) (ascending : Ascending pairs) :
    prefixScan stem pairs = pairs.filter (fun pair => stem.isPrefixOf pair.1) := by
  induction pairs with
  | nil => rfl
  | cons head tail ih =>
      have tailAscending : Ascending tail := (List.pairwise_cons.mp ascending).2
      unfold prefixScan
      cases order : compare head.1 stem with
      | lt =>
          have notStarts : stem.isPrefixOf head.1 = false := by
            by_contra starts
            have atMost := isLE_of_isPrefix
              (List.isPrefixOf_iff_prefix.mp (Bool.not_eq_false _ ▸ starts))
            have swapped : compare stem head.1 = (compare head.1 stem).swap :=
              OrientedCmp.eq_swap
            rw [swapped, order] at atMost
            cases atMost
          simp only [List.dropWhile_cons, order, BEq.rfl, if_true, List.filter_cons, notStarts,
            Bool.false_eq_true, if_false]
          exact ih tailAscending
      | eq =>
          have kept : (Ordering.eq == Ordering.lt) = false := rfl
          simp only [List.dropWhile_cons, order, kept, Bool.false_eq_true, if_false]
          exact takeWhile_eq_filter_of_ascending stem _ ascending
            (above_of_not_lt stem ascending (by rw [order]; exact Ordering.noConfusion))
      | gt =>
          have kept : (Ordering.gt == Ordering.lt) = false := rfl
          simp only [List.dropWhile_cons, order, kept, Bool.false_eq_true, if_false]
          exact takeWhile_eq_filter_of_ascending stem _ ascending
            (above_of_not_lt stem ascending (by rw [order]; exact Ordering.noConfusion))

theorem prefixScan_toList [TransOrd α] [LawfulEqOrd α] [BEq α] [LawfulBEq α]
    (stem : List α) (map : ExtTreeMap (List α) β) :
    prefixScan stem map.toList =
      map.toList.filter (fun pair => stem.isPrefixOf pair.1) :=
  prefixScan_eq_filter stem map.toList (toList_ascending map)

end Prefix

end OrderedScan
