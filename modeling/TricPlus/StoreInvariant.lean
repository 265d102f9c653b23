import TricPlus.Store
import TricPlus.Lib.ExpiringMap

/-!
What keeps the three maps of the store in step.

`ttl` and `expiry` are inverse to each other and speak only of stored keys.
Every mutator keeps this, so no `unwrap` of the store can fail, and the purge
loop ends having removed exactly what is due.
-/

namespace TricPlus

open Std (ExtTreeMap LawfulEqCmp)
open ExpiringMap (Entry remains)

/-! ### Removing one element of a list by swapping -/

private theorem swapRemove_concat {α : Type} (init : List α) (last : α) (index : Nat) :
    swapRemove (init ++ [last]) index = ((init ++ [last]).set index last).dropLast := by
  unfold swapRemove
  rw [List.getLast?_concat]

private theorem swapRemove_perm {α : Type} {items : List α} {index : Nat}
    (inside : index < items.length) : (swapRemove items index).Perm (items.eraseIdx index) := by
  rcases List.eq_nil_or_concat items with rfl | ⟨init, last, rfl⟩
  · cases inside
  · rw [List.concat_eq_append] at inside ⊢
    rw [swapRemove_concat]
    by_cases early : index < init.length
    · rw [List.set_append_left _ _ early, List.dropLast_concat,
        List.eraseIdx_append_of_lt_length early]
      have moved : ([last] ++ init.eraseIdx index).Perm (init.eraseIdx index ++ [last]) :=
        List.perm_append_comm
      exact (List.set_perm_cons_eraseIdx early last).trans moved
    · have atEnd : index = init.length := by
        simp only [List.length_append, List.length_singleton] at inside
        omega
      subst atEnd
      rw [List.set_append_right _ _ (Nat.le_refl _), Nat.sub_self, List.set_cons_zero,
        List.dropLast_concat, List.eraseIdx_append_of_length_le (Nat.le_refl _), Nat.sub_self,
        List.eraseIdx_cons_zero, List.append_nil]

private theorem swapRemove_found {keys : List Bytes} (distinct : keys.Nodup) {key : Bytes}
    {index : Nat} (found : keys.findIdx? (fun candidate => candidate == key) = some index) :
    (swapRemove keys index).Nodup ∧
      ∀ other, other ∈ swapRemove keys index ↔ other ≠ key ∧ other ∈ keys := by
  obtain ⟨inside, same, -⟩ := List.findIdx?_eq_some_iff_getElem.mp found
  have keyEq : keys[index] = key := eq_of_beq same
  have permuted := swapRemove_perm inside
  have erased : keys.erase key = keys.eraseIdx index := by
    rw [← keyEq]
    exact distinct.erase_getElem index inside
  rw [← erased] at permuted
  constructor
  · exact permuted.nodup_iff.mpr (distinct.erase key)
  · intro other
    rw [permuted.mem_iff, distinct.mem_erase_iff]

namespace Store

structure WellFormed (store : Store) : Prop where
  inverse : ∀ (key : Bytes) (instant : Instant), store.ttl[key]? = some instant ↔
    ∃ keys : List Bytes, store.expiry[instant]? = some keys ∧ key ∈ keys
  distinct : ∀ (instant : Instant) (keys : List Bytes), store.expiry[instant]? = some keys → keys.Nodup
  nonempty : ∀ instant : Instant, store.expiry[instant]? ≠ some []
  stored : ∀ (key : Bytes) (instant : Instant), store.ttl[key]? = some instant →
    store.data[key]?.isSome = true

theorem createStore_wellFormed : createStore.WellFormed where
  inverse := by
    intro key instant
    simp only [createStore, ExtTreeMap.getElem?_empty, reduceCtorEq, false_and, exists_false]
  distinct := by
    intro instant keys found
    simp only [createStore, ExtTreeMap.getElem?_empty, reduceCtorEq] at found
  nonempty := by
    intro instant
    simp only [createStore, ExtTreeMap.getElem?_empty, ne_eq, reduceCtorEq, not_false_eq_true]
  stored := by
    intro key instant found
    simp only [createStore, ExtTreeMap.getElem?_empty, reduceCtorEq] at found

/-- All keys of all lists of `expiry`, list by list. -/
def scheduledKeys (store : Store) : List Bytes :=
  store.expiry.toList.flatMap Prod.snd

private theorem WellFormed.mem_scheduledKeys {store : Store} (wellFormed : store.WellFormed)
    (key : Bytes) : key ∈ store.scheduledKeys ↔ store.ttl[key]?.isSome = true := by
  unfold scheduledKeys
  rw [List.mem_flatMap]
  constructor
  · rintro ⟨⟨instant, keys⟩, listed, member⟩
    have found := ExtTreeMap.mem_toList_iff_getElem?_eq_some.mp listed
    rw [(wellFormed.inverse key instant).mpr ⟨keys, found, member⟩]
    rfl
  · intro present
    obtain ⟨instant, found⟩ := Option.isSome_iff_exists.mp present
    obtain ⟨keys, listed, member⟩ := (wellFormed.inverse key instant).mp found
    exact ⟨(instant, keys), ExtTreeMap.mem_toList_iff_getElem?_eq_some.mpr listed, member⟩

private theorem WellFormed.scheduledKeys_nodup {store : Store} (wellFormed : store.WellFormed) :
    store.scheduledKeys.Nodup := by
  unfold scheduledKeys
  rw [List.nodup_flatMap]
  constructor
  · rintro ⟨instant, keys⟩ listed
    exact wellFormed.distinct instant keys
      (ExtTreeMap.mem_toList_iff_getElem?_eq_some.mp listed)
  · have ascending := OrderedScan.toList_ascending store.expiry
    refine ascending.imp_of_mem ?_
    rintro ⟨first, firstKeys⟩ ⟨second, secondKeys⟩ firstListed secondListed below key
      inFirst inSecond
    have atFirst := (wellFormed.inverse key first).mpr
      ⟨firstKeys, ExtTreeMap.mem_toList_iff_getElem?_eq_some.mp firstListed, inFirst⟩
    have atSecond := (wellFormed.inverse key second).mpr
      ⟨secondKeys, ExtTreeMap.mem_toList_iff_getElem?_eq_some.mp secondListed, inSecond⟩
    rw [atFirst] at atSecond
    cases atSecond
    exact OrderedScan.compare_lt_irrefl first below

theorem WellFormed.deleteTtl {store : Store} (wellFormed : store.WellFormed) (key : Bytes) :
    ∃ cleared, store.deleteTtl key = some cleared ∧ cleared.WellFormed ∧
      cleared.data = store.data ∧ cleared.ttl = store.ttl.erase key := by
  unfold Store.deleteTtl
  cases timed : store.ttl[key]? with
  | none =>
      refine ⟨store, rfl, wellFormed, rfl, ?_⟩
      apply ExtTreeMap.ext_getElem?
      intro other
      rw [ExtTreeMap.getElem?_erase]
      split
      · rename_i same
        rw [← LawfulEqCmp.eq_of_compare same, timed]
      · rfl
  | some instant =>
      obtain ⟨keys, listed, member⟩ := (wellFormed.inverse key instant).mp timed
      have somewhere : (keys.findIdx? (fun candidate => candidate == key)).isSome = true := by
        rw [List.findIdx?_isSome, List.any_eq_true]
        exact ⟨key, member, beq_self_eq_true key⟩
      obtain ⟨index, found⟩ := Option.isSome_iff_exists.mp somewhere
      obtain ⟨leftDistinct, leftMem⟩ :=
        swapRemove_found (wellFormed.distinct instant keys listed) found
      simp only [listed, found, Option.bind_eq_bind, Option.bind_some]
      refine ⟨_, rfl, ?_, rfl, rfl⟩
      have expiryAt : ∀ other, (if (swapRemove keys index).isEmpty then
            store.expiry.erase instant
          else store.expiry.insert instant (swapRemove keys index))[other]? =
          if instant = other then
            (if (swapRemove keys index).isEmpty then none else some (swapRemove keys index))
          else store.expiry[other]? := by
        intro other
        split <;>
          simp only [ExtTreeMap.getElem?_erase, ExtTreeMap.getElem?_insert,
            LawfulEqCmp.compare_eq_iff_eq]
      constructor
      · intro other at'
        simp only [expiryAt, ExtTreeMap.getElem?_erase, LawfulEqCmp.compare_eq_iff_eq]
        by_cases sameKey : key = other
        · subst sameKey
          simp only [if_true, reduceCtorEq, false_iff]
          rintro ⟨others, stillListed, stillMember⟩
          by_cases sameInstant : instant = at'
          · subst sameInstant
            simp only [if_true] at stillListed
            split at stillListed
            · cases stillListed
            · cases stillListed
              exact ((leftMem key).mp stillMember).1 rfl
          · rw [if_neg sameInstant] at stillListed
            have again := (wellFormed.inverse key at').mpr ⟨others, stillListed, stillMember⟩
            rw [timed] at again
            cases again
            exact sameInstant rfl
        · rw [if_neg sameKey, wellFormed.inverse other at']
          by_cases sameInstant : instant = at'
          · subst sameInstant
            simp only [if_true, listed, Option.some.injEq]
            constructor
            · rintro ⟨_, rfl, otherMember⟩
              have stays := (leftMem other).mpr ⟨fun same => sameKey same.symm, otherMember⟩
              refine ⟨swapRemove keys index, ?_, stays⟩
              rw [if_neg]
              rw [List.isEmpty_iff]
              exact List.ne_nil_of_mem stays
            · rintro ⟨others, stillListed, stillMember⟩
              split at stillListed
              · cases stillListed
              · cases stillListed
                exact ⟨keys, rfl, ((leftMem other).mp stillMember).2⟩
          · simp only [if_neg sameInstant]
      · intro at' others listedAt
        rw [expiryAt] at listedAt
        split at listedAt
        · split at listedAt
          · cases listedAt
          · cases listedAt
            exact leftDistinct
        · exact wellFormed.distinct at' others listedAt
      · intro at' empty
        rw [expiryAt] at empty
        split at empty
        · split at empty
          · cases empty
          · rename_i notEmpty
            rw [Option.some.inj empty] at notEmpty
            exact notEmpty rfl
        · exact wellFormed.nonempty at' empty
      · intro other at' timedAt
        rw [ExtTreeMap.getElem?_erase] at timedAt
        split at timedAt
        · cases timedAt
        · exact wellFormed.stored other at' timedAt

theorem WellFormed.schedule {store : Store} (wellFormed : store.WellFormed) {key : Bytes}
    (instant : Instant) (stored : store.data[key]?.isSome = true)
    (untimed : store.ttl[key]? = none) : (store.schedule key instant).WellFormed := by
  have absent : ∀ (at' : Instant) (keys : List Bytes), store.expiry[at']? = some keys → key ∉ keys := by
    intro at' keys listed member
    have timed := (wellFormed.inverse key at').mpr ⟨keys, listed, member⟩
    rw [untimed] at timed
    cases timed
  have absentHere : key ∉ store.expiry[instant]?.getD [] := by
    cases listed : store.expiry[instant]? with
    | none => exact List.not_mem_nil
    | some keys => exact absent instant keys listed
  constructor
  · intro other at'
    simp only [Store.schedule, ExtTreeMap.getElem?_insert, LawfulEqCmp.compare_eq_iff_eq]
    by_cases sameKey : key = other
    · subst sameKey
      simp only [if_true, Option.some.injEq]
      constructor
      · rintro rfl
        exact ⟨_, if_pos rfl, List.mem_append_right _ (List.mem_singleton_self key)⟩
      · rintro ⟨keys, listed, member⟩
        by_contra different
        rw [if_neg different] at listed
        exact absent at' keys listed member
    · rw [if_neg sameKey, wellFormed.inverse other at']
      by_cases sameInstant : instant = at'
      · subst sameInstant
        simp only [if_true, Option.some.injEq]
        constructor
        · rintro ⟨keys, listed, member⟩
          refine ⟨_, rfl, List.mem_append_left _ ?_⟩
          rw [listed]
          exact member
        · rintro ⟨_, rfl, member⟩
          rcases List.mem_append.mp member with inOld | isKey
          · cases listed : store.expiry[instant]? with
            | none =>
                rw [listed] at inOld
                cases inOld
            | some keys =>
                rw [listed] at inOld
                exact ⟨keys, rfl, inOld⟩
          · exact absurd (List.mem_singleton.mp isKey).symm sameKey
      · simp only [if_neg sameInstant]
  · intro at' keys listed
    simp only [Store.schedule, ExtTreeMap.getElem?_insert, LawfulEqCmp.compare_eq_iff_eq]
      at listed
    split at listed
    · cases listed
      have oldDistinct : (store.expiry[instant]?.getD []).Nodup := by
        cases found : store.expiry[instant]? with
        | none => exact List.nodup_nil
        | some old => exact wellFormed.distinct instant old found
      rw [List.nodup_append]
      refine ⟨oldDistinct, List.nodup_singleton key, ?_⟩
      rintro other inOld _ isKey rfl
      rw [List.mem_singleton.mp isKey] at inOld
      exact absentHere inOld
    · exact wellFormed.distinct at' keys listed
  · intro at' empty
    simp only [Store.schedule, ExtTreeMap.getElem?_insert, LawfulEqCmp.compare_eq_iff_eq]
      at empty
    split at empty
    · exact List.append_ne_nil_of_right_ne_nil _ (List.cons_ne_nil key []) (Option.some.inj empty)
    · exact wellFormed.nonempty at' empty
  · intro other at' timed
    simp only [Store.schedule, ExtTreeMap.getElem?_insert, LawfulEqCmp.compare_eq_iff_eq]
      at timed ⊢
    split at timed
    · rename_i same
      rw [← same]
      exact stored
    · exact wellFormed.stored other at' timed

private theorem WellFormed.withData {store : Store} (wellFormed : store.WellFormed)
    (data : ExtTreeMap Bytes Bytes)
    (stored : ∀ (key : Bytes) (instant : Instant), store.ttl[key]? = some instant →
      data[key]?.isSome = true) : ({ store with data := data } : Store).WellFormed where
  inverse := wellFormed.inverse
  distinct := wellFormed.distinct
  nonempty := wellFormed.nonempty
  stored := stored

/-! ### The purge -/

/-- The key has a deadline that is over. -/
def Due (store : Store) (now : Instant) (key : Bytes) : Prop :=
  ∃ instant, instant ≤ now ∧ store.ttl[key]? = some instant

private theorem foldl_forget (keys : List Bytes) (store : Store) :
    (keys.foldl forget store).expiry = store.expiry ∧
      (∀ key : Bytes, (keys.foldl forget store).ttl[key]? =
        if key ∈ keys then none else store.ttl[key]?) ∧
      ∀ key : Bytes, (keys.foldl forget store).data[key]? =
        if key ∈ keys then none else store.data[key]? := by
  induction keys generalizing store with
  | nil =>
      simp only [List.foldl_nil, List.not_mem_nil, if_false, implies_true, and_self]
  | cons head tail ih =>
      obtain ⟨sameExpiry, ttlAt, dataAt⟩ := ih (store.forget head)
      rw [List.foldl_cons]
      refine ⟨sameExpiry, ?_, ?_⟩
      · intro key
        rw [ttlAt]
        simp only [forget, ExtTreeMap.getElem?_erase, LawfulEqCmp.compare_eq_iff_eq,
          List.mem_cons, eq_comm (a := key)]
        split <;> split <;> simp_all
      · intro key
        rw [dataAt]
        simp only [forget, ExtTreeMap.getElem?_erase, LawfulEqCmp.compare_eq_iff_eq,
          List.mem_cons, eq_comm (a := key)]
        split <;> split <;> simp_all

private theorem firstDue_eq_some {store : Store} {now exp : Instant}
    (first : store.firstDue now = some exp) :
    exp ≤ now ∧ ∃ keys : List Bytes, store.expiry[exp]? = some keys := by
  unfold firstDue at first
  rcases Option.filter_eq_some_iff.mp first with ⟨least, due⟩
  rcases Option.map_eq_some_iff.mp least with ⟨⟨instant, keys⟩, head, same⟩
  subst same
  have member := List.mem_of_mem_head? (Option.mem_def.mpr head)
  exact ⟨of_decide_eq_true due, keys, ExtTreeMap.mem_toList_iff_getElem?_eq_some.mp member⟩

private theorem firstDue_eq_none {store : Store} {now : Instant}
    (none_due : store.firstDue now = none)
    {instant : Instant} {keys : List Bytes} (listed : store.expiry[instant]? = some keys) :
    now < instant := by
  have member := ExtTreeMap.mem_toList_iff_getElem?_eq_some.mpr listed
  have ascending := OrderedScan.toList_ascending store.expiry
  unfold firstDue at none_due
  cases items : store.expiry.toList with
  | nil =>
      rw [items] at member
      cases member
  | cons first rest =>
      rw [items] at none_due member ascending
      have notDue : now < first.1 := by
        by_contra due
        have included : first.1 ≤ now := Nat.not_lt.mp due
        simp only [List.head?_cons, Option.map_some, Option.filter_some, included,
          decide_true, if_true, reduceCtorEq] at none_due
      rcases List.mem_cons.mp member with here | later
      · rw [← here] at notDue
        exact notDue
      · have below : first.1 < instant :=
          Nat.compare_eq_lt.mp (List.rel_of_pairwise_cons ascending later)
        exact Nat.lt_trans notDue below

private theorem WellFormed.dropInstant {store : Store} (wellFormed : store.WellFormed)
    {exp : Instant} {keys : List Bytes} (listed : store.expiry[exp]? = some keys) :
    let dropped := keys.foldl forget { store with expiry := store.expiry.erase exp }
    dropped.WellFormed ∧ dropped.expiry.size + 1 = store.expiry.size ∧
      (∀ key : Bytes, dropped.ttl[key]? =
        if store.ttl[key]? = some exp then none else store.ttl[key]?) ∧
      ∀ key : Bytes, dropped.data[key]? =
        if store.ttl[key]? = some exp then none else store.data[key]? := by
  intro dropped
  obtain ⟨sameExpiry, ttlAt, dataAt⟩ :=
    foldl_forget keys { store with expiry := store.expiry.erase exp }
  have memKeys : ∀ key, key ∈ keys ↔ store.ttl[key]? = some exp := by
    intro key
    rw [wellFormed.inverse key exp]
    constructor
    · intro member
      exact ⟨keys, listed, member⟩
    · rintro ⟨others, alsoListed, member⟩
      rw [listed] at alsoListed
      cases alsoListed
      exact member
  simp only [memKeys] at ttlAt dataAt
  have expiryAt : ∀ instant : Instant, dropped.expiry[instant]? =
      if exp = instant then none else store.expiry[instant]? := by
    intro instant
    rw [sameExpiry]
    simp only [ExtTreeMap.getElem?_erase, LawfulEqCmp.compare_eq_iff_eq]
  refine ⟨⟨?_, ?_, ?_, ?_⟩, ?_, ttlAt, dataAt⟩
  · intro key instant
    rw [ttlAt, expiryAt]
    by_cases sameInstant : exp = instant
    · subst sameInstant
      simp only [if_true, reduceCtorEq, false_and, exists_false, iff_false]
      split
      · intro impossible
        cases impossible
      · assumption
    · simp only [if_neg sameInstant]
      rw [← wellFormed.inverse key instant]
      split
      · rename_i dueNow
        rw [dueNow, Option.some.injEq]
        exact iff_of_false (by intro impossible; cases impossible) sameInstant
      · rfl
  · intro instant others found
    rw [expiryAt] at found
    split at found
    · cases found
    · exact wellFormed.distinct instant others found
  · intro instant empty
    rw [expiryAt] at empty
    split at empty
    · cases empty
    · exact wellFormed.nonempty instant empty
  · intro key instant timed
    rw [ttlAt] at timed
    rw [dataAt]
    split at timed
    · cases timed
    · rename_i notDue
      rw [if_neg notDue]
      exact wellFormed.stored key instant timed
  · rw [sameExpiry, ExtTreeMap.size_erase]
    have contained : store.expiry.contains exp = true := by
      rw [← ExtTreeMap.isSome_getElem?_eq_contains, listed]
      rfl
    have positive : 0 < store.expiry.size := by
      rw [Nat.pos_iff_ne_zero]
      intro zero
      have empty := ExtTreeMap.eq_empty_iff_size_eq_zero.mpr zero
      rw [empty, ExtTreeMap.getElem?_empty] at listed
      cases listed
    rw [if_pos contained]
    exact Nat.sub_add_cancel positive

/-- Given a round for every instant and one more, the loop ends, and what it
drops is exactly what is due. -/
theorem WellFormed.expireLoop (now : Instant) (rounds : Nat) {store : Store}
    (wellFormed : store.WellFormed) (enough : store.expiry.size < rounds) :
    ∃ purged, Store.expireLoop now rounds store = some purged ∧ purged.WellFormed ∧
      ∀ key : Bytes,
        (store.Due now key → purged.data[key]? = none ∧ purged.ttl[key]? = none) ∧
        (¬ store.Due now key → purged.data[key]? = store.data[key]? ∧
          purged.ttl[key]? = store.ttl[key]?) := by
  induction rounds generalizing store with
  | zero => cases enough
  | succ rounds ih =>
      rw [Store.expireLoop]
      cases first : store.firstDue now with
      | none =>
          refine ⟨store, rfl, wellFormed, ?_⟩
          intro key
          refine ⟨?_, fun _ => ⟨rfl, rfl⟩⟩
          rintro ⟨instant, past, timed⟩
          obtain ⟨keys, listed, -⟩ := (wellFormed.inverse key instant).mp timed
          exact absurd (firstDue_eq_none first listed) (Nat.not_lt.mpr past)
      | some exp =>
          obtain ⟨past, keys, listed⟩ := firstDue_eq_some first
          obtain ⟨droppedWellFormed, droppedSize, ttlAt, dataAt⟩ :=
            wellFormed.dropInstant listed
          obtain ⟨purged, ended, purgedWellFormed, exact'⟩ :=
            ih droppedWellFormed (by omega)
          simp only [listed, Option.bind_eq_bind, Option.bind_some]
          refine ⟨purged, ended, purgedWellFormed, ?_⟩
          intro key
          obtain ⟨dropsDue, keepsRest⟩ := exact' key
          by_cases thisRound : store.ttl[key]? = some exp
          · have untimed : ¬ Due (keys.foldl forget
                { store with expiry := store.expiry.erase exp }) now key := by
              rintro ⟨instant, -, timed⟩
              rw [ttlAt, if_pos thisRound] at timed
              cases timed
            obtain ⟨dataKept, ttlKept⟩ := keepsRest untimed
            rw [dataAt, if_pos thisRound] at dataKept
            rw [ttlAt, if_pos thisRound] at ttlKept
            exact ⟨fun _ => ⟨dataKept, ttlKept⟩,
              fun notDue => absurd ⟨exp, past, thisRound⟩ notDue⟩
          · have sameDue : Due (keys.foldl forget
                { store with expiry := store.expiry.erase exp }) now key ↔
                store.Due now key := by
              unfold Due
              rw [ttlAt, if_neg thisRound]
            rw [sameDue] at dropsDue
            rw [sameDue, dataAt, if_neg thisRound, ttlAt, if_neg thisRound] at keepsRest
            exact ⟨dropsDue, keepsRest⟩

theorem WellFormed.deleteExpiredEntries {store : Store} (wellFormed : store.WellFormed)
    (now : Instant) :
    ∃ purged, store.deleteExpiredEntries now = some purged ∧ purged.WellFormed ∧
      ∀ key : Bytes,
        (store.Due now key → purged.data[key]? = none ∧ purged.ttl[key]? = none) ∧
        (¬ store.Due now key → purged.data[key]? = store.data[key]? ∧
          purged.ttl[key]? = store.ttl[key]?) :=
  wellFormed.expireLoop now (store.expiry.size + 1) (Nat.lt_succ_self _)

/-! ### What the operations do to one key -/

def entry (store : Store) (key : Bytes) : Option (Entry Bytes Instant) :=
  store.data[key]?.map (fun value => ⟨value, store.ttl[key]?⟩)

theorem createStore_entry (key : Bytes) : createStore.entry key = none := by
  simp only [entry, createStore, ExtTreeMap.getElem?_empty, Option.map_none]

theorem WellFormed.purge {store : Store} (wellFormed : store.WellFormed) (now : Instant) :
    ∃ purged, store.deleteExpiredEntries now = some purged ∧ purged.WellFormed ∧
      ∀ key, purged.entry key = remains now (store.entry key) := by
  obtain ⟨purged, ended, purgedWellFormed, exact'⟩ := wellFormed.deleteExpiredEntries now
  refine ⟨purged, ended, purgedWellFormed, ?_⟩
  intro key
  obtain ⟨dropsDue, keepsRest⟩ := exact' key
  unfold entry
  by_cases due : store.Due now key
  · obtain ⟨instant, past, timed⟩ := id due
    rw [(dropsDue due).1, timed]
    cases store.data[key]? with
    | none => rfl
    | some value =>
        have expired : ¬ now < instant := Nat.not_lt.mpr past
        simp only [Option.map_none, Option.map_some, ExpiringMap.remains_some,
          ExpiringMap.Entry.live_some, expired, decide_false, Bool.false_eq_true, if_false]
  · obtain ⟨dataKept, ttlKept⟩ := keepsRest due
    rw [dataKept, ttlKept]
    cases store.data[key]? with
    | none => rfl
    | some value =>
        cases timed : store.ttl[key]? with
        | none => rfl
        | some instant =>
            have notYet : now < instant := by
              by_contra past
              exact due ⟨instant, Nat.not_lt.mp past, timed⟩
            simp only [Option.map_some, ExpiringMap.remains_some, ExpiringMap.Entry.live_some,
              notYet, decide_true, if_true]

theorem WellFormed.writeValue {store : Store} (wellFormed : store.WellFormed)
    (key value : Bytes) :
    ∃ written, store.writeValue key value = some written ∧ written.WellFormed ∧
      ∀ other, written.entry other =
        if key = other then some ⟨value, none⟩ else store.entry other := by
  obtain ⟨cleared, ended, clearedWellFormed, sameData, sameTtl⟩ := wellFormed.deleteTtl key
  unfold Store.writeValue
  rw [ended]
  refine ⟨_, rfl, clearedWellFormed.withData _ ?_, ?_⟩
  · intro other instant timed
    rw [ExtTreeMap.getElem?_insert]
    split
    · rfl
    · exact clearedWellFormed.stored other instant timed
  · intro other
    unfold entry
    simp only [sameData, sameTtl, ExtTreeMap.getElem?_insert, ExtTreeMap.getElem?_erase,
      LawfulEqCmp.compare_eq_iff_eq]
    split <;> rfl

private theorem WellFormed.eraseKey {store : Store} (wellFormed : store.WellFormed) (key : Bytes) :
    ∃ cleared, store.deleteTtl key = some cleared ∧
      ({ cleared with data := cleared.data.erase key } : Store).WellFormed ∧
      ∀ other, ({ cleared with data := cleared.data.erase key } : Store).entry other =
        if key = other then none else store.entry other := by
  obtain ⟨cleared, ended, clearedWellFormed, sameData, sameTtl⟩ := wellFormed.deleteTtl key
  refine ⟨cleared, ended, clearedWellFormed.withData _ ?_, ?_⟩
  · intro other instant timed
    rw [ExtTreeMap.getElem?_erase]
    split
    · rename_i same
      rw [sameTtl, ExtTreeMap.getElem?_erase, if_pos same] at timed
      cases timed
    · exact clearedWellFormed.stored other instant timed
  · intro other
    unfold entry
    simp only [sameData, sameTtl, ExtTreeMap.getElem?_erase, LawfulEqCmp.compare_eq_iff_eq]
    split <;> rfl

theorem WellFormed.deleteValue {store : Store} (wellFormed : store.WellFormed) (key : Bytes) :
    ∃ deleted, store.deleteValue key = some deleted ∧ deleted.WellFormed ∧
      ∀ other, deleted.entry other = if key = other then none else store.entry other := by
  obtain ⟨cleared, ended, erasedWellFormed, entryAt⟩ := wellFormed.eraseKey key
  unfold Store.deleteValue
  rw [ended]
  exact ⟨_, rfl, erasedWellFormed, entryAt⟩

theorem WellFormed.deleteValueIfMatch {store : Store} (wellFormed : store.WellFormed)
    (key expected : Bytes) :
    ∃ deleted, store.deleteValueIfMatch key expected =
        some (decide (store.data[key]? = some expected), deleted) ∧ deleted.WellFormed ∧
      ∀ other, deleted.entry other =
        if key = other ∧ store.data[key]? = some expected then none else store.entry other := by
  unfold Store.deleteValueIfMatch
  by_cases matched : store.data[key]? = some expected
  · obtain ⟨cleared, ended, erasedWellFormed, entryAt⟩ := wellFormed.eraseKey key
    simp only [ended, matched, if_true, decide_true, and_true]
    exact ⟨_, rfl, erasedWellFormed, entryAt⟩
  · simp only [matched, decide_false, and_false, if_false]
    exact ⟨store, rfl, wellFormed, fun _ => rfl⟩

theorem WellFormed.storeUntil {store cleared : Store} {key : Bytes}
    (clearedWellFormed : cleared.WellFormed) (sameData : cleared.data = store.data)
    (sameTtl : cleared.ttl = store.ttl.erase key) (value : Bytes) (instant : Instant) :
    ({ cleared with data := cleared.data.insert key value }.schedule key instant).WellFormed ∧
      ∀ other, ({ cleared with data := cleared.data.insert key value }.schedule
          key instant).entry other =
        if key = other then some ⟨value, some instant⟩ else store.entry other := by
  have untimed : cleared.ttl[key]? = none := by
    rw [sameTtl, ExtTreeMap.getElem?_erase_self]
  have writtenWellFormed :
      ({ cleared with data := cleared.data.insert key value } : Store).WellFormed := by
    apply clearedWellFormed.withData
    intro other at' timed
    rw [ExtTreeMap.getElem?_insert]
    split
    · rfl
    · exact clearedWellFormed.stored other at' timed
  constructor
  · apply writtenWellFormed.schedule instant _ untimed
    rw [ExtTreeMap.getElem?_insert_self]
    rfl
  · intro other
    unfold entry Store.schedule
    simp only [sameData, sameTtl, ExtTreeMap.getElem?_insert, ExtTreeMap.getElem?_erase,
      LawfulEqCmp.compare_eq_iff_eq]
    split <;> rfl

theorem WellFormed.writeValueWithTtl {store : Store} (wellFormed : store.WellFormed)
    (key value : Bytes) (instant : Instant) :
    ∃ written, store.writeValueWithTtl key value instant = some written ∧
      written.WellFormed ∧ ∀ other, written.entry other =
        if key = other then some ⟨value, some instant⟩ else store.entry other := by
  obtain ⟨cleared, ended, clearedWellFormed, sameData, sameTtl⟩ := wellFormed.deleteTtl key
  obtain ⟨writtenWellFormed, entryAt⟩ :=
    clearedWellFormed.storeUntil sameData sameTtl value instant
  unfold Store.writeValueWithTtl
  rw [ended]
  exact ⟨_, rfl, writtenWellFormed, entryAt⟩

theorem WellFormed.writeTtl {store : Store} (wellFormed : store.WellFormed) (key : Bytes)
    (instant : Instant) :
    ∃ written, store.writeTtl key instant = some written ∧ written.WellFormed ∧
      ∀ other, written.entry other =
        if key = other then
          (store.entry key).map (fun found => ⟨found.value, some instant⟩)
        else store.entry other := by
  unfold Store.writeTtl
  rw [← ExtTreeMap.isSome_getElem?_eq_contains]
  cases held : store.data[key]? with
  | none =>
      refine ⟨store, rfl, wellFormed, ?_⟩
      intro other
      split
      · rename_i same
        subst same
        simp only [entry, held, Option.map_none]
      · rfl
  | some value =>
      obtain ⟨cleared, ended, clearedWellFormed, sameData, sameTtl⟩ := wellFormed.deleteTtl key
      obtain ⟨writtenWellFormed, entryAt⟩ :=
        clearedWellFormed.storeUntil sameData sameTtl value instant
      -- rewriting the value that is there leaves the data as it is
      have unchanged : cleared.data.insert key value = cleared.data := by
        apply ExtTreeMap.ext_getElem?
        intro other
        rw [ExtTreeMap.getElem?_insert]
        split
        · rename_i same
          rw [← LawfulEqCmp.eq_of_compare same, sameData, held]
        · rfl
      rw [unchanged] at writtenWellFormed entryAt
      simp only [Option.isSome_some, if_true, ended, Option.bind_eq_bind, Option.bind_some]
      refine ⟨_, rfl, writtenWellFormed, ?_⟩
      intro other
      rw [entryAt]
      simp only [entry, held, Option.map_some]

/-! ### Runs of the store -/

/-- The methods of the store that change it. -/
inductive StoreCall where
  | deleteExpiredEntries (now : Instant)
  | writeValue (key value : Bytes)
  | deleteValue (key : Bytes)
  | writeTtl (key : Bytes) (instant : Instant)
  | writeValueWithTtl (key value : Bytes) (instant : Instant)
  | deleteValueIfMatch (key expected : Bytes)

def apply (store : Store) : StoreCall → Option Store
  | .deleteExpiredEntries now => store.deleteExpiredEntries now
  | .writeValue key value => store.writeValue key value
  | .deleteValue key => store.deleteValue key
  | .writeTtl key instant => store.writeTtl key instant
  | .writeValueWithTtl key value instant => store.writeValueWithTtl key value instant
  | .deleteValueIfMatch key expected => (store.deleteValueIfMatch key expected).map Prod.snd

theorem WellFormed.apply {store : Store} (wellFormed : store.WellFormed) (call : StoreCall) :
    ∃ after, store.apply call = some after ∧ after.WellFormed := by
  cases call with
  | deleteExpiredEntries now =>
      obtain ⟨after, ended, kept, -⟩ := wellFormed.deleteExpiredEntries now
      exact ⟨after, ended, kept⟩
  | writeValue key value =>
      obtain ⟨after, ended, kept, -⟩ := wellFormed.writeValue key value
      exact ⟨after, ended, kept⟩
  | deleteValue key =>
      obtain ⟨after, ended, kept, -⟩ := wellFormed.deleteValue key
      exact ⟨after, ended, kept⟩
  | writeTtl key instant =>
      obtain ⟨after, ended, kept, -⟩ := wellFormed.writeTtl key instant
      exact ⟨after, ended, kept⟩
  | writeValueWithTtl key value instant =>
      obtain ⟨after, ended, kept, -⟩ := wellFormed.writeValueWithTtl key value instant
      exact ⟨after, ended, kept⟩
  | deleteValueIfMatch key expected =>
      obtain ⟨after, ended, kept, -⟩ := wellFormed.deleteValueIfMatch key expected
      refine ⟨after, ?_, kept⟩
      simp only [Store.apply, ended, Option.map_some]

private theorem WellFormed.foldlM_apply {store : Store} (wellFormed : store.WellFormed)
    (calls : List StoreCall) :
    ∃ after, calls.foldlM Store.apply store = some after ∧ after.WellFormed := by
  induction calls generalizing store with
  | nil => exact ⟨store, rfl, wellFormed⟩
  | cons call rest ih =>
      obtain ⟨next, ended, kept⟩ := wellFormed.apply call
      obtain ⟨after, finished, stillKept⟩ := ih kept
      refine ⟨after, ?_, stillKept⟩
      rw [List.foldlM_cons, ended]
      exact finished

/-- No run of the store panics, its three maps stay in step, the helper that
removes a deadline cannot panic on any key, and a purge at any time ends having
removed exactly what is due. -/
theorem store_runs_stay_in_step (calls : List StoreCall) :
    ∃ store, calls.foldlM Store.apply createStore = some store ∧
      (∀ (key : Bytes) (instant : Instant), store.ttl[key]? = some instant ↔
        ∃ keys : List Bytes, store.expiry[instant]? = some keys ∧ key ∈ keys) ∧
      (∀ key : Bytes, store.scheduledKeys.count key =
        if store.ttl[key]?.isSome then 1 else 0) ∧
      (∀ instant : Instant, store.expiry[instant]? ≠ some []) ∧
      (∀ key : Bytes, store.ttl[key]?.isSome → store.data[key]?.isSome) ∧
      (∀ key : Bytes, (store.deleteTtl key).isSome) ∧
      ∀ now : Instant, ∃ purged, store.deleteExpiredEntries now = some purged ∧
        ∀ key : Bytes,
          (store.Due now key → purged.data[key]? = none ∧ purged.ttl[key]? = none) ∧
          (¬ store.Due now key → purged.data[key]? = store.data[key]? ∧
            purged.ttl[key]? = store.ttl[key]?) := by
  obtain ⟨store, ended, wellFormed⟩ := createStore_wellFormed.foldlM_apply calls
  refine ⟨store, ended, wellFormed.inverse, ?_, wellFormed.nonempty, ?_, ?_, ?_⟩
  · intro key
    rw [wellFormed.scheduledKeys_nodup.count]
    simp only [wellFormed.mem_scheduledKeys]
  · intro key timed
    obtain ⟨instant, found⟩ := Option.isSome_iff_exists.mp timed
    exact wellFormed.stored key instant found
  · intro key
    obtain ⟨cleared, removed, -⟩ := wellFormed.deleteTtl key
    rw [removed]
    rfl
  · intro now
    obtain ⟨purged, purgeEnds, -, exact'⟩ := wellFormed.deleteExpiredEntries now
    exact ⟨purged, purgeEnds, exact'⟩

end Store

end TricPlus
