import TricPlus.DataBus
import TricPlus.Lib.OrderedScan

/-!
The transient key-value store: an ordered map of values, the deadline of every
key that has one, and for each instant the keys due then.  A `none` result is a
panic of one of the `unwrap` calls, or the purge loop running out of the rounds
it is given.
-/

namespace TricPlus

open Std (ExtTreeMap)

structure Store where
  data : ExtTreeMap Bytes Bytes
  expiry : ExtTreeMap Instant (List Bytes)
  ttl : ExtTreeMap Bytes Instant

def createStore : Store where
  data := ∅
  expiry := ∅
  ttl := ∅

/-- `Vec::swap_remove`: the last element takes the removed one's place. -/
def swapRemove {α : Type} (items : List α) (index : Nat) : List α :=
  match items.getLast? with
  | none => items
  | some last => (items.set index last).dropLast

namespace Store

/-- `self.expiry.range(..=now).next()`. -/
def firstDue (store : Store) (now : Instant) : Option Instant :=
  (store.expiry.toList.head?.map Prod.fst).filter (fun instant => instant ≤ now)

def forget (store : Store) (key : Bytes) : Store :=
  { store with
    ttl := store.ttl.erase key
    data := store.data.erase key }

def expireLoop (now : Instant) : Nat → Store → Option Store
  | 0, _ => none
  | rounds + 1, store =>
      match store.firstDue now with
      | none => some store
      | some exp => do
          let keys ← store.expiry[exp]?
          expireLoop now rounds
            (keys.foldl forget { store with expiry := store.expiry.erase exp })

/-- Every round removes one instant of `expiry`. -/
def deleteExpiredEntries (store : Store) (now : Instant) : Option Store :=
  expireLoop now (store.expiry.size + 1) store

def deleteTtl (store : Store) (key : Bytes) : Option Store :=
  match store.ttl[key]? with
  | none => some store
  | some instant => do
      let keys ← store.expiry[instant]?
      let index ← keys.findIdx? (fun candidate => candidate == key)
      let left := swapRemove keys index
      some
        { store with
          ttl := store.ttl.erase key
          expiry :=
            if left.isEmpty then store.expiry.erase instant
            else store.expiry.insert instant left }

def readValue (store : Store) (key : Bytes) : Option Bytes :=
  store.data[key]?

def writeValue (store : Store) (key value : Bytes) : Option Store := do
  let cleared ← store.deleteTtl key
  some { cleared with data := cleared.data.insert key value }

def deleteValue (store : Store) (key : Bytes) : Option Store := do
  let cleared ← store.deleteTtl key
  some { cleared with data := cleared.data.erase key }

/-- `ttl.insert` and `expiry.entry(instant).or_default().push(key)`. -/
def schedule (store : Store) (key : Bytes) (instant : Instant) : Store :=
  { store with
    ttl := store.ttl.insert key instant
    expiry := store.expiry.insert instant ((store.expiry[instant]?.getD []) ++ [key]) }

def writeTtl (store : Store) (key : Bytes) (instant : Instant) : Option Store :=
  if store.data.contains key then do
    let cleared ← store.deleteTtl key
    some (cleared.schedule key instant)
  else some store

def writeValueWithTtl (store : Store) (key value : Bytes) (instant : Instant) :
    Option Store := do
  let cleared ← store.deleteTtl key
  some ({ cleared with data := cleared.data.insert key value }.schedule key instant)

def deleteValueIfMatch (store : Store) (key expected : Bytes) : Option (Bool × Store) :=
  if store.data[key]? = some expected then do
    let cleared ← store.deleteTtl key
    some (true, { cleared with data := cleared.data.erase key })
  else some (false, store)

/-- `checked_duration_since`: nothing when the deadline lies before `now`. -/
def readTtlRemaining (store : Store) (key : Bytes) (now : Instant) : Option Duration := do
  let expiryInstant ← store.ttl[key]?
  if now ≤ expiryInstant then some (expiryInstant - now) else none

def findByPrefix (store : Store) (stem : Bytes) : List (Bytes × Bytes) :=
  OrderedScan.prefixScan stem store.data.toList

end Store

end TricPlus
