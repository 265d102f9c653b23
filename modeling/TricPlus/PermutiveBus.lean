import TricPlus.Tric
import TricPlus.SqliteBus

/-!
The two-tier bus.  Each of its methods is a program over calls on the two tiers;
each of these calls is one critical section, and between them other workers may
make theirs.
-/

namespace TricPlus

open AtomicProgram

inductive Tier where
  | transient
  | persistent
  deriving DecidableEq

structure TierCall where
  tier : Tier
  request : DataBusCall

@[reducible] def tiers : Signature where
  Call := TierCall
  Reply := fun call => call.request.Reply

def cachePromotionSeconds : Nat := 60

/-- The state of both tiers. -/
structure PermutiveBus where
  transient : SoundTric
  persistent : SqliteBus

/-- What one call does, on the tier it is made on. -/
def bothTiers (site : Site) : Object tiers Instant PermutiveBus where
  step := fun call now bus =>
    match call.tier with
    | .transient =>
        let (reply, after) := SoundTric.step call.request now bus.transient
        (some reply, { bus with transient := after })
    | .persistent =>
        let (reply, after) := SqliteBus.step site call.request bus.persistent
        (reply, { bus with persistent := after })

def onTransient (request : DataBusCall) : Program tiers request.Reply :=
  Program.perform tiers ⟨.transient, request⟩

def onPersistent (request : DataBusCall) : Program tiers request.Reply :=
  Program.perform tiers ⟨.persistent, request⟩

def mergeResults (transientResults persistentResults : List (Bytes × Bytes)) :
    List (Bytes × Bytes) :=
  let transientKeys := transientResults.map Prod.fst
  OrderedScan.sortByKey
    (transientResults ++
      persistentResults.filter (fun pair => !transientKeys.contains pair.1))

namespace PermutiveBus

def readValue (key : Bytes) : Program tiers (Option Bytes) := do
  match ← onTransient (.readValue key) with
  | some value => return some value
  | none =>
      match ← onPersistent (.readValue key) with
      | none => return none
      | some value =>
          onTransient (.writeValue key value)
          onTransient (.writeTtl key (fromSecs cachePromotionSeconds))
          return some value

def writeValue (key value : Bytes) : Program tiers Unit := do
  onPersistent (.writeValue key value)
  onTransient (.deleteValue key)

def deleteValue (key : Bytes) : Program tiers Unit := do
  onTransient (.deleteValue key)
  onPersistent (.deleteValue key)

def deleteValueIfMatch (key expected : Bytes) : Program tiers Bool := do
  let transientMatch ← onTransient (.deleteValueIfMatch key expected)
  let persistentMatch ← onPersistent (.deleteValueIfMatch key expected)
  return transientMatch || persistentMatch

def writeTtl (key : Bytes) (duration : Duration) : Program tiers Unit := do
  match ← onPersistent (.readValue key) with
  | some value =>
      onPersistent (.deleteValue key)
      onTransient (.writeValue key value)
      onTransient (.writeTtl key duration)
  | none => onTransient (.writeTtl key duration)

def writeValueWithTtl (key value : Bytes) (duration : Duration) : Program tiers Unit := do
  onPersistent (.deleteValue key)
  onTransient (.writeValueWithTtl key value duration)

def readTtlRemaining (key : Bytes) : Program tiers (Option Duration) :=
  onTransient (.readTtlRemaining key)

def findByPrefix (stem : Bytes) : Program tiers (List (Bytes × Bytes)) := do
  let transientResults ← onTransient (.findByPrefix stem)
  let persistentResults ← onPersistent (.findByPrefix stem)
  return mergeResults transientResults persistentResults

/-- The bus as an implementation of `DataBus`. -/
def call (request : DataBusCall) : Program tiers request.Reply :=
  match request with
  | .readValue key => readValue key
  | .writeValue key value => writeValue key value
  | .deleteValue key => deleteValue key
  | .deleteValueIfMatch key expected => deleteValueIfMatch key expected
  | .writeTtl key duration => writeTtl key duration
  | .writeValueWithTtl key value duration => writeValueWithTtl key value duration
  | .readTtlRemaining key => readTtlRemaining key
  | .findByPrefix stem => findByPrefix stem

end PermutiveBus

def registryKey (site : Site) (slotId : Nat) : Bytes :=
  asBytes "_instance:" ++ site.slotName slotId

def registryValue (site : Site) (slotId : Nat) : Bytes :=
  if slotId = 0 then asBytes "active" else asBytes "clone:" ++ site.slotName 0

def writeRegistry (site : Site) : List Nat → Program tiers Unit
  | [] => return ()
  | slotId :: rest => do
      onTransient (.writeValue (registryKey site slotId) (registryValue site slotId))
      writeRegistry site rest

/-- A new bus over the files of its slot; writing the registry reads the clock. -/
def createPermutiveBus (site : Site) (disk : Disk) (clock : Nat → Instant) (ticks : Nat) :
    Outcome PermutiveBus Unit :=
  run (bothTiers site) clock (writeRegistry site (findInstanceSlots site)) ticks
    { transient := .create
      persistent := createSqliteBus site disk }

def replay (site : Site) (clock : Nat → Instant) :
    List DataBusCall → Nat → PermutiveBus →
      Option (List ((request : DataBusCall) × request.Reply) × Nat × PermutiveBus)
  | [], ticks, bus => some ([], ticks, bus)
  | request :: rest, ticks, bus =>
      match run (bothTiers site) clock (PermutiveBus.call request) ticks bus with
      | ⟨some reply, later, after⟩ => do
          let (replies, last) ← replay site clock rest later after
          some (⟨request, reply⟩ :: replies, last)
      | ⟨none, _, _⟩ => none

end TricPlus
