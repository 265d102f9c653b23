import TricPlus.DataBus
import TricPlus.Lib.BigEndian

/-!
The sessions of network clients.

Responses of a session are encrypted under its key with a counter as the nonce.
Each session starts its counter anew, so no nonce repeats under a key as long as
no two sessions share one.
-/

namespace TricPlus

open Std (ExtTreeMap LawfulEqCmp)
open BigEndian

/-- The cipher of the library, with a key, a nonce and a text. -/
structure Aead (Key : Type) where
  encrypt : Key → Bytes → Bytes → Option Bytes
  decrypt : Key → Bytes → Bytes → Option Bytes

structure Session (Key : Type) where
  label : Bytes
  cipher : Key
  nonceCounter : Nat

structure SessionTable (Key : Type) where
  sessions : ExtTreeMap Bytes (Session Key)
  maxSessions : Nat

variable {Key : Type}

def createSessionTable (maxSessions : Nat) : SessionTable Key where
  sessions := ∅
  maxSessions := maxSessions

/-- Four zero bytes, then the counter. -/
def counterNonce (counter : Nat) : Bytes :=
  List.replicate 4 0 ++ toBeBytes 8 counter

/-- Where the counter comes back to where it was. -/
def counterPeriod : Nat := 2 ^ 64

namespace SessionTable

def createSession (table : SessionTable Key) (sessionId label : Bytes) (key : Key) :
    Bool × SessionTable Key :=
  if table.maxSessions ≤ table.sessions.size then (false, table)
  else
    (true,
      { table with
        sessions := table.sessions.insert sessionId
          { label := label
            cipher := key
            nonceCounter := 0 } })

/-- Count a response: the key and the nonce it is encrypted with. -/
def nextNonce (table : SessionTable Key) (sessionId : Bytes) :
    Option ((Key × Bytes) × SessionTable Key) :=
  match table.sessions[sessionId]? with
  | none => none
  | some session =>
      let counter := (session.nonceCounter + 1) % counterPeriod
      some ((session.cipher, counterNonce counter),
        { table with
          sessions := table.sessions.insert sessionId { session with nonceCounter := counter } })

def encryptResponse (aead : Aead Key) (table : SessionTable Key) (sessionId plaintext : Bytes) :
    Option Bytes × SessionTable Key :=
  match table.nextNonce sessionId with
  | none => (none, table)
  | some ((key, nonce), after) => (aead.encrypt key nonce plaintext, after)

def decryptRequest (aead : Aead Key) (table : SessionTable Key)
    (sessionId ciphertext nonce : Bytes) : Option Bytes :=
  match table.sessions[sessionId]? with
  | none => none
  | some session => aead.decrypt session.cipher nonce ciphertext

def removeSession (table : SessionTable Key) (sessionId : Bytes) : SessionTable Key :=
  { table with sessions := table.sessions.erase sessionId }

def readSessionCount (table : SessionTable Key) : Nat :=
  table.sessions.size

end SessionTable

/-! ### Runs -/

inductive SessionCall (Key : Type) where
  | createSession (sessionId label : Bytes) (key : Key)
  | encryptResponse (sessionId plaintext : Bytes)
  | decryptRequest (sessionId ciphertext nonce : Bytes)
  | removeSession (sessionId : Bytes)
  | readSessionCount

def SessionCall.sessionId? : SessionCall Key → Option Bytes
  | .createSession sessionId _ _ => some sessionId
  | .encryptResponse sessionId _ => some sessionId
  | .decryptRequest sessionId _ _ => some sessionId
  | .removeSession sessionId => some sessionId
  | .readSessionCount => none

def SessionTable.step (aead : Aead Key) (table : SessionTable Key) :
    SessionCall Key → SessionTable Key
  | .createSession sessionId label key => (table.createSession sessionId label key).2
  | .encryptResponse sessionId plaintext => (table.encryptResponse aead sessionId plaintext).2
  | .decryptRequest _ _ _ => table
  | .removeSession sessionId => table.removeSession sessionId
  | .readSessionCount => table

/-- A table, the keys of the sessions created on it, and what was encrypted with, in
the order in which it happened. -/
structure SessionLedger (Key : Type) where
  table : SessionTable Key
  created : List Key
  used : List (Key × Bytes)

namespace SessionLedger

def start (maxSessions : Nat) : SessionLedger Key where
  table := createSessionTable maxSessions
  created := []
  used := []

def createdBy (table : SessionTable Key) : SessionCall Key → List Key
  | .createSession sessionId label key =>
      if (table.createSession sessionId label key).1 then [key] else []
  | _ => []

def usedBy (table : SessionTable Key) : SessionCall Key → List (Key × Bytes)
  | .encryptResponse sessionId _ => ((table.nextNonce sessionId).map Prod.fst).toList
  | _ => []

def step (aead : Aead Key) (ledger : SessionLedger Key) (call : SessionCall Key) :
    SessionLedger Key where
  table := ledger.table.step aead call
  created := ledger.created ++ createdBy ledger.table call
  used := ledger.used ++ usedBy ledger.table call

def run (aead : Aead Key) (calls : List (SessionCall Key)) (ledger : SessionLedger Key) :
    SessionLedger Key :=
  calls.foldl (step aead) ledger

/-- What the ledger notes of a response is the key and the nonce that the cipher is called with,
and it notes nothing where the cipher is not called. -/
theorem encryptResponse_usedBy (aead : Aead Key) (table : SessionTable Key)
    (sessionId plaintext : Bytes) :
    (table.encryptResponse aead sessionId plaintext).1 =
      (usedBy table (.encryptResponse sessionId plaintext)).head?.bind
        (fun pair => aead.encrypt pair.1 pair.2 plaintext) := by
  change _ = ((table.nextNonce sessionId).map Prod.fst).toList.head?.bind _
  unfold SessionTable.encryptResponse
  cases table.nextNonce sessionId with
  | none => rfl
  | some next => rfl

def noncesOf [DecidableEq Key] (key : Key) (used : List (Key × Bytes)) : List Bytes :=
  (used.filter (fun pair => decide (pair.1 = key))).map Prod.snd

end SessionLedger

private theorem counterNonce_injective {left right : Nat} (leftFits : left < counterPeriod)
    (rightFits : right < counterPeriod) (same : counterNonce left = counterNonce right) :
    left = right := by
  have bytes : toBeBytes 8 left = toBeBytes 8 right := List.append_cancel_left same
  have leftBack : fromBeBytes (toBeBytes 8 left) = left :=
    fromBeBytes_toBeBytes_of_lt (leftFits.trans_eq (by decide))
  have rightBack : fromBeBytes (toBeBytes 8 right) = right :=
    fromBeBytes_toBeBytes_of_lt (rightFits.trans_eq (by decide))
  rw [← leftBack, bytes, rightBack]

def Counted (nonces : List Bytes) : Prop :=
  nonces = (List.range nonces.length).map (fun index => counterNonce ((index + 1) % counterPeriod))

theorem Counted.next {nonces : List Bytes} (counted : Counted nonces) :
    Counted (nonces ++ [counterNonce ((nonces.length + 1) % counterPeriod)]) := by
  unfold Counted at counted ⊢
  rw [List.length_append, List.length_singleton, List.range_succ, List.map_append, ← counted]
  rfl

theorem Counted.nodup {nonces : List Bytes} (counted : Counted nonces)
    (few : nonces.length < counterPeriod) : nonces.Nodup := by
  rw [counted]
  apply List.Nodup.map_on _ List.nodup_range
  intro left leftMember right rightMember same
  have leftSmall := List.mem_range.mp leftMember
  have rightSmall := List.mem_range.mp rightMember
  rw [Nat.mod_eq_of_lt (by omega), Nat.mod_eq_of_lt (by omega)] at same
  have equal := counterNonce_injective (by omega) (by omega) same
  omega

namespace SessionTable

variable {table : SessionTable Key} {sessionId other : Bytes}

private theorem createSession_cases (table : SessionTable Key) (sessionId label : Bytes)
    (key : Key) :
    (table.maxSessions ≤ table.sessions.size ∧
      table.createSession sessionId label key = (false, table)) ∨
    (table.sessions.size < table.maxSessions ∧
      table.createSession sessionId label key =
        (true,
          { table with
            sessions := table.sessions.insert sessionId
              { label := label
                cipher := key
                nonceCounter := 0 } })) := by
  unfold createSession
  by_cases full : table.maxSessions ≤ table.sessions.size
  · exact .inl ⟨full, if_pos full⟩
  · exact .inr ⟨by omega, if_neg full⟩

private theorem nextNonce_missing (missing : table.sessions[sessionId]? = none) :
    table.nextNonce sessionId = none := by
  unfold nextNonce
  rw [missing]

private theorem nextNonce_found {session : Session Key}
    (found : table.sessions[sessionId]? = some session) :
    table.nextNonce sessionId =
      some ((session.cipher, counterNonce ((session.nonceCounter + 1) % counterPeriod)),
        { table with
          sessions := table.sessions.insert sessionId
            { session with nonceCounter := (session.nonceCounter + 1) % counterPeriod } }) := by
  unfold nextNonce
  rw [found]

private theorem encryptResponse_missing (aead : Aead Key) (plaintext : Bytes)
    (missing : table.sessions[sessionId]? = none) :
    table.encryptResponse aead sessionId plaintext = (none, table) := by
  unfold encryptResponse
  rw [nextNonce_missing missing]

theorem encryptResponse_found (aead : Aead Key) (plaintext : Bytes) {session : Session Key}
    (found : table.sessions[sessionId]? = some session) :
    table.encryptResponse aead sessionId plaintext =
      (aead.encrypt session.cipher
          (counterNonce ((session.nonceCounter + 1) % counterPeriod)) plaintext,
        { table with
          sessions := table.sessions.insert sessionId
            { session with nonceCounter := (session.nonceCounter + 1) % counterPeriod } }) := by
  unfold encryptResponse
  rw [nextNonce_found found]

private theorem removeSession_missing (missing : table.sessions[sessionId]? = none) :
    table.removeSession sessionId = table := by
  have same : table.sessions.erase sessionId = table.sessions := by
    apply ExtTreeMap.ext_getElem?
    intro other
    rw [ExtTreeMap.getElem?_erase]
    split
    next equal =>
      rw [← LawfulEqCmp.eq_of_compare equal]
      exact missing.symm
    next => rfl
  unfold removeSession
  rw [same]

private theorem getElem?_insert_other (sessions : ExtTreeMap Bytes (Session Key))
    (session : Session Key)
    (different : sessionId ≠ other) :
    (sessions.insert sessionId session)[other]? = sessions[other]? := by
  rw [ExtTreeMap.getElem?_insert, if_neg]
  intro equal
  exact different (LawfulEqCmp.eq_of_compare equal)

theorem step_other (aead : Aead Key) (table : SessionTable Key) (call : SessionCall Key)
    (different : call.sessionId? ≠ some other) :
    (table.step aead call).sessions[other]? = table.sessions[other]? := by
  cases call with
  | createSession sessionId label key =>
      have apart : sessionId ≠ other := fun same => different (congrArg some same)
      change (table.createSession sessionId label key).2.sessions[other]? = _
      rcases createSession_cases table sessionId label key with ⟨-, same⟩ | ⟨-, same⟩
      · rw [same]
      · rw [same]
        exact getElem?_insert_other _ _ apart
  | encryptResponse sessionId plaintext =>
      have apart : sessionId ≠ other := fun same => different (congrArg some same)
      change (table.encryptResponse aead sessionId plaintext).2.sessions[other]? = _
      cases found : table.sessions[sessionId]? with
      | none => rw [encryptResponse_missing aead plaintext found]
      | some session =>
          rw [encryptResponse_found aead plaintext found]
          exact getElem?_insert_other _ _ apart
  | decryptRequest sessionId ciphertext nonce => rfl
  | removeSession sessionId =>
      have apart : sessionId ≠ other := fun same => different (congrArg some same)
      change (table.sessions.erase sessionId)[other]? = _
      rw [ExtTreeMap.getElem?_erase, if_neg]
      intro equal
      exact apart (LawfulEqCmp.eq_of_compare equal)
  | readSessionCount => rfl

private theorem step_maxSessions (aead : Aead Key) (table : SessionTable Key)
    (call : SessionCall Key) :
    (table.step aead call).maxSessions = table.maxSessions := by
  cases call with
  | createSession sessionId label key =>
      change (table.createSession sessionId label key).2.maxSessions = _
      rcases createSession_cases table sessionId label key with ⟨-, same⟩ | ⟨-, same⟩ <;> rw [same]
  | encryptResponse sessionId plaintext =>
      change (table.encryptResponse aead sessionId plaintext).2.maxSessions = _
      cases found : table.sessions[sessionId]? with
      | none => rw [encryptResponse_missing aead plaintext found]
      | some session => rw [encryptResponse_found aead plaintext found]
  | decryptRequest sessionId ciphertext nonce => rfl
  | removeSession sessionId => rfl
  | readSessionCount => rfl

private theorem step_size_le (aead : Aead Key) (table : SessionTable Key) (call : SessionCall Key)
    (bounded : table.sessions.size ≤ table.maxSessions) :
    (table.step aead call).sessions.size ≤ table.maxSessions := by
  cases call with
  | createSession sessionId label key =>
      change (table.createSession sessionId label key).2.sessions.size ≤ _
      rcases createSession_cases table sessionId label key with ⟨-, same⟩ | ⟨room, same⟩
      · rw [same]
        exact bounded
      · rw [same]
        exact ExtTreeMap.size_insert_le.trans room
  | encryptResponse sessionId plaintext =>
      change (table.encryptResponse aead sessionId plaintext).2.sessions.size ≤ _
      cases found : table.sessions[sessionId]? with
      | none =>
          rw [encryptResponse_missing aead plaintext found]
          exact bounded
      | some session =>
          have present : table.sessions.contains sessionId = true := by
            rw [ExtTreeMap.contains_eq_isSome_getElem?, found]
            rfl
          rw [encryptResponse_found aead plaintext found, ExtTreeMap.size_insert, if_pos present]
          exact bounded
  | decryptRequest sessionId ciphertext nonce => exact bounded
  | removeSession sessionId => exact ExtTreeMap.size_erase_le.trans bounded
  | readSessionCount => exact bounded

end SessionTable

namespace SessionLedger

variable [DecidableEq Key]

structure Sound (ledger : SessionLedger Key) : Prop where
  counted : ∀ key, Counted (noncesOf key ledger.used)
  known : ∀ pair ∈ ledger.used, pair.1 ∈ ledger.created
  live : ∀ (sessionId : Bytes) (session : Session Key),
    ledger.table.sessions[sessionId]? = some session →
      session.cipher ∈ ledger.created ∧
      session.nonceCounter = (noncesOf session.cipher ledger.used).length % counterPeriod
  apart : ∀ (first second : Bytes) (one other : Session Key),
    ledger.table.sessions[first]? = some one → ledger.table.sessions[second]? = some other →
      one.cipher = other.cipher → first = second

private theorem noncesOf_append (key : Key) (used more : List (Key × Bytes)) :
    noncesOf key (used ++ more) = noncesOf key used ++ noncesOf key more := by
  unfold noncesOf
  rw [List.filter_append, List.map_append]

private theorem noncesOf_unknown {key : Key} {used : List (Key × Bytes)}
    (unused : ∀ pair ∈ used, pair.1 ≠ key) : noncesOf key used = [] := by
  unfold noncesOf
  rw [List.map_eq_nil_iff, List.filter_eq_nil_iff]
  intro pair member
  simpa using unused pair member

private theorem noncesOf_single_self (key : Key) (nonce : Bytes) :
    noncesOf key [(key, nonce)] = [nonce] := by
  simp [noncesOf]

private theorem noncesOf_single_other {key other : Key} (nonce : Bytes) (different : other ≠ key) :
    noncesOf key [(other, nonce)] = [] := by
  simp [noncesOf, different]

private theorem start_sound (maxSessions : Nat) :
    (start maxSessions : SessionLedger Key).Sound where
  counted := fun _ => rfl
  known := by
    intro pair member
    cases member
  live := by
    intro sessionId session found
    change (∅ : ExtTreeMap Bytes (Session Key))[sessionId]? = some session at found
    rw [ExtTreeMap.getElem?_empty] at found
    cases found
  apart := by
    intro first second one other found
    change (∅ : ExtTreeMap Bytes (Session Key))[first]? = some one at found
    rw [ExtTreeMap.getElem?_empty] at found
    cases found

theorem Sound.created {ledger : SessionLedger Key} (sound : ledger.Sound) {sessionId label : Bytes}
    {key : Key} (fresh : key ∉ ledger.created) :
    Sound
      { table :=
          { ledger.table with
            sessions := ledger.table.sessions.insert sessionId
              { label := label
                cipher := key
                nonceCounter := 0 } }
        created := ledger.created ++ [key]
        used := ledger.used ++ [] } := by
  have unused : noncesOf key ledger.used = [] := by
    apply noncesOf_unknown
    intro pair member same
    exact fresh (same ▸ sound.known pair member)
  rw [List.append_nil]
  constructor
  · exact sound.counted
  · intro pair member
    exact List.mem_append_left _ (sound.known pair member)
  · intro about session found
    rw [ExtTreeMap.getElem?_insert] at found
    split at found
    · cases found
      exact ⟨List.mem_append_right _ (List.mem_singleton_self key), by rw [unused]; rfl⟩
    · have before := sound.live about session found
      exact ⟨List.mem_append_left _ before.1, before.2⟩
  · intro first second one other foundOne foundOther same
    rw [ExtTreeMap.getElem?_insert] at foundOne foundOther
    split at foundOne
    next firstHere =>
      split at foundOther
      next secondHere =>
        exact (LawfulEqCmp.eq_of_compare firstHere).symm.trans
          (LawfulEqCmp.eq_of_compare secondHere)
      next =>
        cases foundOne
        have used : key = other.cipher := same
        exact absurd (used ▸ (sound.live second other foundOther).1) fresh
    next =>
      split at foundOther
      next =>
        cases foundOther
        have used : one.cipher = key := same
        exact absurd (used ▸ (sound.live first one foundOne).1) fresh
      next => exact sound.apart first second one other foundOne foundOther same

theorem Sound.encrypted {ledger : SessionLedger Key} (sound : ledger.Sound) {sessionId : Bytes}
    {session : Session Key} (found : ledger.table.sessions[sessionId]? = some session) :
    Sound
      { table :=
          { ledger.table with
            sessions := ledger.table.sessions.insert sessionId
              { session with nonceCounter := (session.nonceCounter + 1) % counterPeriod } }
        created := ledger.created ++ []
        used := ledger.used ++
          [(session.cipher, counterNonce ((session.nonceCounter + 1) % counterPeriod))] } := by
  have here := sound.live sessionId session found
  rw [List.append_nil]
  constructor
  · intro key
    rw [noncesOf_append]
    by_cases mine : session.cipher = key
    · subst mine
      rw [noncesOf_single_self, here.2, Nat.mod_add_mod]
      exact (sound.counted session.cipher).next
    · rw [noncesOf_single_other _ mine, List.append_nil]
      exact sound.counted key
  · intro pair member
    rcases List.mem_append.mp member with old | new
    · exact sound.known pair old
    · rw [List.mem_singleton.mp new]
      exact here.1
  · intro about other foundOther
    rw [ExtTreeMap.getElem?_insert] at foundOther
    split at foundOther
    · cases foundOther
      refine ⟨here.1, ?_⟩
      rw [noncesOf_append, noncesOf_single_self, List.length_append, List.length_singleton, here.2,
        Nat.mod_add_mod]
    next elsewhere =>
      have before := sound.live about other foundOther
      refine ⟨before.1, ?_⟩
      have different : session.cipher ≠ other.cipher := by
        intro same
        have equal := sound.apart sessionId about session other found foundOther same
        subst equal
        exact elsewhere Std.ReflCmp.compare_self
      rw [noncesOf_append, noncesOf_single_other _ different, List.append_nil]
      exact before.2
  · intro first second one other foundOne foundOther same
    rw [ExtTreeMap.getElem?_insert] at foundOne foundOther
    split at foundOne
    next firstHere =>
      rw [← LawfulEqCmp.eq_of_compare firstHere]
      split at foundOther
      next secondHere => exact LawfulEqCmp.eq_of_compare secondHere
      next =>
        cases foundOne
        exact sound.apart sessionId second session other found foundOther same
    next =>
      split at foundOther
      next secondHere =>
        cases foundOther
        rw [← LawfulEqCmp.eq_of_compare secondHere]
        exact sound.apart first sessionId one session foundOne found same
      next => exact sound.apart first second one other foundOne foundOther same

theorem Sound.removed {ledger : SessionLedger Key} (sound : ledger.Sound) (sessionId : Bytes) :
    Sound
      { table := ledger.table.removeSession sessionId
        created := ledger.created ++ []
        used := ledger.used ++ [] } := by
  have survivor : ∀ (about : Bytes) (session : Session Key),
      (ledger.table.sessions.erase sessionId)[about]? = some session →
        ledger.table.sessions[about]? = some session := by
    intro about session found
    rw [ExtTreeMap.getElem?_erase] at found
    split at found
    · cases found
    · exact found
  rw [List.append_nil, List.append_nil]
  constructor
  · exact sound.counted
  · exact sound.known
  · intro about session found
    exact sound.live about session (survivor about session found)
  · intro first second one other foundOne foundOther
    exact sound.apart first second one other (survivor first one foundOne)
      (survivor second other foundOther)

theorem Sound.unchanged {ledger : SessionLedger Key} (sound : ledger.Sound) :
    Sound
      { table := ledger.table
        created := ledger.created ++ []
        used := ledger.used ++ [] } := by
  rw [List.append_nil, List.append_nil]
  exact sound

theorem Sound.step {ledger : SessionLedger Key} (sound : ledger.Sound) (aead : Aead Key)
    (call : SessionCall Key) (fresh : (ledger.step aead call).created.Nodup) :
    (ledger.step aead call).Sound := by
  cases call with
  | createSession sessionId label key =>
      unfold SessionLedger.step createdBy usedBy SessionTable.step at fresh ⊢
      simp only at fresh ⊢
      rcases ledger.table.createSession_cases sessionId label key with ⟨-, same⟩ | ⟨-, same⟩
      · rw [same]
        exact sound.unchanged
      · rw [same] at fresh ⊢
        have new : key ∉ ledger.created := by
          intro member
          exact (List.nodup_append.mp fresh).2.2 key member key (List.mem_singleton_self key) rfl
        exact sound.created new
  | encryptResponse sessionId plaintext =>
      unfold SessionLedger.step createdBy usedBy SessionTable.step
      simp only
      cases found : ledger.table.sessions[sessionId]? with
      | none =>
          rw [SessionTable.encryptResponse_missing aead plaintext found,
            SessionTable.nextNonce_missing found]
          exact sound.unchanged
      | some session =>
          rw [SessionTable.encryptResponse_found aead plaintext found,
            SessionTable.nextNonce_found found]
          exact sound.encrypted found
  | decryptRequest sessionId ciphertext nonce => exact sound.unchanged
  | removeSession sessionId => exact sound.removed sessionId
  | readSessionCount => exact sound.unchanged

omit [DecidableEq Key] in
private theorem created_prefix_run (aead : Aead Key) (calls : List (SessionCall Key))
    (ledger : SessionLedger Key) : ledger.created <+: (run aead calls ledger).created := by
  induction calls generalizing ledger with
  | nil => exact List.prefix_rfl
  | cons call calls ih =>
      exact (List.prefix_append ledger.created _).trans (ih (ledger.step aead call))

theorem Sound.run {ledger : SessionLedger Key} (sound : ledger.Sound) (aead : Aead Key)
    (calls : List (SessionCall Key)) (fresh : (ledger.run aead calls).created.Nodup) :
    (ledger.run aead calls).Sound := by
  induction calls generalizing ledger with
  | nil => exact sound
  | cons call calls ih =>
      have freshStep : (ledger.step aead call).created.Nodup :=
        fresh.sublist (created_prefix_run aead calls (ledger.step aead call)).sublist
      exact ih (sound.step aead call freshStep) fresh

private theorem nodup_of_noncesOf {used : List (Key × Bytes)}
    (each : ∀ key, (noncesOf key used).Nodup) : used.Nodup := by
  induction used with
  | nil => exact List.nodup_nil
  | cons pair used ih =>
      have split : ∀ key, noncesOf key (pair :: used) = noncesOf key [pair] ++ noncesOf key used :=
        fun key => noncesOf_append key [pair] used
      rw [List.nodup_cons]
      constructor
      · intro again
        have mine := each pair.1
        rw [split, noncesOf_single_self, List.singleton_append, List.nodup_cons] at mine
        apply mine.1
        unfold noncesOf
        rw [List.mem_map]
        exact ⟨pair, List.mem_filter.mpr ⟨again, decide_eq_true rfl⟩, rfl⟩
      · apply ih
        intro key
        have mine := each key
        rw [split] at mine
        exact (List.nodup_append.mp mine).2.1

omit [DecidableEq Key] in
private theorem run_size_le (aead : Aead Key) (calls : List (SessionCall Key))
    (ledger : SessionLedger Key)
    (bounded : ledger.table.sessions.size ≤ ledger.table.maxSessions) :
    (run aead calls ledger).table.sessions.size ≤ ledger.table.maxSessions := by
  induction calls generalizing ledger with
  | nil => exact bounded
  | cons call calls ih =>
      have kept := SessionTable.step_maxSessions aead ledger.table call
      have next := ih (ledger.step aead call)
        ((SessionTable.step_size_le aead ledger.table call bounded).trans_eq kept.symm)
      exact next.trans_eq kept

end SessionLedger

/-- Over every run of calls on a new table: there are never too many sessions; what is
refused and what finds no session changes nothing; a call leaves the other sessions as
they are; and with a fresh key for each session, none of which encrypts as often as the
counter has values, no key is used twice with one nonce. -/
theorem session_table_safe [DecidableEq Key] (aead : Aead Key) (maxSessions : Nat)
    (calls : List (SessionCall Key)) :
    let last := SessionLedger.run aead calls (.start maxSessions)
    last.table.readSessionCount ≤ maxSessions ∧
    (∀ sessionId label key, (last.table.createSession sessionId label key).1 = false →
      (last.table.createSession sessionId label key).2 = last.table) ∧
    (∀ sessionId : Bytes, last.table.sessions[sessionId]? = none →
      (∀ plaintext, last.table.encryptResponse aead sessionId plaintext = (none, last.table)) ∧
      (∀ ciphertext nonce,
        last.table.decryptRequest aead sessionId ciphertext nonce = none) ∧
      last.table.removeSession sessionId = last.table) ∧
    (∀ call other, call.sessionId? ≠ some other →
      (last.table.step aead call).sessions[other]? = last.table.sessions[other]?) ∧
    (last.created.Nodup →
      (∀ key, (SessionLedger.noncesOf key last.used).length < counterPeriod) →
      last.used.Nodup) := by
  intro last
  refine ⟨?_, ?_, ?_, ?_, ?_⟩
  · exact SessionLedger.run_size_le aead calls (.start maxSessions) (Nat.zero_le _)
  · intro sessionId label key refused
    rcases last.table.createSession_cases sessionId label key with ⟨-, same⟩ | ⟨-, same⟩
    · rw [same]
    · rw [same] at refused
      cases refused
  · intro sessionId missing
    refine ⟨fun plaintext => ?_, fun ciphertext nonce => ?_, ?_⟩
    · exact SessionTable.encryptResponse_missing aead plaintext missing
    · unfold SessionTable.decryptRequest
      rw [missing]
    · exact SessionTable.removeSession_missing missing
  · intro call other different
    exact SessionTable.step_other aead last.table call different
  · intro fresh few
    have sound := (SessionLedger.start_sound maxSessions).run aead calls fresh
    apply SessionLedger.nodup_of_noncesOf
    intro key
    exact (sound.counted key).nodup (few key)

/-- Two responses of one session have two nonces. -/
theorem two_responses_have_two_nonces :
    (SessionLedger.run (⟨fun _ _ text => some text, fun _ _ text => some text⟩ : Aead Nat)
        [.createSession [1] [] 7, .encryptResponse [1] [], .encryptResponse [1] []]
        (.start 1)).used.Nodup := by
  have created : (SessionLedger.run (⟨fun _ _ text => some text, fun _ _ text => some text⟩ : Aead Nat)
      [.createSession [1] [] 7, .encryptResponse [1] [], .encryptResponse [1] []]
      (.start 1)).created = [7] := by decide +kernel
  have used : (SessionLedger.run (⟨fun _ _ text => some text, fun _ _ text => some text⟩ : Aead Nat)
      [.createSession [1] [] 7, .encryptResponse [1] [], .encryptResponse [1] []]
      (.start 1)).used = [(7, counterNonce 1), (7, counterNonce 2)] := by decide +kernel
  apply (session_table_safe _ 1 _).2.2.2.2
  · rw [created]
    exact List.nodup_singleton 7
  · intro key
    rw [used]
    have short : (SessionLedger.noncesOf key [(7, counterNonce 1), (7, counterNonce 2)]).length
        ≤ 2 := by
      unfold SessionLedger.noncesOf
      rw [List.length_map]
      exact List.length_filter_le ..
    have room : 2 < counterPeriod := by decide
    omega

end TricPlus
