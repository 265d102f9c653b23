import TricPlus.Bridges.PythonScan
import TricPlus.Lib.GuardedRuns

/-!
Concurrent requests on one connection of the JavaScript client.

Replies are handed out by their order: to the hook of a scan if there is one, else to the
call that has waited longest, else they are kept for the next call that comes to wait.  The
request id is checked only afterwards, when the reply has already been taken.
-/

namespace TricPlus

open BigEndian
open GuardedRuns

namespace JsClient

/-! ### Replies -/

inductive Call where
  | read (key : Bytes)
  | write (key value : Bytes) (durationMs : Nat)
  | del (key : Bytes)
  | cad (key expected : Bytes)
  | ttl (key : Bytes) (durationMs : Nat)
  | scan (stem : Bytes)
  deriving DecidableEq

def Call.isScan : Call → Bool
  | .scan _ => true
  | _ => false

inductive Value where
  | void
  | bytes (value : Option Bytes)
  | deleted (deleted : Bool)
  | pairs (pairs : List (Bytes × Bytes))
  deriving DecidableEq

/-- What a call makes of the reply that `roundtrip` gives it; nothing, where it throws. -/
def Call.finish (call : Call) (op : UInt8) (body : Bytes) : Option Value :=
  match call with
  | .read _ =>
      if op = 0x81 then
        if body.length < 4 then none
        else some (.bytes (some ((body.drop 4).take (fromBeBytes (body.take 4)))))
      else some (.bytes none)
  | .cad _ _ => some (.deleted (op = 0x81 ∧ 1 ≤ body.length ∧ body.getD 0 0 = 0x01))
  | .scan _ => none
  | _ => if op = 0x80 then some .void else none

def Call.roundtrip (call : Call) (rid : Nat) (reply : Bytes) : Option Value :=
  if reply.length < 5 then none
  else if fromBeBytes (reply.take 4) ≠ rid then none
  else call.finish (reply.getD 4 0) (reply.drop 5)

inductive ScanReply where
  | chunk
  | finished
  | failed
  deriving DecidableEq

def scanReply (rid : Nat) (reply : Bytes) : ScanReply :=
  if reply.length < 5 then .failed
  else if fromBeBytes (reply.take 4) ≠ rid then .failed
  else if reply.getD 4 0 = 0x91 then .finished
  else if reply.getD 4 0 ≠ 0x90 then .failed
  else .chunk

/-- `readUInt32BE`, which throws beyond the end. -/
def readUInt32BE (body : Bytes) (offset : Nat) : Option Nat :=
  if body.length < offset + 4 then none
  else some (fromBeBytes ((body.drop offset).take 4))

def readPair (reply : Bytes) : Option (Bytes × Bytes) := do
  let body := reply.drop 5
  let offset := 4
  let keyLen ← readUInt32BE body offset
  let offset := offset + 4
  let keyBytes := (body.drop offset).take keyLen
  let offset := offset + keyLen
  let valueLen ← readUInt32BE body offset
  let offset := offset + 4
  some (keyBytes, (body.drop offset).take valueLen)

structure Message where
  call : Nat
  datagram : Bytes
  deriving DecidableEq

/-- How far a call has come. -/
inductive Stage where
  | sending
  | waiting
  | scanning (messages : List Message)
  | resolved (value : Value) (messages : List Message)
  | rejected
  deriving DecidableEq

/-- A call with the replies that the server gives it, and how many have arrived. -/
structure Entry where
  call : Call
  rid : Nat
  answers : List Bytes
  arrived : Nat
  stage : Stage
  deriving DecidableEq

structure Connection where
  requestId : Nat
  inbox : List Message
  waiters : List Nat
  scanWaiter : Option Nat
  entries : List Entry
  deriving DecidableEq

def Connection.initial : Connection where
  requestId := 1
  inbox := []
  waiters := []
  scanWaiter := none
  entries := []

def Connection.update (connection : Connection) (index : Nat) (change : Entry → Entry) :
    Connection :=
  { connection with entries := connection.entries.modify index change }

def Connection.setStage (connection : Connection) (index : Nat) (stage : Stage) : Connection :=
  connection.update index (fun entry => { entry with stage := stage })

def Entry.counted (entry : Entry) : Entry :=
  { entry with arrived := entry.arrived + 1 }

def Entry.settled (message : Message) (entry : Entry) : Entry :=
  match entry.call.roundtrip entry.rid message.datagram with
  | some value => { entry with stage := .resolved value [message] }
  | none => { entry with stage := .rejected }

def Entry.heard (message : Message) (entry : Entry) : Entry × Bool :=
  match entry.stage with
  | .scanning messages =>
      match scanReply entry.rid message.datagram with
      | .chunk => ({ entry with stage := .scanning (messages ++ [message]) }, true)
      | .failed => ({ entry with stage := .rejected }, false)
      | .finished =>
          match (messages.map Message.datagram).mapM readPair with
          | some pairs =>
              ({ entry with stage := .resolved (.pairs pairs) (messages ++ [message]) }, false)
          | none => ({ entry with stage := .rejected }, false)
  | _ => (entry, true)

/-- The handler of the event `message`. -/
def Connection.onMessage (connection : Connection) (message : Message) : Connection :=
  match connection.scanWaiter with
  | some scan =>
      let stays := (connection.entries[scan]?.map (fun entry => (entry.heard message).2)).getD true
      { connection.update scan (fun entry => (entry.heard message).1) with
        scanWaiter := if stays then some scan else none }
  | none =>
      match connection.waiters with
      | waiter :: waiters =>
          { connection with waiters := waiters }.update waiter (Entry.settled message)
      | [] => { connection with inbox := connection.inbox ++ [message] }

/-- What happens on the event loop: a call is made, for which the server will have these
answers; a datagram of a round trip is sent, which then waits; a reply arrives. -/
inductive Event where
  | start (call : Call) (answers : List Bytes)
  | sent (index : Nat)
  | arrive (index : Nat)

def Connection.start (connection : Connection) (call : Call) (answers : List Bytes) :
    Connection :=
  { connection with
    requestId := (connection.requestId + 1) % 2 ^ 32
    scanWaiter := if call.isScan then some connection.entries.length else connection.scanWaiter
    entries := connection.entries ++
      [⟨call, connection.requestId, answers, 0,
        if call.isScan then .scanning [] else .sending⟩] }

def Connection.awaitReply (connection : Connection) (index : Nat) : Connection :=
  match connection.inbox with
  | message :: inbox => { connection with inbox := inbox }.update index (Entry.settled message)
  | [] => { connection with waiters := connection.waiters ++ [index] }.setStage index .waiting

def Connection.arrive (connection : Connection) (index : Nat) : Connection :=
  match connection.entries[index]? with
  | none => connection
  | some entry =>
      match entry.answers[entry.arrived]? with
      | none => connection
      | some datagram =>
          (connection.update index Entry.counted).onMessage ⟨index, datagram⟩

def Connection.next (connection : Connection) : Event → Connection
  | .start call answers => connection.start call answers
  | .sent index => connection.awaitReply index
  | .arrive index => connection.arrive index

/-! ### Runs -/

inductive Answers : Call → Nat → List Bytes → Prop where
  | found (key value : Bytes) (rid : Nat) :
      Answers (.read key) rid [writeLocalToBuffer (createPayload rid (lengthPrefixed value))]
  | missing (key : Bytes) (rid : Nat) :
      Answers (.read key) rid [writeLocalToBuffer (createOk rid)]
  | written (key value : Bytes) (durationMs rid : Nat) :
      Answers (.write key value durationMs) rid [writeLocalToBuffer (createOk rid)]
  | deleted (key : Bytes) (rid : Nat) :
      Answers (.del key) rid [writeLocalToBuffer (createOk rid)]
  | compared (key expected : Bytes) (rid : Nat) (matched : Bool) :
      Answers (.cad key expected) rid
        [writeLocalToBuffer (createPayload rid [if matched then 0x01 else 0x00])]
  | dated (key : Bytes) (durationMs rid : Nat) :
      Answers (.ttl key durationMs) rid [writeLocalToBuffer (createOk rid)]
  | scanned (stem : Bytes) (rid : Nat) (pairs : List (Bytes × Bytes))
      (fits : ∀ pair ∈ pairs, PairFits pair) :
      Answers (.scan stem) rid (scanDatagrams rid pairs)

/-- The event can happen. -/
def Possible (connection : Connection) : Event → Prop
  | .start call answers => Answers call connection.requestId answers
  | .sent index => ∃ entry, connection.entries[index]? = some entry ∧ entry.stage = .sending
  | .arrive index => ∃ entry, connection.entries[index]? = some entry ∧
      entry.arrived < entry.answers.length

/-- Everything has been sent, and every reply has arrived. -/
def Complete (connection : Connection) : Prop :=
  ∀ (index : Nat) (entry : Entry), connection.entries[index]? = some entry →
    entry.stage ≠ .sending ∧ entry.arrived = entry.answers.length

def Call.outcome (call : Call) (rid : Nat) (answers : List Bytes) : Option Value :=
  match call with
  | .scan _ => (answers.dropLast.mapM readPair).map Value.pairs
  | _ => answers.head?.bind (call.roundtrip rid)

/-- Every call was fulfilled, with the replies to its own request and what they say. -/
def AllResolved (connection : Connection) : Prop :=
  ∀ (index : Nat) (entry : Entry), connection.entries[index]? = some entry →
    ∃ value, entry.call.outcome entry.rid entry.answers = some value ∧
      entry.stage = .resolved value (entry.answers.map (Message.mk index))

/-- A scan is started only when none is in progress; a reply finds no scan but its own in
progress, and no call waiting before its own; a call that comes to wait finds nothing kept but
its own reply. -/
def InTurn (connection : Connection) : Event → Prop
  | .start call _ => call.isScan = true → connection.scanWaiter = none
  | .sent index => ∀ message ∈ connection.inbox.head?, message.call = index
  | .arrive index =>
      match connection.scanWaiter with
      | some scan => scan = index
      | none => ∀ waiter ∈ connection.waiters.head?, waiter = index

section Entries

variable (connection : Connection) (index other : Nat) (change : Entry → Entry)

theorem getElem?_update : (connection.update index change).entries[other]? =
    if index = other then connection.entries[other]?.map change
    else connection.entries[other]? := by
  unfold Connection.update
  rw [List.getElem?_modify]
  by_cases same : index = other
  · simp only [if_pos same, Option.map_eq_map]
  · simp only [if_neg same, id_map']

variable {connection index other change}

private theorem update_same {entry : Entry} (found : connection.entries[index]? = some entry) :
    (connection.update index change).entries[index]? = some (change entry) := by
  rw [getElem?_update, if_pos rfl, found]
  rfl

theorem update_other (different : index ≠ other) :
    (connection.update index change).entries[other]? = connection.entries[other]? := by
  rw [getElem?_update, if_neg different]

end Entries

private theorem settled_cases (message : Message) (entry : Entry) :
    (∃ value, entry.call.roundtrip entry.rid message.datagram = some value ∧
      entry.settled message = { entry with stage := .resolved value [message] }) ∨
    entry.settled message = { entry with stage := .rejected } := by
  unfold Entry.settled
  cases entry.call.roundtrip entry.rid message.datagram with
  | some value => exact Or.inl ⟨value, rfl, rfl⟩
  | none => exact Or.inr rfl

private theorem heard_cases (message : Message) {entry : Entry} {messages : List Message}
    (scanning : entry.stage = .scanning messages) :
    entry.heard message =
        ({ entry with stage := .scanning (messages ++ [message]) }, true) ∨
      entry.heard message = ({ entry with stage := .rejected }, false) ∨
      ∃ value, entry.heard message =
        ({ entry with stage := .resolved value (messages ++ [message]) }, false) := by
  unfold Entry.heard
  rw [scanning]
  simp only
  cases scanReply entry.rid message.datagram with
  | chunk => exact Or.inl rfl
  | failed => exact Or.inr (Or.inl rfl)
  | finished =>
      simp only
      cases (messages.map Message.datagram).mapM readPair with
      | some pairs => exact Or.inr (Or.inr ⟨_, rfl⟩)
      | none => exact Or.inr (Or.inl rfl)

section Handler

variable {connection : Connection} {message : Message}

private theorem onMessage_hooked {scan : Nat} {entry : Entry}
    (hooked : connection.scanWaiter = some scan)
    (found : connection.entries[scan]? = some entry) :
    connection.onMessage message =
      { connection.update scan (fun entry => (entry.heard message).1) with
        scanWaiter := if (entry.heard message).2 then some scan else none } := by
  unfold Connection.onMessage
  rw [hooked]
  simp only [found, Option.map_some, Option.getD_some]

private theorem onMessage_waiting {waiter : Nat} {waiters : List Nat}
    (unhooked : connection.scanWaiter = none) (queue : connection.waiters = waiter :: waiters) :
    connection.onMessage message =
      { connection with waiters := waiters }.update waiter (Entry.settled message) := by
  rcases connection with ⟨requestId, inbox, calls, scanWaiter, entries⟩
  simp only at unhooked queue
  subst unhooked
  subst queue
  rfl

private theorem onMessage_kept (unhooked : connection.scanWaiter = none)
    (queue : connection.waiters = []) :
    connection.onMessage message =
      { connection with inbox := connection.inbox ++ [message] } := by
  rcases connection with ⟨requestId, inbox, calls, scanWaiter, entries⟩
  simp only at unhooked queue
  subst unhooked
  subst queue
  rfl

private theorem awaitReply_kept {inbox : List Message} (index : Nat)
    (queue : connection.inbox = message :: inbox) :
    connection.awaitReply index =
      { connection with inbox := inbox }.update index (Entry.settled message) := by
  rcases connection with ⟨requestId, kept, waiters, scanWaiter, entries⟩
  simp only at queue
  subst queue
  rfl

private theorem awaitReply_waiting (index : Nat) (queue : connection.inbox = []) :
    connection.awaitReply index =
      { connection with waiters := connection.waiters ++ [index] }.setStage index .waiting := by
  rcases connection with ⟨requestId, kept, waiters, scanWaiter, entries⟩
  simp only at queue
  subst queue
  rfl

private theorem next_arrive {index : Nat} {entry : Entry}
    (found : connection.entries[index]? = some entry)
    (short : entry.arrived < entry.answers.length) :
    connection.next (.arrive index) =
      (connection.update index Entry.counted).onMessage ⟨index, entry.answers[entry.arrived]⟩ := by
  change connection.arrive index = _
  unfold Connection.arrive
  rw [found]
  simp only
  rw [List.getElem?_eq_getElem short]

end Handler

/-! ### How the connection is wired -/

/-- The hook is that of a scan in progress, and who waits is waiting. -/
structure Wired (connection : Connection) : Prop where
  hook : ∀ scan, connection.scanWaiter = some scan → ∃ entry messages,
    connection.entries[scan]? = some entry ∧ entry.stage = .scanning messages
  waiting : ∀ waiter ∈ connection.waiters, ∃ entry,
    connection.entries[waiter]? = some entry ∧ entry.stage = .waiting
  distinct : connection.waiters.Nodup

section Wired

variable {connection : Connection}

theorem Wired.initial : Wired Connection.initial where
  hook := fun _ hooked => by cases hooked
  waiting := fun _ member => absurd member List.not_mem_nil
  distinct := List.nodup_nil

theorem Wired.update (wired : Wired connection) {index : Nat} {change : Entry → Entry}
    (free : ∀ entry, connection.entries[index]? = some entry →
      (change entry).stage = entry.stage ∨
        ((∀ messages, entry.stage ≠ .scanning messages) ∧ entry.stage ≠ .waiting)) :
    Wired (connection.update index change) where
  hook := by
    intro scan hooked
    rcases wired.hook scan hooked with ⟨entry, messages, found, scanning⟩
    by_cases same : index = scan
    · subst same
      refine ⟨change entry, messages, update_same found, ?_⟩
      rcases free entry found with kept | other
      · exact kept.trans scanning
      · exact absurd scanning (other.1 messages)
    · exact ⟨entry, messages, (update_other same).trans found, scanning⟩
  waiting := by
    intro waiter member
    rcases wired.waiting waiter member with ⟨entry, found, waiting⟩
    by_cases same : index = waiter
    · subst same
      refine ⟨change entry, update_same found, ?_⟩
      rcases free entry found with kept | other
      · exact kept.trans waiting
      · exact absurd waiting other.2
    · exact ⟨entry, (update_other same).trans found, waiting⟩
  distinct := wired.distinct

theorem Wired.counted (wired : Wired connection) (index : Nat) :
    Wired (connection.update index Entry.counted) :=
  wired.update (fun _ _ => Or.inl rfl)

private theorem Wired.onMessage (wired : Wired connection) (message : Message) :
    Wired (connection.onMessage message) := by
  cases hooked : connection.scanWaiter with
  | some scan =>
      rcases wired.hook scan hooked with ⟨entry, messages, found, scanning⟩
      have others : ∀ waiter ∈ connection.waiters, ∃ waiting,
          (connection.update scan (fun entry => (entry.heard message).1)).entries[waiter]? =
            some waiting ∧ waiting.stage = .waiting := by
        intro waiter member
        rcases wired.waiting waiter member with ⟨other, there, waiting⟩
        have different : scan ≠ waiter := by
          intro same
          subst same
          cases found.symm.trans there
          cases scanning.symm.trans waiting
        exact ⟨other, (update_other different).trans there, waiting⟩
      rw [onMessage_hooked hooked found]
      refine ⟨?_, others, wired.distinct⟩
      intro hook same
      rcases heard_cases message scanning with stays | failed | ⟨value, finished⟩
      · rw [stays] at same
        cases same
        exact ⟨_, messages ++ [message], update_same found, by rw [stays]⟩
      · rw [failed] at same
        cases same
      · rw [finished] at same
        cases same
  | none =>
      cases queue : connection.waiters with
      | nil =>
          rw [onMessage_kept hooked queue]
          exact ⟨wired.hook, wired.waiting, wired.distinct⟩
      | cons waiter waiters =>
          have nodup := wired.distinct
          rw [queue, List.nodup_cons] at nodup
          rw [onMessage_waiting hooked queue]
          refine ⟨?_, ?_, nodup.2⟩
          · intro scan same
            change connection.scanWaiter = some scan at same
            rw [hooked] at same
            cases same
          · intro next member
            rcases wired.waiting next (by rw [queue]; exact List.mem_cons_of_mem _ member) with
              ⟨entry, found, waiting⟩
            have different : waiter ≠ next := fun same => nodup.1 (same ▸ member)
            exact ⟨entry, (update_other different).trans found, waiting⟩

theorem Wired.next (wired : Wired connection) {event : Event}
    (possible : Possible connection event) : Wired (connection.next event) := by
  cases event with
  | start call answers =>
      have kept : ∀ {index : Nat} {entry : Entry}, connection.entries[index]? = some entry →
          (connection.start call answers).entries[index]? = some entry := fun found =>
        (List.getElem?_append_left (List.getElem?_eq_some_iff.mp found).1).trans found
      refine ⟨?_, ?_, wired.distinct⟩
      · intro scan hooked
        change (if call.isScan then some connection.entries.length
          else connection.scanWaiter) = some scan at hooked
        by_cases scans : call.isScan = true
        · rw [if_pos scans] at hooked
          cases hooked
          exact ⟨_, [], List.getElem?_concat_length, if_pos scans⟩
        · rw [if_neg scans] at hooked
          rcases wired.hook scan hooked with ⟨entry, messages, found, scanning⟩
          exact ⟨entry, messages, kept found, scanning⟩
      · intro waiter member
        rcases wired.waiting waiter member with ⟨entry, found, waiting⟩
        exact ⟨entry, kept found, waiting⟩
  | sent index =>
      rcases possible with ⟨entry, found, sending⟩
      change Wired (connection.awaitReply index)
      unfold Connection.awaitReply
      have free : ∀ other, connection.entries[index]? = some other →
          (∀ messages, other.stage ≠ .scanning messages) ∧ other.stage ≠ .waiting := by
        intro other there
        cases found.symm.trans there
        rw [sending]
        exact ⟨fun _ same => (by cases same), fun same => (by cases same)⟩
      cases connection.inbox with
      | cons message inbox =>
          apply Wired.update
          · exact ⟨wired.hook, wired.waiting, wired.distinct⟩
          · exact fun other there => Or.inr (free other there)
      | nil =>
          have set := @Wired.update connection wired index
            (fun entry => { entry with stage := .waiting })
            (fun other there => Or.inr (free other there))
          refine ⟨set.hook, ?_, ?_⟩
          · intro waiter member
            rcases List.mem_append.mp member with old | new
            · exact set.waiting waiter old
            · rw [List.mem_singleton.mp new]
              exact ⟨_, update_same found, rfl⟩
          · apply List.Nodup.append wired.distinct (List.nodup_singleton index)
            intro waiter old new
            rw [List.mem_singleton.mp new] at old
            rcases wired.waiting index old with ⟨other, there, waiting⟩
            exact (free other there).2 waiting
  | arrive index =>
      rcases possible with ⟨entry, found, short⟩
      rw [next_arrive found short]
      exact (wired.counted index).onMessage _

end Wired

/-! ### Calls that cannot end well -/

/-- The call has failed, has taken a reply to another, or is a scan that has lost its hook. -/
def Entry.Broken (scanWaiter : Option Nat) (index : Nat) (entry : Entry) : Prop :=
  match entry.stage with
  | .sending => False
  | .waiting => False
  | .scanning messages => (∃ message ∈ messages, message.call ≠ index) ∨ scanWaiter ≠ some index
  | .resolved _ messages => ∃ message ∈ messages, message.call ≠ index
  | .rejected => True

def Broken (connection : Connection) : Prop :=
  ∃ (index : Nat) (entry : Entry), connection.entries[index]? = some entry ∧
    entry.Broken connection.scanWaiter index

section Broken

variable {connection : Connection} {index : Nat} {entry : Entry} {hook : Option Nat}

theorem Entry.Broken.cases (broken : entry.Broken hook index) :
    entry.stage = .rejected ∨
      (∃ value messages, entry.stage = .resolved value messages ∧
        ∃ message ∈ messages, message.call ≠ index) ∨
      ∃ messages, entry.stage = .scanning messages ∧
        ((∃ message ∈ messages, message.call ≠ index) ∨ hook ≠ some index) := by
  unfold Entry.Broken at broken
  cases stage : entry.stage with
  | sending =>
      rw [stage] at broken
      exact broken.elim
  | waiting =>
      rw [stage] at broken
      exact broken.elim
  | scanning messages =>
      rw [stage] at broken
      exact Or.inr (Or.inr ⟨messages, rfl, broken⟩)
  | resolved value messages =>
      rw [stage] at broken
      exact Or.inr (Or.inl ⟨value, messages, rfl, broken⟩)
  | rejected => exact Or.inl rfl

private theorem Entry.broken_of_rejected (stage : entry.stage = .rejected) :
    entry.Broken hook index := by
  unfold Entry.Broken
  rw [stage]
  trivial

private theorem Entry.broken_of_resolved {value : Value} {messages : List Message}
    (stage : entry.stage = .resolved value messages)
    (foreign : ∃ message ∈ messages, message.call ≠ index) : entry.Broken hook index := by
  unfold Entry.Broken
  rw [stage]
  exact foreign

private theorem Entry.broken_of_scanning {messages : List Message}
    (stage : entry.stage = .scanning messages)
    (lost : (∃ message ∈ messages, message.call ≠ index) ∨ hook ≠ some index) :
    entry.Broken hook index := by
  unfold Entry.Broken
  rw [stage]
  exact lost

private theorem Entry.Broken.rehook {other : Option Nat} (broken : entry.Broken hook index)
    (different : other = some index → hook = some index) : entry.Broken other index := by
  rcases broken.cases with rejected | ⟨value, messages, resolved, foreign⟩ |
    ⟨messages, scanning, lost⟩
  · exact Entry.broken_of_rejected rejected
  · exact Entry.broken_of_resolved resolved foreign
  · apply Entry.broken_of_scanning scanning
    rcases lost with foreign | unhooked
    · exact Or.inl foreign
    · exact Or.inr (fun same => unhooked (different same))

theorem Entry.Broken.congr {other : Entry} (broken : entry.Broken hook index)
    (same : other.stage = entry.stage) : other.Broken hook index := by
  unfold Entry.Broken at broken ⊢
  rw [same]
  exact broken

theorem Entry.Broken.done (broken : entry.Broken hook index) :
    entry.stage ≠ .sending ∧ entry.stage ≠ .waiting := by
  rcases broken.cases with rejected | ⟨value, messages, resolved, foreign⟩ |
    ⟨messages, scanning, lost⟩
  · rw [rejected]
    exact ⟨fun same => (by cases same), fun same => (by cases same)⟩
  · rw [resolved]
    exact ⟨fun same => (by cases same), fun same => (by cases same)⟩
  · rw [scanning]
    exact ⟨fun same => (by cases same), fun same => (by cases same)⟩

private theorem heard_broken {message : Message} {messages : List Message}
    (scanning : entry.stage = .scanning messages)
    (foreign : ∃ heard ∈ messages ++ [message], heard.call ≠ index) :
    (entry.heard message).1.Broken hook index := by
  rcases heard_cases message scanning with stays | failed | ⟨value, finished⟩
  · rw [stays]
    exact Entry.broken_of_scanning rfl (Or.inl foreign)
  · rw [failed]
    exact Entry.broken_of_rejected rfl
  · rw [finished]
    exact Entry.broken_of_resolved rfl foreign

private theorem settled_broken {message : Message} (foreign : message.call ≠ index) :
    (entry.settled message).Broken hook index := by
  rcases settled_cases message entry with ⟨value, -, settled⟩ | settled
  · rw [settled]
    exact Entry.broken_of_resolved rfl ⟨message, List.mem_singleton_self _, foreign⟩
  · rw [settled]
    exact Entry.broken_of_rejected rfl

private theorem Broken.onMessage (wired : Wired connection) (broken : Broken connection)
    (message : Message) : Broken (connection.onMessage message) := by
  rcases broken with ⟨index, entry, found, broken⟩
  cases hooked : connection.scanWaiter with
  | some scan =>
      rcases wired.hook scan hooked with ⟨hookedEntry, messages, there, scanning⟩
      rw [onMessage_hooked hooked there]
      by_cases same : scan = index
      · subst same
        cases found.symm.trans there
        refine ⟨scan, _, update_same found, ?_⟩
        apply heard_broken scanning
        rcases broken.cases with rejected | ⟨value, others, resolved, -⟩ | ⟨others, stage, lost⟩
        · cases scanning.symm.trans rejected
        · cases scanning.symm.trans resolved
        · cases scanning.symm.trans stage
          rcases lost with ⟨other, member, foreign⟩ | unhooked
          · exact ⟨other, List.mem_append_left _ member, foreign⟩
          · exact absurd hooked unhooked
      · refine ⟨index, entry, (update_other same).trans found, ?_⟩
        apply broken.rehook
        intro rehooked
        split at rehooked
        · rw [hooked]
          exact rehooked
        · cases rehooked
  | none =>
      cases queue : connection.waiters with
      | nil =>
          rw [onMessage_kept hooked queue]
          exact ⟨index, entry, found, broken⟩
      | cons waiter waiters =>
          rcases wired.waiting waiter (by rw [queue]; exact List.mem_cons_self ..) with
            ⟨other, there, waiting⟩
          rw [onMessage_waiting hooked queue]
          have different : waiter ≠ index := by
            intro same
            subst same
            cases found.symm.trans there
            exact broken.done.2 waiting
          exact ⟨index, entry, (update_other different).trans found, broken⟩

private theorem broken_of_mistaken (wired : Wired connection) (message : Message)
    (mistaken : ¬ InTurn connection (.arrive message.call)) :
    Broken (connection.onMessage message) := by
  unfold InTurn at mistaken
  cases hooked : connection.scanWaiter with
  | some scan =>
      rcases wired.hook scan hooked with ⟨entry, messages, found, scanning⟩
      rw [hooked] at mistaken
      rw [onMessage_hooked hooked found]
      refine ⟨scan, _, update_same found, ?_⟩
      apply heard_broken scanning
      exact ⟨message, List.mem_append_right _ (List.mem_singleton_self _),
        fun same => mistaken same.symm⟩
  | none =>
      rw [hooked] at mistaken
      cases queue : connection.waiters with
      | nil =>
          rw [queue] at mistaken
          exact absurd (fun _ member => by cases member) mistaken
      | cons waiter waiters =>
          rcases wired.waiting waiter (by rw [queue]; exact List.mem_cons_self ..) with
            ⟨entry, found, waiting⟩
          rw [queue] at mistaken
          rw [onMessage_waiting hooked queue]
          refine ⟨waiter, _, update_same found, ?_⟩
          apply settled_broken
          intro same
          apply mistaken
          intro first member
          cases member
          exact same.symm

theorem Broken.update (broken : Broken connection) {index : Nat} {change : Entry → Entry}
    (harmless : ∀ entry, connection.entries[index]? = some entry →
      (change entry).stage = entry.stage ∨ entry.stage = .sending) :
    Broken (connection.update index change) := by
  rcases broken with ⟨other, entry, found, broken⟩
  by_cases same : index = other
  · subst same
    refine ⟨index, change entry, update_same found, ?_⟩
    rcases harmless entry found with kept | sending
    · exact broken.congr kept
    · exact absurd sending broken.done.1
  · exact ⟨other, entry, (update_other same).trans found, broken⟩

theorem Broken.next (wired : Wired connection) (broken : Broken connection) {event : Event}
    (possible : Possible connection event) : Broken (connection.next event) := by
  cases event with
  | start call answers =>
      rcases broken with ⟨index, entry, found, broken⟩
      have inside := (List.getElem?_eq_some_iff.mp found).1
      refine ⟨index, entry, (List.getElem?_append_left inside).trans found, ?_⟩
      apply broken.rehook
      intro rehooked
      change (if call.isScan then some connection.entries.length
        else connection.scanWaiter) = some index at rehooked
      split at rehooked
      · cases rehooked
        exact absurd inside (Nat.lt_irrefl _)
      · exact rehooked
  | sent index =>
      rcases possible with ⟨entry, found, sending⟩
      have harmless : ∀ other, connection.entries[index]? = some other →
          other.stage = .sending := by
        intro other there
        cases found.symm.trans there
        exact sending
      change Broken (connection.awaitReply index)
      unfold Connection.awaitReply
      cases connection.inbox with
      | cons message inbox =>
          apply Broken.update
          · exact broken
          · exact fun other there => Or.inr (harmless other there)
      | nil =>
          exact @Broken.update connection broken index
            (fun entry => { entry with stage := .waiting })
            (fun other there => Or.inr (harmless other there))
  | arrive index =>
      rcases possible with ⟨entry, found, short⟩
      rw [next_arrive found short]
      have counted := @Broken.update _ broken index Entry.counted (fun _ _ => Or.inl rfl)
      exact counted.onMessage (wired.counted index) _

private theorem broken_of_not_inTurn (wired : Wired connection) {event : Event}
    (possible : Possible connection event) (mistaken : ¬ InTurn connection event) :
    Broken (connection.next event) := by
  cases event with
  | start call answers =>
      rcases Classical.not_imp.mp mistaken with ⟨scans, hooked⟩
      cases hook : connection.scanWaiter with
      | none => exact absurd hook hooked
      | some scan =>
          rcases wired.hook scan hook with ⟨entry, messages, found, scanning⟩
          have inside := (List.getElem?_eq_some_iff.mp found).1
          refine ⟨scan, entry, (List.getElem?_append_left inside).trans found, ?_⟩
          apply Entry.broken_of_scanning scanning
          apply Or.inr
          intro same
          change (if call.isScan then some connection.entries.length
            else connection.scanWaiter) = some scan at same
          rw [if_pos scans] at same
          cases same
          exact absurd inside (Nat.lt_irrefl _)
  | sent index =>
      rcases possible with ⟨entry, found, sending⟩
      change Broken (connection.awaitReply index)
      unfold Connection.awaitReply
      unfold InTurn at mistaken
      cases queue : connection.inbox with
      | nil =>
          rw [queue] at mistaken
          exact absurd (fun _ member => by cases member) mistaken
      | cons message inbox =>
          rw [queue] at mistaken
          refine ⟨index, _, update_same found, ?_⟩
          apply settled_broken
          intro same
          apply mistaken
          intro first member
          cases member
          exact same
  | arrive index =>
      rcases possible with ⟨entry, found, short⟩
      rw [next_arrive found short]
      exact broken_of_mistaken (wired.counted index) ⟨index, entry.answers[entry.arrived]⟩ mistaken

private theorem Broken.not_resolved (broken : Broken connection) : ¬ AllResolved connection := by
  intro resolved
  rcases broken with ⟨index, entry, found, broken⟩
  rcases resolved index entry found with ⟨value, -, stage⟩
  rcases broken.cases with rejected | ⟨other, messages, same, message, member, foreign⟩ |
    ⟨messages, scanning, -⟩
  · cases stage.symm.trans rejected
  · cases stage.symm.trans same
    rcases List.mem_map.mp member with ⟨datagram, -, rfl⟩
    exact foreign rfl
  · cases stage.symm.trans scanning

end Broken

section Own

variable {rid : Nat} (bounded : rid < 2 ^ 32) (op : UInt8) (payload : Bytes)

include bounded

theorem roundtrip_own (call : Call) :
    call.roundtrip rid (toBeBytes 4 rid ++ op :: payload) = call.finish op payload := by
  have four : (toBeBytes 4 rid).length = 4 := length_toBeBytes 4 rid
  have long : ¬ (toBeBytes 4 rid ++ op :: payload).length < 5 := by
    rw [List.length_append, List.length_cons, four]
    omega
  have same : fromBeBytes (toBeBytes 4 rid) = rid := fromBeBytes_toBeBytes_of_lt bounded
  have head : (toBeBytes 4 rid ++ [op]).length = 5 := by
    rw [List.length_append, four]
    rfl
  unfold Call.roundtrip
  rw [if_neg long, List.take_left' four, same, if_neg (not_not_intro rfl),
    List.getD_append_right _ _ _ _ (Nat.le_of_eq four), four, List.append_cons (toBeBytes 4 rid),
    List.drop_left' head]
  rfl

private theorem scanReply_own :
    scanReply rid (toBeBytes 4 rid ++ op :: payload) =
      if op = 0x91 then .finished else if op ≠ 0x90 then .failed else .chunk := by
  have four : (toBeBytes 4 rid).length = 4 := length_toBeBytes 4 rid
  have long : ¬ (toBeBytes 4 rid ++ op :: payload).length < 5 := by
    rw [List.length_append, List.length_cons, four]
    omega
  have same : fromBeBytes (toBeBytes 4 rid) = rid := fromBeBytes_toBeBytes_of_lt bounded
  unfold scanReply
  rw [if_neg long, List.take_left' four, same, if_neg (not_not_intro rfl),
    List.getD_append_right _ _ _ _ (Nat.le_of_eq four), four]
  rfl

end Own

private theorem readUInt32BE_behind {front rest : Bytes} {offset number : Nat}
    (behind : front.length = offset) (small : number < fieldLimit) :
    readUInt32BE (front ++ (toBeBytes 4 number ++ rest)) offset = some number := by
  unfold readUInt32BE
  rw [if_neg, List.drop_left' behind, List.take_left' (length_toBeBytes 4 number)]
  · exact congrArg some (fromBeBytes_toBeBytes_of_lt small)
  · rw [List.length_append, List.length_append, length_toBeBytes]
    omega

private theorem readPair_chunk (requestId total index : Nat) {pair : Bytes × Bytes}
    (fits : PairFits pair) :
    readPair (chunkDatagram requestId total index pair) = some pair := by
  rcases Python.chunkPayload_parts requestId total index pair with ⟨header, four, same⟩
  rcases pair with ⟨key, value⟩
  have head : (toBeBytes 4 requestId ++ [scanChunkOpcode]).length = 5 := by
    rw [List.length_append, length_toBeBytes]
    rfl
  have body : (chunkDatagram requestId total index (key, value)).drop 5 =
      header ++ (toBeBytes 4 key.length ++ (key ++ (toBeBytes 4 value.length ++ value))) := by
    have datagram : chunkDatagram requestId total index (key, value) = toBeBytes 4 requestId ++
        scanChunkOpcode :: (scanChunk requestId total index (pairEntry (key, value))).payload := rfl
    rw [datagram, List.append_cons, List.drop_left' head, same]
  have eight : (header ++ toBeBytes 4 key.length).length = 4 + 4 := by
    rw [List.length_append, length_toBeBytes, four]
  have behindKey : (header ++ toBeBytes 4 key.length ++ key).length = 4 + 4 + key.length := by
    rw [List.length_append, eight]
  have behindLength : (header ++ toBeBytes 4 key.length ++ key ++ toBeBytes 4 value.length).length =
      4 + 4 + key.length + 4 := by
    rw [List.length_append, behindKey, length_toBeBytes]
  unfold readPair
  simp only [Option.bind_eq_bind]
  rw [body, readUInt32BE_behind four fits.1, Option.bind_some, ← List.append_assoc header,
    List.drop_left' eight, List.take_left' rfl,
    ← List.append_assoc (header ++ toBeBytes 4 key.length), readUInt32BE_behind behindKey fits.2,
    Option.bind_some, ← List.append_assoc (header ++ toBeBytes 4 key.length ++ key),
    List.drop_left' behindLength, List.take_length]

theorem Answers.single {call : Call} {rid : Nat} {answers : List Bytes}
    (given : Answers call rid answers) (bounded : rid < 2 ^ 32) (single : call.isScan = false) :
    ∃ datagram, answers = [datagram] ∧ (call.roundtrip rid datagram).isSome = true := by
  have settles : ∀ (op : UInt8) (payload : Bytes), (call.finish op payload).isSome = true →
      (call.roundtrip rid (toBeBytes 4 rid ++ op :: payload)).isSome = true := by
    intro op payload finishes
    rw [roundtrip_own bounded]
    exact finishes
  cases given with
  | found key value =>
      refine ⟨_, rfl, settles 0x81 (lengthPrefixed value) ?_⟩
      unfold Call.finish
      simp only
      rw [if_pos trivial, if_neg]
      · rfl
      · rw [length_lengthPrefixed]
        omega
  | missing key => exact ⟨_, rfl, settles 0x80 [] rfl⟩
  | written key value durationMs => exact ⟨_, rfl, settles 0x80 [] rfl⟩
  | deleted key => exact ⟨_, rfl, settles 0x80 [] rfl⟩
  | compared key expected rid matched =>
      exact ⟨_, rfl, settles 0x81 [if matched then 0x01 else 0x00] rfl⟩
  | dated key durationMs => exact ⟨_, rfl, settles 0x80 [] rfl⟩
  | scanned stem rid pairs fits => cases single

private theorem mapM_mapIdx {α β : Type} {read : β → Option α} (write : Nat → α → β)
    (items : List α)
    (back : ∀ index, ∀ item ∈ items, read (write index item) = some item) :
    (items.mapIdx write).mapM read = some items := by
  induction items generalizing write with
  | nil => rfl
  | cons item items ih =>
      have rest := ih (fun index => write (index + 1))
        (fun index other member => back (index + 1) other (List.mem_cons_of_mem _ member))
      rw [List.mapIdx_cons, List.mapM_cons, back 0 item (List.mem_cons_self ..), rest]
      rfl

theorem Answers.stream {call : Call} {rid : Nat} {answers : List Bytes}
    (given : Answers call rid answers) (bounded : rid < 2 ^ 32) (scans : call.isScan = true) :
    ∃ chunks last, answers = chunks ++ [last] ∧
      (∀ chunk ∈ chunks, scanReply rid chunk = .chunk) ∧ scanReply rid last = .finished ∧
      (chunks.mapM readPair).isSome = true := by
  cases given with
  | scanned stem rid pairs fits =>
      refine ⟨(pairs.take maxChunks).mapIdx (chunkDatagram rid (min pairs.length maxChunks)),
        writeLocalToBuffer (scanEnd rid), ?_, ?_, ?_, ?_⟩
      · unfold scanDatagrams scanResponses
        rw [List.map_append, List.length_map, ← List.map_take]
        congr 1
        apply List.ext_getElem?
        intro index
        simp only [List.getElem?_map, List.getElem?_mapIdx, Option.map_map]
        rfl
      · intro chunk member
        rcases List.mem_mapIdx.mp member with ⟨index, inside, rfl⟩
        exact scanReply_own bounded 0x90 _
      · exact scanReply_own bounded 0x91 []
      · rw [mapM_mapIdx]
        · rfl
        · exact fun index pair member =>
            readPair_chunk rid _ index (fits pair (List.mem_of_mem_take member))
  | found key value => cases scans
  | missing key => cases scans
  | written key value durationMs => cases scans
  | deleted key => cases scans
  | compared key expected rid matched => cases scans
  | dated key durationMs => cases scans

/-! ### When everything goes in turn -/

/-- Where a call stands while everything goes in turn. -/
def Entry.InOrder (connection : Connection) (index : Nat) (entry : Entry) : Prop :=
  match entry.stage with
  | .sending => entry.call.isScan = false ∧
      ∀ datagram, entry.answers = [datagram] → 0 < entry.arrived →
        ⟨index, datagram⟩ ∈ connection.inbox
  | .waiting => entry.call.isScan = false ∧ entry.arrived = 0 ∧ index ∈ connection.waiters
  | .scanning messages => entry.call.isScan = true ∧ connection.scanWaiter = some index ∧
      messages = (entry.answers.take entry.arrived).map (Message.mk index) ∧
      entry.arrived < entry.answers.length
  | .resolved value messages => entry.arrived = entry.answers.length ∧
      messages = entry.answers.map (Message.mk index) ∧
      entry.call.outcome entry.rid entry.answers = some value
  | .rejected => False

structure InOrder (connection : Connection) : Prop where
  bounded : connection.requestId < 2 ^ 32
  entries : ∀ (index : Nat) (entry : Entry), connection.entries[index]? = some entry →
    entry.rid < 2 ^ 32 ∧ Answers entry.call entry.rid entry.answers ∧
      entry.InOrder connection index
  inbox : ∀ message ∈ connection.inbox, ∃ entry, connection.entries[message.call]? = some entry ∧
    entry.stage = .sending ∧ entry.arrived = 1 ∧ entry.answers = [message.datagram]
  distinct : (connection.inbox.map Message.call).Nodup
  oneSide : connection.waiters = [] ∨ connection.inbox = []

section InOrder

variable {connection after : Connection} {index : Nat} {entry : Entry}

private theorem Entry.inOrder_of_sending (stage : entry.stage = .sending)
    (single : entry.call.isScan = false)
    (kept : ∀ datagram, entry.answers = [datagram] → 0 < entry.arrived →
      ⟨index, datagram⟩ ∈ connection.inbox) : entry.InOrder connection index := by
  unfold Entry.InOrder
  rw [stage]
  exact ⟨single, kept⟩

private theorem Entry.inOrder_of_waiting (stage : entry.stage = .waiting)
    (single : entry.call.isScan = false) (early : entry.arrived = 0)
    (member : index ∈ connection.waiters) : entry.InOrder connection index := by
  unfold Entry.InOrder
  rw [stage]
  exact ⟨single, early, member⟩

private theorem Entry.inOrder_of_scanning {messages : List Message}
    (stage : entry.stage = .scanning messages) (scans : entry.call.isScan = true)
    (hooked : connection.scanWaiter = some index)
    (heard : messages = (entry.answers.take entry.arrived).map (Message.mk index))
    (short : entry.arrived < entry.answers.length) : entry.InOrder connection index := by
  unfold Entry.InOrder
  rw [stage]
  exact ⟨scans, hooked, heard, short⟩

private theorem Entry.inOrder_of_resolved {value : Value} {messages : List Message}
    (stage : entry.stage = .resolved value messages)
    (full : entry.arrived = entry.answers.length)
    (own : messages = entry.answers.map (Message.mk index))
    (right : entry.call.outcome entry.rid entry.answers = some value) :
    entry.InOrder connection index := by
  unfold Entry.InOrder
  rw [stage]
  exact ⟨full, own, right⟩

theorem Entry.InOrder.cases (inOrder : entry.InOrder connection index) :
    (entry.stage = .sending ∧ entry.call.isScan = false ∧
      ∀ datagram, entry.answers = [datagram] → 0 < entry.arrived →
        ⟨index, datagram⟩ ∈ connection.inbox) ∨
    (entry.stage = .waiting ∧ entry.call.isScan = false ∧ entry.arrived = 0 ∧
      index ∈ connection.waiters) ∨
    (∃ messages, entry.stage = .scanning messages ∧ entry.call.isScan = true ∧
      connection.scanWaiter = some index ∧
      messages = (entry.answers.take entry.arrived).map (Message.mk index) ∧
      entry.arrived < entry.answers.length) ∨
    ∃ value messages, entry.stage = .resolved value messages ∧
      entry.arrived = entry.answers.length ∧
      messages = entry.answers.map (Message.mk index) ∧
      entry.call.outcome entry.rid entry.answers = some value := by
  unfold Entry.InOrder at inOrder
  cases stage : entry.stage with
  | sending =>
      rw [stage] at inOrder
      exact Or.inl ⟨rfl, inOrder⟩
  | waiting =>
      rw [stage] at inOrder
      exact Or.inr (Or.inl ⟨rfl, inOrder⟩)
  | scanning messages =>
      rw [stage] at inOrder
      exact Or.inr (Or.inr (Or.inl ⟨messages, rfl, inOrder⟩))
  | resolved value messages =>
      rw [stage] at inOrder
      exact Or.inr (Or.inr (Or.inr ⟨value, messages, rfl, inOrder⟩))
  | rejected =>
      rw [stage] at inOrder
      exact inOrder.elim

theorem Entry.InOrder.elsewhere (inOrder : entry.InOrder connection index)
    (hook : connection.scanWaiter = some index → after.scanWaiter = some index)
    (waits : index ∈ connection.waiters → index ∈ after.waiters)
    (keeps : ∀ message ∈ connection.inbox, message.call = index → message ∈ after.inbox) :
    entry.InOrder after index := by
  rcases inOrder.cases with ⟨stage, single, kept⟩ | ⟨stage, single, early, member⟩ |
    ⟨messages, stage, scans, hooked, heard, short⟩ | ⟨value, messages, stage, full, own, right⟩
  · apply Entry.inOrder_of_sending stage single
    exact fun datagram same some => keeps _ (kept datagram same some) rfl
  · exact Entry.inOrder_of_waiting stage single early (waits member)
  · exact Entry.inOrder_of_scanning stage scans (hook hooked) heard short
  · exact Entry.inOrder_of_resolved stage full own right

theorem InOrder.initial : InOrder Connection.initial where
  bounded := by decide
  entries := fun _ _ found => by cases found
  inbox := fun _ member => by cases member
  distinct := List.nodup_nil
  oneSide := Or.inl rfl

private theorem InOrder.sending (inOrder : InOrder connection)
    (found : connection.entries[index]? = some entry) (sending : entry.stage = .sending) :
    entry.call.isScan = false ∧ ∃ datagram, entry.answers = [datagram] ∧
      (entry.call.roundtrip entry.rid datagram).isSome = true ∧
      (0 < entry.arrived → ⟨index, datagram⟩ ∈ connection.inbox) := by
  rcases inOrder.entries index entry found with ⟨bounded, given, here⟩
  rcases here.cases with ⟨stage, single, kept⟩ | ⟨stage, -⟩ | ⟨messages, stage, -⟩ |
    ⟨value, messages, stage, -⟩
  · rcases given.single bounded single with ⟨datagram, same, settles⟩
    exact ⟨single, datagram, same, settles, kept datagram same⟩
  · cases stage.symm.trans sending
  · cases stage.symm.trans sending
  · cases stage.symm.trans sending

theorem InOrder.waiting (inOrder : InOrder connection)
    (found : connection.entries[index]? = some entry) (waiting : entry.stage = .waiting) :
    entry.call.isScan = false ∧ ∃ datagram, entry.answers = [datagram] ∧
      (entry.call.roundtrip entry.rid datagram).isSome = true ∧ entry.arrived = 0 ∧
      index ∈ connection.waiters := by
  rcases inOrder.entries index entry found with ⟨bounded, given, here⟩
  rcases here.cases with ⟨stage, -⟩ | ⟨stage, single, early, member⟩ | ⟨messages, stage, -⟩ |
    ⟨value, messages, stage, -⟩
  · cases stage.symm.trans waiting
  · rcases given.single bounded single with ⟨datagram, same, settles⟩
    exact ⟨single, datagram, same, settles, early, member⟩
  · cases stage.symm.trans waiting
  · cases stage.symm.trans waiting

private theorem outcome_single {call : Call} (single : call.isScan = false) (rid : Nat)
    (datagram : Bytes) : call.outcome rid [datagram] = call.roundtrip rid datagram := by
  cases call with
  | scan stem => cases single
  | read key => rfl
  | write key value durationMs => rfl
  | del key => rfl
  | cad key expected => rfl
  | ttl key durationMs => rfl

private theorem outcome_stream {call : Call} (scans : call.isScan = true) (rid : Nat)
    {chunks : List Bytes} {last : Bytes} {pairs : List (Bytes × Bytes)}
    (read : chunks.mapM readPair = some pairs) :
    call.outcome rid (chunks ++ [last]) = some (.pairs pairs) := by
  cases call with
  | scan stem =>
      unfold Call.outcome
      simp only
      rw [List.dropLast_concat, read]
      rfl
  | read key => cases scans
  | write key value durationMs => cases scans
  | del key => cases scans
  | cad key expected => cases scans
  | ttl key durationMs => cases scans

private theorem settled_own {datagram : Bytes} (notScan : entry.call.isScan = false)
    (single : entry.answers = [datagram])
    (settles : (entry.call.roundtrip entry.rid datagram).isSome = true)
    (arrived : entry.arrived = 1) :
    (entry.settled ⟨index, datagram⟩).rid = entry.rid ∧
      (entry.settled ⟨index, datagram⟩).call = entry.call ∧
      (entry.settled ⟨index, datagram⟩).answers = entry.answers ∧
      (entry.settled ⟨index, datagram⟩).InOrder after index := by
  rcases settled_cases ⟨index, datagram⟩ entry with ⟨value, right, settled⟩ | settled
  · rw [settled]
    refine ⟨rfl, rfl, rfl, ?_⟩
    apply Entry.inOrder_of_resolved rfl
    · rw [single]
      exact arrived
    · rw [single]
      rfl
    · rw [single]
      exact (outcome_single notScan entry.rid datagram).trans right
  · rcases Option.isSome_iff_exists.mp settles with ⟨value, same⟩
    unfold Entry.settled at settled
    rw [same] at settled
    cases settled

private theorem Connection.entry_update {change : Entry → Entry} {other : Nat} {otherEntry : Entry}
    (found : connection.entries[index]? = some entry)
    (there : (connection.update index change).entries[other]? = some otherEntry) :
    (other = index ∧ otherEntry = change entry) ∨
      (other ≠ index ∧ connection.entries[other]? = some otherEntry) := by
  by_cases same : other = index
  · subst same
    rw [update_same found] at there
    cases there
    exact Or.inl ⟨rfl, rfl⟩
  · rw [update_other (fun eq => same eq.symm)] at there
    exact Or.inr ⟨same, there⟩

theorem InOrder.start (inOrder : InOrder connection) {call : Call} {answers : List Bytes}
    (given : Answers call connection.requestId answers)
    (free : call.isScan = true → connection.scanWaiter = none) :
    InOrder (connection.start call answers) where
  bounded := Nat.mod_lt _ (by decide)
  entries := by
    intro index entry found
    change (connection.entries ++ _)[index]? = some entry at found
    by_cases inside : index < connection.entries.length
    · rw [List.getElem?_append_left inside] at found
      rcases inOrder.entries index entry found with ⟨bounded, answered, here⟩
      refine ⟨bounded, answered, here.elsewhere ?_ id (fun _ member _ => member)⟩
      intro hooked
      change (if call.isScan then some connection.entries.length
        else connection.scanWaiter) = some index
      by_cases scans : call.isScan = true
      · rw [free scans] at hooked
        cases hooked
      · rw [if_neg scans]
        exact hooked
    · have last : index = connection.entries.length := by
        have bound := (List.getElem?_eq_some_iff.mp found).1
        rw [List.length_append, List.length_singleton] at bound
        omega
      subst last
      rw [List.getElem?_concat_length] at found
      cases found
      refine ⟨inOrder.bounded, given, ?_⟩
      by_cases scans : call.isScan = true
      · have stream := given.stream inOrder.bounded scans
        rcases stream with ⟨chunks, last, same, -⟩
        apply @Entry.inOrder_of_scanning _ _ _ []
        · exact if_pos scans
        · exact scans
        · exact if_pos scans
        · rfl
        · change 0 < answers.length
          rw [same, List.length_append, List.length_singleton]
          omega
      · apply Entry.inOrder_of_sending
        · exact if_neg scans
        · exact eq_false_of_ne_true scans
        · exact fun _ _ some => absurd some (Nat.lt_irrefl 0)
  inbox := by
    intro message member
    rcases inOrder.inbox message member with ⟨entry, found, rest⟩
    exact ⟨entry, (List.getElem?_append_left (List.getElem?_eq_some_iff.mp found).1).trans found,
      rest⟩
  distinct := inOrder.distinct
  oneSide := inOrder.oneSide

private theorem InOrder.awaitReply (inOrder : InOrder connection)
    (found : connection.entries[index]? = some entry) (stage : entry.stage = .sending)
    (own : ∀ message ∈ connection.inbox.head?, message.call = index) :
    InOrder (connection.awaitReply index) := by
  rcases inOrder.sending found stage with ⟨single, datagram, answered, settles, kept⟩
  have here := inOrder.entries index entry found
  cases queue : connection.inbox with
  | cons message inbox =>
      rw [awaitReply_kept index queue]
      rw [queue] at own
      have mine : message.call = index := own message rfl
      have distinct := inOrder.distinct
      rw [queue, List.map_cons, List.nodup_cons, mine] at distinct
      have foreign : ∀ other ∈ inbox, other.call ≠ index :=
        fun other member same => distinct.1 (List.mem_map.mpr ⟨other, member, same⟩)
      have first : message ∈ connection.inbox := by
        rw [queue]
        exact List.mem_cons_self ..
      have arrived : entry.arrived = 1 ∧ message = ⟨index, datagram⟩ := by
        rcases inOrder.inbox message first with ⟨other, there, -, one, same⟩
        rw [mine] at there
        cases found.symm.trans there
        cases answered.symm.trans same
        exact ⟨one, by rw [← mine]⟩
      rcases arrived with ⟨one, rfl⟩
      rcases @settled_own { connection with inbox := inbox } index entry datagram single answered
        settles one with ⟨sameRid, sameCall, sameAnswers, settled⟩
      refine ⟨inOrder.bounded, ?_, ?_, distinct.2, ?_⟩
      · intro other otherEntry there
        rcases @Connection.entry_update { connection with inbox := inbox } index entry _ other
          otherEntry found there with ⟨rfl, rfl⟩ | ⟨different, there⟩
        · refine ⟨?_, ?_, settled⟩
          · rw [sameRid]
            exact here.1
          · rw [sameRid, sameCall, sameAnswers]
            exact here.2.1
        · rcases inOrder.entries other otherEntry there with ⟨bounded, given, stands⟩
          refine ⟨bounded, given, stands.elsewhere id id ?_⟩
          intro message member same
          rw [queue] at member
          rcases List.mem_cons.mp member with rfl | later
          · exact absurd same.symm different
          · exact later
      · intro other member
        rcases inOrder.inbox other (by rw [queue]; exact List.mem_cons_of_mem _ member) with
          ⟨otherEntry, there, rest⟩
        exact ⟨otherEntry, (update_other (fun same => foreign other member same.symm)).trans there,
          rest⟩
      · rcases inOrder.oneSide with idle | empty
        · exact Or.inl idle
        · rw [queue] at empty
          cases empty
  | nil =>
      have early : entry.arrived = 0 := by
        apply Nat.eq_zero_of_not_pos
        intro some
        have member := kept some
        rw [queue] at member
        cases member
      rw [awaitReply_waiting index queue]
      refine ⟨inOrder.bounded, ?_, ?_, inOrder.distinct, Or.inr queue⟩
      · intro other otherEntry there
        rcases @Connection.entry_update
          { connection with waiters := connection.waiters ++ [index] } index entry _ other
          otherEntry found there with ⟨rfl, rfl⟩ | ⟨different, there⟩
        · refine ⟨here.1, here.2.1, ?_⟩
          apply Entry.inOrder_of_waiting
          · rfl
          · exact single
          · exact early
          · exact List.mem_append_right _ (List.mem_singleton_self _)
        · rcases inOrder.entries other otherEntry there with ⟨bounded, given, stands⟩
          exact ⟨bounded, given, stands.elsewhere id (fun member => List.mem_append_left _ member)
            (fun _ member _ => member)⟩
      · intro message member
        change message ∈ connection.inbox at member
        rw [queue] at member
        cases member

private theorem heard_own {messages : List Message} (stage : entry.stage = .scanning messages)
    (bounded : entry.rid < 2 ^ 32) (given : Answers entry.call entry.rid entry.answers)
    (scans : entry.call.isScan = true)
    (heard : messages = (entry.answers.take entry.arrived).map (Message.mk index))
    (short : entry.arrived < entry.answers.length)
    (hook : (entry.counted.heard ⟨index, entry.answers[entry.arrived]⟩).2 = true →
      after.scanWaiter = some index) :
    (entry.counted.heard ⟨index, entry.answers[entry.arrived]⟩).1.rid = entry.rid ∧
      (entry.counted.heard ⟨index, entry.answers[entry.arrived]⟩).1.call = entry.call ∧
      (entry.counted.heard ⟨index, entry.answers[entry.arrived]⟩).1.answers = entry.answers ∧
      (entry.counted.heard ⟨index, entry.answers[entry.arrived]⟩).1.InOrder after index := by
  rcases given.stream bounded scans with ⟨chunks, last, answered, chunked, ended, readable⟩
  have extended : messages ++ [⟨index, entry.answers[entry.arrived]⟩] =
      (entry.answers.take (entry.arrived + 1)).map (Message.mk index) := by
    rw [List.take_add_one, List.getElem?_eq_getElem short, List.map_append, ← heard]
    rfl
  have total : entry.answers.length = chunks.length + 1 := by
    rw [answered, List.length_append, List.length_singleton]
  by_cases within : entry.arrived < chunks.length
  · have next : entry.answers[entry.arrived] = chunks[entry.arrived] := by
      simp only [answered]
      exact List.getElem_append_left within
    have stays : entry.counted.heard ⟨index, entry.answers[entry.arrived]⟩ =
        ({ entry.counted with
          stage := .scanning (messages ++ [⟨index, entry.answers[entry.arrived]⟩]) }, true) := by
      unfold Entry.heard
      change (match entry.stage with
        | .scanning messages => _
        | _ => _) = _
      rw [stage]
      simp only [next]
      change (match scanReply entry.rid chunks[entry.arrived] with
        | .chunk => _
        | .failed => _
        | .finished => _) = _
      rw [chunked _ (List.getElem_mem within)]
    rw [stays]
    rw [stays] at hook
    refine ⟨rfl, rfl, rfl, ?_⟩
    apply @Entry.inOrder_of_scanning
    · rfl
    · exact scans
    · exact hook rfl
    · exact extended
    · change entry.arrived + 1 < entry.answers.length
      omega
  · have full : entry.arrived = chunks.length := by omega
    have next : entry.answers[entry.arrived] = last := by
      simp only [answered, full]
      exact List.getElem_concat_length rfl _
    have before : messages.map Message.datagram = chunks := by
      rw [heard, List.map_map, full, answered, List.take_left' rfl]
      exact List.map_id' chunks
    rcases Option.isSome_iff_exists.mp readable with ⟨pairs, read⟩
    have finished : entry.counted.heard ⟨index, entry.answers[entry.arrived]⟩ =
        ({ entry.counted with
          stage := .resolved (.pairs pairs)
            (messages ++ [⟨index, entry.answers[entry.arrived]⟩]) }, false) := by
      unfold Entry.heard
      change (match entry.stage with
        | .scanning messages => _
        | _ => _) = _
      rw [stage]
      simp only [next]
      change (match scanReply entry.rid last with
        | .chunk => _
        | .failed => _
        | .finished => _) = _
      rw [ended]
      simp only [before, read]
    rw [finished]
    refine ⟨rfl, rfl, rfl, ?_⟩
    apply @Entry.inOrder_of_resolved
    · rfl
    · change entry.arrived + 1 = entry.answers.length
      omega
    · rw [extended]
      apply congrArg (List.map (Message.mk index))
      apply List.take_of_length_le
      omega
    · change entry.call.outcome entry.rid entry.answers = _
      rw [answered]
      exact outcome_stream scans entry.rid read

theorem InOrder.changed (inOrder : InOrder connection) {change : Entry → Entry}
    {inbox : List Message} {waiters : List Nat} {scanWaiter : Option Nat}
    (found : connection.entries[index]? = some entry)
    (same : (change entry).rid = entry.rid ∧ (change entry).call = entry.call ∧
      (change entry).answers = entry.answers ∧ (change entry).InOrder
        { connection.update index change with
          inbox := inbox, waiters := waiters, scanWaiter := scanWaiter } index)
    (hook : ∀ other, other ≠ index → connection.scanWaiter = some other →
      scanWaiter = some other)
    (waits : ∀ other ∈ connection.waiters, other ≠ index → other ∈ waiters)
    (keeps : ∀ message ∈ connection.inbox, message ∈ inbox)
    (kept : ∀ message ∈ inbox, ∃ entry,
      (connection.update index change).entries[message.call]? = some entry ∧
        entry.stage = .sending ∧ entry.arrived = 1 ∧ entry.answers = [message.datagram])
    (distinct : (inbox.map Message.call).Nodup) (oneSide : waiters = [] ∨ inbox = []) :
    InOrder { connection.update index change with
      inbox := inbox, waiters := waiters, scanWaiter := scanWaiter } where
  bounded := inOrder.bounded
  entries := by
    intro other otherEntry there
    rcases Connection.entry_update found there with ⟨rfl, rfl⟩ | ⟨different, there⟩
    · rcases inOrder.entries other entry found with ⟨bounded, given, -⟩
      rcases same with ⟨sameRid, sameCall, sameAnswers, stands⟩
      refine ⟨?_, ?_, stands⟩
      · rw [sameRid]
        exact bounded
      · rw [sameRid, sameCall, sameAnswers]
        exact given
    · rcases inOrder.entries other otherEntry there with ⟨bounded, given, stands⟩
      refine ⟨bounded, given, stands.elsewhere ?_ ?_ ?_⟩
      · exact hook other different
      · exact fun member => waits other member different
      · exact fun message member _ => keeps message member
  inbox := kept
  distinct := distinct
  oneSide := oneSide

private theorem InOrder.kept_after (inOrder : InOrder connection) {change : Entry → Entry}
    (found : connection.entries[index]? = some entry)
    (apart : entry.stage = .sending → entry.arrived ≠ 1) :
    ∀ message ∈ connection.inbox, message.call ≠ index ∧ ∃ entry,
      (connection.update index change).entries[message.call]? = some entry ∧
        entry.stage = .sending ∧ entry.arrived = 1 ∧ entry.answers = [message.datagram] := by
  intro message member
  rcases inOrder.inbox message member with ⟨other, there, sending, one, answered⟩
  have different : message.call ≠ index := by
    intro same
    rw [same] at there
    cases found.symm.trans there
    exact apart sending one
  exact ⟨different, other, (update_other (fun same => different same.symm)).trans there, sending,
    one, answered⟩

private theorem update_update (first second : Entry → Entry) :
    (connection.update index first).update index second =
      connection.update index (fun entry => second (first entry)) := by
  unfold Connection.update
  simp only
  rw [List.modify_modify_eq]
  rfl

/-- A datagram for the hook is one of its scan. -/
private theorem InOrder.arrive_hooked (inOrder : InOrder connection) (wired : Wired connection)
    (found : connection.entries[index]? = some entry) (short : entry.arrived < entry.answers.length)
    (hooked : connection.scanWaiter = some index) :
    InOrder ((connection.update index Entry.counted).onMessage
      ⟨index, entry.answers[entry.arrived]⟩) := by
  have counted : (connection.update index Entry.counted).entries[index]? = some entry.counted :=
    update_same found
  rcases inOrder.entries index entry found with ⟨bounded, given, here⟩
  rcases wired.hook index hooked with ⟨other, messages, there, stage⟩
  cases found.symm.trans there
  have hookedNow : (connection.update index Entry.counted).scanWaiter = some index := hooked
  rw [onMessage_hooked hookedNow counted, update_update]
  have aside : entry.stage = .sending → entry.arrived ≠ 1 := by
    intro sending
    cases stage.symm.trans sending
  apply inOrder.changed found
  · rcases here.cases with ⟨other, -⟩ | ⟨other, -⟩ | ⟨heard, same, scans, -, own, -⟩ |
      ⟨value, heard, other, -⟩
    · cases stage.symm.trans other
    · cases stage.symm.trans other
    · exact heard_own same bounded given scans own short (fun stays => if_pos stays)
    · cases stage.symm.trans other
  · intro other different same
    cases hooked.symm.trans same
    exact absurd rfl different
  · exact fun _ member _ => member
  · exact fun _ member => member
  · exact fun message member => (inOrder.kept_after found aside message member).2
  · exact inOrder.distinct
  · exact inOrder.oneSide

/-- A datagram for the first in the queue is the answer to it. -/
private theorem InOrder.arrive_waiting (inOrder : InOrder connection) (wired : Wired connection)
    (found : connection.entries[index]? = some entry) (short : entry.arrived < entry.answers.length)
    (hooked : connection.scanWaiter = none) {waiters : List Nat}
    (queue : connection.waiters = index :: waiters) :
    InOrder ((connection.update index Entry.counted).onMessage
      ⟨index, entry.answers[entry.arrived]⟩) := by
  rcases wired.waiting index (by rw [queue]; exact List.mem_cons_self ..) with
    ⟨other, there, stage⟩
  cases found.symm.trans there
  rcases inOrder.waiting found stage with ⟨single, datagram, answered, settles, early, -⟩
  have first : entry.answers[entry.arrived] = datagram := by
    simp only [answered, early]
    rfl
  have empty : connection.inbox = [] := by
    rcases inOrder.oneSide with idle | empty
    · rw [queue] at idle
      cases idle
    · exact empty
  have unhooked : (connection.update index Entry.counted).scanWaiter = none := hooked
  have queueNow : (connection.update index Entry.counted).waiters = index :: waiters :=
    queue
  rw [onMessage_waiting unhooked queueNow]
  have both := @update_update { connection with waiters := waiters } index Entry.counted
    (Entry.settled ⟨index, entry.answers[entry.arrived]⟩)
  change InOrder (({ connection with waiters := waiters }.update index Entry.counted).update
    index (Entry.settled ⟨index, entry.answers[entry.arrived]⟩))
  rw [both, first]
  apply @InOrder.changed connection index entry inOrder _ connection.inbox waiters
    connection.scanWaiter found
  · exact @settled_own _ index entry.counted datagram single answered settles
      (congrArg (· + 1) early)
  · exact fun _ _ same => same
  · intro other member different
    rw [queue] at member
    rcases List.mem_cons.mp member with same | later
    · exact absurd same different
    · exact later
  · exact fun _ member => member
  · intro message member
    rw [empty] at member
    cases member
  · exact inOrder.distinct
  · exact Or.inr empty

/-- A datagram that nobody waits for is kept for a call that is being sent. -/
private theorem InOrder.arrive_kept (inOrder : InOrder connection)
    (found : connection.entries[index]? = some entry) (short : entry.arrived < entry.answers.length)
    (hooked : connection.scanWaiter = none) (queue : connection.waiters = []) :
    InOrder ((connection.update index Entry.counted).onMessage
      ⟨index, entry.answers[entry.arrived]⟩) := by
  have counted : (connection.update index Entry.counted).entries[index]? = some entry.counted :=
    update_same found
  rcases inOrder.entries index entry found with ⟨-, -, here⟩
  have unhooked : (connection.update index Entry.counted).scanWaiter = none := hooked
  have queueNow : (connection.update index Entry.counted).waiters = [] := queue
  rw [onMessage_kept unhooked queueNow]
  rcases here.cases with ⟨stage, single, kept⟩ | ⟨stage, single, early, member⟩ |
    ⟨heard, stage, scans, same, -⟩ | ⟨value, heard, stage, full, -⟩
  · rcases inOrder.sending found stage with ⟨-, datagram, answered, -, before⟩
    have early : entry.arrived = 0 := by
      rw [answered, List.length_singleton] at short
      omega
    have first : entry.answers[entry.arrived] = datagram := by
      simp only [answered, early]
      rfl
    have aside : entry.stage = .sending → entry.arrived ≠ 1 := by
      intro _ one
      omega
    have others := @InOrder.kept_after _ _ _ inOrder Entry.counted found aside
    rw [first]
    apply @InOrder.changed connection index entry inOrder Entry.counted
      (connection.inbox ++ [Message.mk index datagram]) connection.waiters
      connection.scanWaiter found
    · refine ⟨rfl, rfl, rfl, ?_⟩
      apply Entry.inOrder_of_sending
      · exact stage
      · exact single
      · intro other same _
        cases answered.symm.trans same
        exact List.mem_append_right _ (List.mem_singleton_self _)
    · exact fun _ _ same => same
    · exact fun _ member _ => member
    · exact fun _ member => List.mem_append_left _ member
    · intro message member
      rcases List.mem_append.mp member with old | new
      · exact (others message old).2
      · rw [List.mem_singleton.mp new]
        exact ⟨entry.counted, counted, stage, congrArg (· + 1) early, answered⟩
    · rw [List.map_append, List.map_singleton]
      apply List.Nodup.append inOrder.distinct (List.nodup_singleton _)
      intro call old new
      rcases List.mem_map.mp old with ⟨message, member, rfl⟩
      exact (others message member).1 (List.mem_singleton.mp new)
    · exact Or.inl queue
  · rw [queue] at member
    cases member
  · cases hooked.symm.trans same
  · omega

private theorem InOrder.arrive (inOrder : InOrder connection) (wired : Wired connection)
    (found : connection.entries[index]? = some entry) (short : entry.arrived < entry.answers.length)
    (inTurn : InTurn connection (.arrive index)) :
    InOrder ((connection.update index Entry.counted).onMessage
      ⟨index, entry.answers[entry.arrived]⟩) := by
  unfold InTurn at inTurn
  cases hooked : connection.scanWaiter with
  | some scan =>
      rw [hooked] at inTurn
      subst inTurn
      exact inOrder.arrive_hooked wired found short hooked
  | none =>
      rw [hooked] at inTurn
      cases queue : connection.waiters with
      | cons waiter waiters =>
          rw [queue] at inTurn
          have mine : waiter = index := inTurn waiter rfl
          subst mine
          exact inOrder.arrive_waiting wired found short hooked queue
      | nil => exact inOrder.arrive_kept found short hooked queue

theorem InOrder.next (inOrder : InOrder connection) (wired : Wired connection) {event : Event}
    (possible : Possible connection event) (inTurn : InTurn connection event) :
    InOrder (connection.next event) := by
  cases event with
  | start call answers => exact inOrder.start possible inTurn
  | sent index =>
      rcases possible with ⟨entry, found, sending⟩
      exact inOrder.awaitReply found sending inTurn
  | arrive index =>
      rcases possible with ⟨entry, found, short⟩
      rw [next_arrive found short]
      exact inOrder.arrive wired found short inTurn

theorem InOrder.resolved (inOrder : InOrder connection) (complete : Complete connection) :
    AllResolved connection := by
  intro index entry found
  rcases complete index entry found with ⟨unsent, full⟩
  rcases (inOrder.entries index entry found).2.2.cases with ⟨stage, -⟩ |
    ⟨stage, single, early, member⟩ | ⟨messages, stage, scans, hooked, heard, short⟩ |
    ⟨value, messages, stage, -, own, right⟩
  · exact absurd stage unsent
  · rcases inOrder.waiting found stage with ⟨-, datagram, answered, -⟩
    rw [answered, early] at full
    cases full
  · omega
  · rw [← own]
    exact ⟨value, right, stage⟩

end InOrder

/-! ### Every run -/

/-- Where every reply has arrived, all calls have been fulfilled exactly if all has gone in
turn. -/
theorem concurrent_calls_complete_iff (events : List Event)
    (possible : Along Connection.next Possible .initial events)
    (complete : Complete (events.foldl Connection.next .initial)) :
    AllResolved (events.foldl Connection.next .initial) ↔
      Along Connection.next InTurn .initial events := by
  constructor
  · intro resolved
    apply Classical.byContradiction
    intro violated
    have broken := possible.broken Wired.initial (fun wired permitted => wired.next permitted)
      (fun wired permitted mistaken => broken_of_not_inTurn wired permitted mistaken)
      (fun wired permitted broken => Broken.next wired broken permitted) violated
    exact broken.not_resolved resolved
  · intro inTurn
    have both := @Along.invariant Connection Event _ _ Connection.next
      (fun connection => Wired connection ∧ InOrder connection) _ (possible.and inTurn)
      ⟨Wired.initial, InOrder.initial⟩
      (fun kept met => ⟨kept.1.next met.1, kept.2.next kept.1 met.1 met.2⟩)
    exact both.2.resolved complete

def valueReply : Bytes := writeLocalToBuffer (createPayload 1 (lengthPrefixed [0x76]))

def readsInTurn : List Event :=
  [.start (.read [0x6B]) [valueReply], .start (.read [0x6C]) [writeLocalToBuffer (createOk 2)],
    .sent 0, .sent 1, .arrive 0, .arrive 1]

def twoReads : List Event :=
  [.start (.read [0x6B]) [writeLocalToBuffer (createOk 1)],
    .start (.read [0x6C]) [writeLocalToBuffer (createOk 2)], .sent 0, .sent 1, .arrive 1, .arrive 0]

private theorem readsInTurn_end : readsInTurn.foldl Connection.next .initial =
    { requestId := 3
      inbox := []
      waiters := []
      scanWaiter := none
      entries :=
        [⟨.read [0x6B], 1, [valueReply], 1,
            .resolved (.bytes (some [0x76])) [⟨0, valueReply⟩]⟩,
          ⟨.read [0x6C], 2, [writeLocalToBuffer (createOk 2)], 1,
            .resolved (.bytes none) [⟨1, writeLocalToBuffer (createOk 2)⟩]⟩] } := by
  decide +kernel

theorem reads_in_turn_are_resolved :
    AllResolved (readsInTurn.foldl Connection.next .initial) := by
  apply (concurrent_calls_complete_iff readsInTurn ?_ ?_).mpr
  · exact ⟨fun scans => (by cases scans), fun scans => (by cases scans),
      fun _ member => (by cases member), fun _ member => (by cases member),
      fun _ member => (by cases member; rfl), fun _ member => (by cases member; rfl), trivial⟩
  · exact ⟨Answers.found _ _ 1, Answers.missing _ 2, ⟨_, rfl, rfl⟩, ⟨_, rfl, rfl⟩,
      ⟨_, rfl, by decide⟩, ⟨_, rfl, by decide⟩, trivial⟩
  · rw [readsInTurn_end]
    intro index entry found
    match index with
    | 0 =>
        cases found
        exact ⟨fun same => (by cases same), rfl⟩
    | 1 =>
        cases found
        exact ⟨fun same => (by cases same), rfl⟩
    | index + 2 => cases found

private theorem twoReads_end : twoReads.foldl Connection.next .initial =
    { requestId := 3
      inbox := []
      waiters := []
      scanWaiter := none
      entries :=
        [⟨.read [0x6B], 1, [writeLocalToBuffer (createOk 1)], 1, .rejected⟩,
          ⟨.read [0x6C], 2, [writeLocalToBuffer (createOk 2)], 1, .rejected⟩] } := by
  decide +kernel

theorem swapped_replies_are_rejected :
    Along Connection.next Possible .initial twoReads ∧
      Complete (twoReads.foldl Connection.next .initial) ∧
      ¬ AllResolved (twoReads.foldl Connection.next .initial) := by
  rw [twoReads_end]
  refine ⟨?_, ?_, ?_⟩
  · exact ⟨Answers.missing _ 1, Answers.missing _ 2, ⟨_, rfl, rfl⟩, ⟨_, rfl, rfl⟩,
      ⟨_, rfl, by decide⟩, ⟨_, rfl, by decide⟩, trivial⟩
  · intro index entry found
    match index with
    | 0 =>
        cases found
        exact ⟨fun same => (by cases same), rfl⟩
    | 1 =>
        cases found
        exact ⟨fun same => (by cases same), rfl⟩
    | index + 2 => cases found
  · intro resolved
    rcases resolved 0 _ rfl with ⟨value, -, same⟩
    cases same

end JsClient

end TricPlus
