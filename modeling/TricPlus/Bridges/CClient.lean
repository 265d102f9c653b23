import TricPlus.Lib.GuardedRuns
import TricPlus.CompareAndDelete
import TricPlus.RequestGrammar

/-!
A connection of the C client and the server it talks to.

Each call sends one request and then takes what comes next on the socket for the reply; it
does not look at the request id.  A reply that comes after the call has given up stays in
the queue.
-/

namespace TricPlus

open AtomicProgram
open BigEndian
open GuardedRuns

namespace CClient

/-! ### The calls of the client -/

inductive Call where
  | readValue (key : Bytes)
  | writeValue (key value : Bytes)
  | deleteValue (key : Bytes)
  | deleteValueIfMatch (key expected : Bytes)
  | writeTtl (key : Bytes) (durationMs : Nat)
  | findByPrefix (stem : Bytes)
  deriving DecidableEq

inductive Result where
  | value (value : Option Bytes)
  | status (code : Int)
  | pairs (pairs : List (Bytes × Bytes))
  deriving DecidableEq

def Call.request : Call → KeyRequest
  | .readValue key => .readValue key
  | .writeValue key value => .writeValue key value 0
  | .deleteValue key => .deleteValue key
  | .deleteValueIfMatch key expected => .deleteValueIfMatch key expected
  | .writeTtl key durationMs => .writeTtl key durationMs
  | .findByPrefix stem => .findByPrefix stem

def Call.payloadSize : Call → Nat
  | .readValue _ => 4 + 2048
  | .writeValue _ _ => 4 + 2048 + 4 + 2048 + 8
  | .deleteValue _ => 4 + 2048
  | .deleteValueIfMatch _ _ => 4 + 2048 + 4 + 2048
  | .writeTtl _ _ => 4 + 2048 + 8
  | .findByPrefix _ => 4 + 2048

def Call.bufferSize : Call → Nat
  | .findByPrefix _ => 65536
  | _ => 2048

/-- The fields fit the array; beyond it, the behaviour of the client is undefined. -/
def Call.FitsPayload (call : Call) : Prop :=
  call.request.fields.length ≤ call.payloadSize

def Call.FitsBuffer (call : Call) : Prop :=
  5 + call.request.fields.length ≤ call.bufferSize

instance (call : Call) : Decidable call.FitsPayload := Nat.decLe _ _

instance (call : Call) : Decidable call.FitsBuffer := Nat.decLe _ _

def Call.datagram (call : Call) (requestId : Nat) : Bytes :=
  toBeBytes 4 requestId ++ call.request.opcode :: call.request.fields

/-- What a call has come to: a result, the pairs of a scan so far, or a read beyond the
buffer, which is undefined. -/
inductive Progress where
  | returned (result : Result)
  | waiting (pairs : List (Bytes × Bytes))
  | undefined
  deriving DecidableEq

def readU32 (reply : Bytes) (offset : Nat) : Nat :=
  fromBeBytes ((reply.drop offset).take 4)

def receiveValue (reply : Bytes) : Progress :=
  if reply.length < 5 then .returned (.value none)
  else if reply.getD 4 0 = 0x81 ∧ 9 ≤ reply.length then
    let valueLength := readU32 reply 5
    if (9 + valueLength) % 2 ^ 32 ≤ reply.length then
      if 9 + valueLength ≤ reply.length then
        .returned (.value (some ((reply.drop 9).take valueLength)))
      else .undefined
    else .returned (.value none)
  else .returned (.value none)

def receiveOk (reply : Bytes) : Progress :=
  if reply.length < 5 then .returned (.status (-1))
  else .returned (.status (if reply.getD 4 0 = 0x80 then 0 else -1))

def receiveMatch (reply : Bytes) : Progress :=
  if reply.length < 6 then .returned (.status (-1))
  else .returned (.status (if reply.getD 4 0 = 0x81 ∧ reply.getD 5 0 = 0x01 then 1 else 0))

def scanPair (reply : Bytes) : Option (Bytes × Bytes) :=
  let offset := 9
  if reply.length < offset + 4 then none
  else
    let keyLength := readU32 reply offset
    let offset := offset + 4
    if reply.length < offset + keyLength + 4 then none
    else
      let key := (reply.drop offset).take keyLength
      let offset := offset + keyLength
      let valueLength := readU32 reply offset
      let offset := offset + 4
      if reply.length < offset + valueLength then none
      else some (key, (reply.drop offset).take valueLength)

def receiveChunk (pairs : List (Bytes × Bytes)) (reply : Bytes) : Progress :=
  if reply.length < 5 then .returned (.pairs pairs)
  else if reply.getD 4 0 = 0x91 then .returned (.pairs pairs)
  else if reply.getD 4 0 = 0x90 ∧ 9 < reply.length then
    match scanPair reply with
    | none => .waiting pairs
    | some pair => .waiting (pairs ++ [pair])
  else .waiting pairs

def Call.receive (call : Call) (pairs : List (Bytes × Bytes)) (datagram : Bytes) : Progress :=
  let reply := datagram.take call.bufferSize
  match call with
  | .readValue _ => receiveValue reply
  | .deleteValueIfMatch _ _ => receiveMatch reply
  | .findByPrefix _ => receiveChunk pairs reply
  | _ => receiveOk reply

/-- What a call has come to after these datagrams. -/
def Call.after (call : Call) (datagrams : List Bytes) : Progress :=
  datagrams.foldl (fun progress datagram =>
    match progress with
    | .waiting pairs => call.receive pairs datagram
    | other => other) (.waiting [])

def Call.givenUp (call : Call) (pairs : List (Bytes × Bytes)) : Result :=
  match call with
  | .readValue _ => .value none
  | .findByPrefix _ => .pairs pairs
  | _ => .status (-1)

/-- A datagram with the number of the call it belongs to, which nobody sees. -/
structure Flight where
  call : Nat
  datagram : Bytes

structure Pending where
  index : Nat
  call : Call
  received : List Flight

structure Finished where
  index : Nat
  call : Call
  received : List Flight

structure Served where
  call : Nat
  datagram : Bytes
  ticks : Nat
  bus : PermutiveBus
  replies : List Bytes

structure System where
  requestCounter : Nat
  calls : List Call
  current : Option Pending
  requests : List Flight
  served : List Served
  replies : List Flight
  queue : List Flight
  finished : List Finished

def System.initial : System where
  requestCounter := 1
  calls := []
  current := none
  requests := []
  served := []
  replies := []
  queue := []
  finished := []

def datagramsOf (flights : List Flight) : List Bytes := flights.map Flight.datagram

def Finished.result (finished : Finished) : Option Result :=
  match finished.call.after (datagramsOf finished.received) with
  | .returned result => some result
  | .waiting pairs => some (finished.call.givenUp pairs)
  | .undefined => none

inductive Event where
  | call (call : Call)
  | serve
  | lose
  | deliver
  | receive
  | timeout

def socketLimit : Nat := 2 ^ 31

/-- One step of the client, of a worker of the server, or of a socket.  The bus is wherever
other clients have brought it by the time a request is served. -/
inductive Step (site : Site) (clock : Nat → Instant) (parser : SqlParser) :
    System → Event → System → Prop where
  | sent {s : System} {call : Call} (idle : s.current = none) (fits : call.FitsPayload)
      (short : call.FitsBuffer) :
      Step site clock parser s (.call call)
        { s with
          requestCounter := (s.requestCounter + 1) % 2 ^ 32
          calls := s.calls ++ [call]
          current := some ⟨s.calls.length, call, []⟩
          requests := s.requests ++ [⟨s.calls.length, call.datagram s.requestCounter⟩] }
  | tooLong {s : System} {call : Call} (idle : s.current = none) (fits : call.FitsPayload)
      (long : ¬ call.FitsBuffer) :
      Step site clock parser s (.call call)
        { s with
          calls := s.calls ++ [call]
          finished := s.finished ++ [⟨s.calls.length, call, []⟩] }
  | refused {s : System} {call : Call} (idle : s.current = none) (fits : call.FitsPayload)
      (short : call.FitsBuffer) :
      Step site clock parser s (.call call)
        { s with
          requestCounter := (s.requestCounter + 1) % 2 ^ 32
          calls := s.calls ++ [call]
          finished := s.finished ++ [⟨s.calls.length, call, []⟩] }
  | served {s : System} {front back : List Flight} {flight : Flight}
      (waiting : s.requests = front ++ flight :: back) (metrics : Metrics) (ticks : Nat)
      (bus : PermutiveBus) {replies : List Bytes}
      (answered : (run (bothTiers site) clock
        (onTiers (answerDatagram parser metrics flight.datagram)) ticks bus).result =
          some (some replies)) :
      Step site clock parser s .serve
        { s with
          requests := front ++ back
          served := s.served ++ [⟨flight.call, flight.datagram, ticks, bus, replies⟩]
          replies := s.replies ++ replies.map (Flight.mk flight.call) }
  | requestLost {s : System} {front back : List Flight} {flight : Flight}
      (waiting : s.requests = front ++ flight :: back) :
      Step site clock parser s .lose { s with requests := front ++ back }
  | replyLost {s : System} {front back : List Flight} {flight : Flight}
      (waiting : s.replies = front ++ flight :: back) :
      Step site clock parser s .lose { s with replies := front ++ back }
  | delivered {s : System} {front back : List Flight} {flight : Flight}
      (waiting : s.replies = front ++ flight :: back)
      (short : flight.datagram.length < socketLimit) :
      Step site clock parser s .deliver
        { s with
          replies := front ++ back
          queue := s.queue ++ [flight] }
  | received {s : System} {pending : Pending} {flight : Flight} {rest : List Flight}
      {pairs : List (Bytes × Bytes)} (calling : s.current = some pending)
      (found : s.queue = flight :: rest)
      (more : pending.call.after (datagramsOf (pending.received ++ [flight])) = .waiting pairs) :
      Step site clock parser s .receive
        { s with
          current := some { pending with received := pending.received ++ [flight] }
          queue := rest }
  | returned {s : System} {pending : Pending} {flight : Flight} {rest : List Flight}
      {result : Result} (calling : s.current = some pending)
      (found : s.queue = flight :: rest)
      (last : pending.call.after (datagramsOf (pending.received ++ [flight])) =
        .returned result) :
      Step site clock parser s .receive
        { s with
          current := none
          queue := rest
          finished := s.finished ++ [⟨pending.index, pending.call, pending.received ++ [flight]⟩] }
  | timedOut {s : System} {pending : Pending} (calling : s.current = some pending)
      (nothing : s.queue = []) :
      Step site clock parser s .timeout
        { s with
          current := none
          finished := s.finished ++ [⟨pending.index, pending.call, pending.received⟩] }

/-- Nothing of an earlier call is under way. -/
def System.Quiet (s : System) : Prop :=
  s.requests = [] ∧ s.replies = [] ∧ s.queue = []

/-- Calls are made only when nothing of an earlier call is under way. -/
def OneAtATime (s : System) (event : Event) : Prop :=
  ∀ call, event = .call call → s.Quiet

/-! ### What holds in every run -/

def Asked (calls : List Call) (index : Nat) (datagram : Bytes) : Prop :=
  ∃ call requestId, calls[index]? = some call ∧ call.FitsPayload ∧ call.FitsBuffer ∧
    datagram = call.datagram requestId

def Answered (served : List Served) (flight : Flight) : Prop :=
  ∃ record ∈ served, record.call = flight.call ∧ flight.datagram ∈ record.replies

section Runs

variable {site : Site} {clock : Nat → Instant} {parser : SqlParser} {s after : System}
  {event : Event}

structure Sound (site : Site) (clock : Nat → Instant) (parser : SqlParser) (s : System) :
    Prop where
  requests : ∀ flight ∈ s.requests, Asked s.calls flight.call flight.datagram
  served : ∀ record ∈ s.served, Asked s.calls record.call record.datagram ∧
    ∃ metrics, (run (bothTiers site) clock
      (onTiers (answerDatagram parser metrics record.datagram)) record.ticks record.bus).result =
        some (some record.replies)
  replies : ∀ flight ∈ s.replies, Answered s.served flight
  queue : ∀ flight ∈ s.queue, Answered s.served flight ∧ flight.datagram.length < socketLimit
  current : ∀ pending, s.current = some pending →
    s.calls[pending.index]? = some pending.call ∧
    ∀ flight ∈ pending.received,
      Answered s.served flight ∧ flight.datagram.length < socketLimit
  finished : ∀ finished ∈ s.finished, s.calls[finished.index]? = some finished.call ∧
    ∀ flight ∈ finished.received,
      Answered s.served flight ∧ flight.datagram.length < socketLimit

theorem Asked.more {calls : List Call} {index : Nat} {datagram : Bytes}
    (asked : Asked calls index datagram) (call : Call) :
    Asked (calls ++ [call]) index datagram := by
  rcases asked with ⟨made, requestId, found, rest⟩
  have inside := (List.getElem?_eq_some_iff.mp found).1
  exact ⟨made, requestId, (List.getElem?_append_left inside).trans found, rest⟩

theorem Answered.more {served : List Served} {flight : Flight}
    (answered : Answered served flight) (record : Served) :
    Answered (served ++ [record]) flight := by
  rcases answered with ⟨found, member, rest⟩
  exact ⟨found, List.mem_append_left _ member, rest⟩

private theorem still_made {calls : List Call} {index : Nat} {call : Call}
    (made : calls[index]? = some call) (next : Call) : (calls ++ [next])[index]? = some call := by
  have inside := (List.getElem?_eq_some_iff.mp made).1
  exact (List.getElem?_append_left inside).trans made

private theorem last_made (calls : List Call) (call : Call) :
    (calls ++ [call])[calls.length]? = some call :=
  List.getElem?_concat_length

private theorem mem_of_rest {flights front back : List Flight} {flight other : Flight}
    (waiting : flights = front ++ flight :: back) (member : other ∈ front ++ back) :
    other ∈ flights := by
  rw [waiting]
  rcases List.mem_append.mp member with before | behind
  · exact List.mem_append_left _ before
  · exact List.mem_append_right _ (List.mem_cons_of_mem _ behind)

private theorem mem_of_split {flights front back : List Flight} {flight : Flight}
    (waiting : flights = front ++ flight :: back) : flight ∈ flights := by
  rw [waiting]
  exact List.mem_append_right _ (List.mem_cons_self ..)

theorem Sound.initial : Sound site clock parser System.initial where
  requests := fun _ member => absurd member List.not_mem_nil
  served := fun _ member => absurd member List.not_mem_nil
  replies := fun _ member => absurd member List.not_mem_nil
  queue := fun _ member => absurd member List.not_mem_nil
  current := fun _ calling => by cases calling
  finished := fun _ member => absurd member List.not_mem_nil

theorem Sound.called (sound : Sound site clock parser s) (call : Call) :
    Sound site clock parser { s with calls := s.calls ++ [call] } where
  requests := fun flight member => (sound.requests flight member).more call
  served := fun record member =>
    ⟨(sound.served record member).1.more call, (sound.served record member).2⟩
  replies := sound.replies
  queue := sound.queue
  current := fun pending calling =>
    ⟨still_made (sound.current pending calling).1 call, (sound.current pending calling).2⟩
  finished := fun finished member =>
    ⟨still_made (sound.finished finished member).1 call, (sound.finished finished member).2⟩

theorem Sound.noted (sound : Sound site clock parser s) (index : Nat) (call : Call)
    (flights : List Flight) (made : s.calls[index]? = some call)
    (answered : ∀ flight ∈ flights,
      Answered s.served flight ∧ flight.datagram.length < socketLimit) :
    Sound site clock parser
      { s with
        current := none
        finished := s.finished ++ [⟨index, call, flights⟩] } where
  requests := sound.requests
  served := sound.served
  replies := sound.replies
  queue := sound.queue
  current := fun _ calling => by cases calling
  finished := by
    intro finished member
    rcases List.mem_append.mp member with old | new
    · exact sound.finished finished old
    · rw [List.mem_singleton.mp new]
      exact ⟨made, answered⟩

private theorem Sound.receives (sound : Sound site clock parser s) {pending : Pending}
    (calling : s.current = some pending) {flight : Flight} {rest : List Flight}
    (found : s.queue = flight :: rest) :
    ∀ other ∈ pending.received ++ [flight],
      Answered s.served other ∧ other.datagram.length < socketLimit := by
  intro other member
  rcases List.mem_append.mp member with old | new
  · exact (sound.current pending calling).2 other old
  · rw [List.mem_singleton.mp new]
    exact sound.queue flight (by rw [found]; exact List.mem_cons_self ..)

theorem Sound.silent (sound : Sound site clock parser s) (idle : s.current = none) (call : Call)
    (counter : Nat) :
    Sound site clock parser
      { s with
        requestCounter := counter
        calls := s.calls ++ [call]
        finished := s.finished ++ [⟨s.calls.length, call, []⟩] } := by
  have noted := (sound.called call).noted s.calls.length call [] (last_made s.calls call)
    (fun _ member => absurd member List.not_mem_nil)
  rw [← idle] at noted
  exact ⟨noted.requests, noted.served, noted.replies, noted.queue, noted.current, noted.finished⟩

theorem Sound.step (sound : Sound site clock parser s)
    (stepped : Step site clock parser s event after) : Sound site clock parser after := by
  cases stepped with
  | @sent call idle fits short =>
      have called := sound.called call
      refine ⟨?_, called.served, called.replies, called.queue, ?_, called.finished⟩
      · intro flight member
        rcases List.mem_append.mp member with old | new
        · exact called.requests flight old
        · rw [List.mem_singleton.mp new]
          exact ⟨call, s.requestCounter, last_made s.calls call, fits, short, rfl⟩
      · intro pending calling
        cases calling
        exact ⟨last_made s.calls call, fun _ member => absurd member List.not_mem_nil⟩
  | @tooLong call idle fits long => exact sound.silent idle call s.requestCounter
  | @refused call idle fits short => exact sound.silent idle call _
  | @served front back flight waiting metrics ticks bus replies answered =>
      have asked := sound.requests flight (mem_of_split waiting)
      refine ⟨?_, ?_, ?_, ?_, ?_, ?_⟩
      · exact fun other member => sound.requests other (mem_of_rest waiting member)
      · intro record member
        rcases List.mem_append.mp member with old | new
        · exact sound.served record old
        · rw [List.mem_singleton.mp new]
          exact ⟨asked, metrics, answered⟩
      · intro other member
        rcases List.mem_append.mp member with old | new
        · exact (sound.replies other old).more _
        · rcases List.mem_map.mp new with ⟨datagram, sent, rfl⟩
          exact ⟨_, List.mem_append_right _ (List.mem_singleton_self _), rfl, sent⟩
      · exact fun other member => ⟨(sound.queue other member).1.more _, (sound.queue other member).2⟩
      · intro pending calling
        rcases sound.current pending calling with ⟨made, received⟩
        exact ⟨made, fun other member =>
          ⟨(received other member).1.more _, (received other member).2⟩⟩
      · intro finished member
        rcases sound.finished finished member with ⟨made, received⟩
        exact ⟨made, fun other member =>
          ⟨(received other member).1.more _, (received other member).2⟩⟩
  | requestLost waiting =>
      exact ⟨fun other member => sound.requests other (mem_of_rest waiting member), sound.served,
        sound.replies, sound.queue, sound.current, sound.finished⟩
  | replyLost waiting =>
      exact ⟨sound.requests, sound.served,
        fun other member => sound.replies other (mem_of_rest waiting member), sound.queue,
        sound.current, sound.finished⟩
  | delivered waiting short =>
      refine ⟨sound.requests, sound.served,
        fun other member => sound.replies other (mem_of_rest waiting member), ?_,
        sound.current, sound.finished⟩
      intro other member
      rcases List.mem_append.mp member with old | new
      · exact sound.queue other old
      · rw [List.mem_singleton.mp new]
        exact ⟨sound.replies _ (mem_of_split waiting), short⟩
  | @received pending flight rest pairs calling found more =>
      refine ⟨sound.requests, sound.served, sound.replies, ?_, ?_, sound.finished⟩
      · intro other member
        exact sound.queue other (by rw [found]; exact List.mem_cons_of_mem _ member)
      · intro other same
        cases same
        exact ⟨(sound.current pending calling).1, sound.receives calling found⟩
  | @returned pending flight rest result calling found last =>
      have noted := sound.noted pending.index pending.call (pending.received ++ [flight])
        (sound.current pending calling).1 (sound.receives calling found)
      refine ⟨noted.requests, noted.served, noted.replies, ?_, noted.current, noted.finished⟩
      intro other member
      exact sound.queue other (by rw [found]; exact List.mem_cons_of_mem _ member)
  | @timedOut pending calling nothing =>
      exact sound.noted pending.index pending.call pending.received
        (sound.current pending calling).1 (sound.current pending calling).2

/-! ### What holds when calls are made one at a time -/

structure Unmixed (s : System) : Prop where
  requests : ∀ flight ∈ s.requests, flight.call + 1 = s.calls.length
  replies : ∀ flight ∈ s.replies, flight.call + 1 = s.calls.length
  queue : ∀ flight ∈ s.queue, flight.call + 1 = s.calls.length
  current : ∀ pending, s.current = some pending → pending.index + 1 = s.calls.length ∧
    ∀ flight ∈ pending.received, flight.call = pending.index
  finished : ∀ finished ∈ s.finished, ∀ flight ∈ finished.received,
    flight.call = finished.index

theorem Unmixed.initial : Unmixed System.initial where
  requests := fun _ member => absurd member List.not_mem_nil
  replies := fun _ member => absurd member List.not_mem_nil
  queue := fun _ member => absurd member List.not_mem_nil
  current := fun _ calling => by cases calling
  finished := fun _ member => absurd member List.not_mem_nil

theorem Unmixed.noted (unmixed : Unmixed s) (index : Nat) (call : Call) {flights : List Flight}
    (own : ∀ flight ∈ flights, flight.call = index) :
    ∀ finished ∈ s.finished ++ [⟨index, call, flights⟩], ∀ flight ∈ finished.received,
      flight.call = finished.index := by
  intro finished member
  rcases List.mem_append.mp member with old | new
  · exact unmixed.finished finished old
  · rw [List.mem_singleton.mp new]
    exact own

private theorem Unmixed.receives (unmixed : Unmixed s) {pending : Pending}
    (calling : s.current = some pending) {flight : Flight} {rest : List Flight}
    (found : s.queue = flight :: rest) :
    ∀ other ∈ pending.received ++ [flight], other.call = pending.index := by
  rcases unmixed.current pending calling with ⟨last, own⟩
  intro other member
  rcases List.mem_append.mp member with old | new
  · exact own other old
  · rw [List.mem_singleton.mp new]
    have here := unmixed.queue flight (by rw [found]; exact List.mem_cons_self ..)
    omega

theorem Unmixed.silent (unmixed : Unmixed s) (quiet : s.Quiet) (idle : s.current = none)
    (call : Call) (counter : Nat) :
    Unmixed
      { s with
        requestCounter := counter
        calls := s.calls ++ [call]
        finished := s.finished ++ [⟨s.calls.length, call, []⟩] } := by
  rcases quiet with ⟨noRequests, noReplies, noQueue⟩
  refine ⟨?_, ?_, ?_, ?_, ?_⟩
  · intro flight member
    rw [noRequests] at member
    cases member
  · intro flight member
    rw [noReplies] at member
    cases member
  · intro flight member
    rw [noQueue] at member
    cases member
  · intro pending calling
    rw [idle] at calling
    cases calling
  · exact unmixed.noted _ _ (fun _ member => absurd member List.not_mem_nil)

theorem Unmixed.step (unmixed : Unmixed s) (alone : OneAtATime s event)
    (stepped : Step site clock parser s event after) : Unmixed after := by
  cases stepped with
  | @sent call idle fits short =>
      rcases alone call rfl with ⟨noRequests, noReplies, noQueue⟩
      have length : (s.calls ++ [call]).length = s.calls.length + 1 := List.length_append
      refine ⟨?_, ?_, ?_, ?_, unmixed.finished⟩
      · intro flight member
        rw [noRequests, List.nil_append] at member
        rw [List.mem_singleton.mp member, length]
      · intro flight member
        rw [noReplies] at member
        cases member
      · intro flight member
        rw [noQueue] at member
        cases member
      · intro pending calling
        cases calling
        exact ⟨length.symm, fun _ member => absurd member List.not_mem_nil⟩
  | @tooLong call idle fits long =>
      exact unmixed.silent (alone call rfl) idle call s.requestCounter
  | @refused call idle fits short => exact unmixed.silent (alone call rfl) idle call _
  | @served front back flight waiting metrics ticks bus replies answered =>
      have last := unmixed.requests flight (mem_of_split waiting)
      refine ⟨fun other member => unmixed.requests other (mem_of_rest waiting member), ?_,
        unmixed.queue, unmixed.current, unmixed.finished⟩
      intro other member
      rcases List.mem_append.mp member with old | new
      · exact unmixed.replies other old
      · rcases List.mem_map.mp new with ⟨datagram, -, rfl⟩
        exact last
  | requestLost waiting =>
      exact ⟨fun other member => unmixed.requests other (mem_of_rest waiting member),
        unmixed.replies, unmixed.queue, unmixed.current, unmixed.finished⟩
  | replyLost waiting =>
      exact ⟨unmixed.requests,
        fun other member => unmixed.replies other (mem_of_rest waiting member), unmixed.queue,
        unmixed.current, unmixed.finished⟩
  | delivered waiting short =>
      refine ⟨unmixed.requests,
        fun other member => unmixed.replies other (mem_of_rest waiting member), ?_,
        unmixed.current, unmixed.finished⟩
      intro other member
      rcases List.mem_append.mp member with old | new
      · exact unmixed.queue other old
      · rw [List.mem_singleton.mp new]
        exact unmixed.replies _ (mem_of_split waiting)
  | @received pending flight rest pairs calling found more =>
      refine ⟨unmixed.requests, unmixed.replies, ?_, ?_, unmixed.finished⟩
      · intro other member
        exact unmixed.queue other (by rw [found]; exact List.mem_cons_of_mem _ member)
      · intro other same
        cases same
        exact ⟨(unmixed.current pending calling).1, unmixed.receives calling found⟩
  | @returned pending flight rest result calling found last =>
      refine ⟨unmixed.requests, unmixed.replies, ?_, fun _ calling => (by cases calling), ?_⟩
      · intro other member
        exact unmixed.queue other (by rw [found]; exact List.mem_cons_of_mem _ member)
      · exact unmixed.noted _ _ (unmixed.receives calling found)
  | @timedOut pending calling nothing =>
      exact ⟨unmixed.requests, unmixed.replies, unmixed.queue, fun _ calling => (by cases calling),
        unmixed.noted _ _ (unmixed.current pending calling).2⟩

private theorem decode_datagram {call : Call} (short : call.FitsBuffer)
    (small : call.bufferSize ≤ maxDatagram)
    (requestId : Nat) :
    decodeLocalInto ((call.datagram requestId).take maxDatagram) freshRequest =
      (true, ⟨requestId % 2 ^ 32, call.request.opcode, call.request.fields, true⟩) := by
  have four : (toBeBytes 4 requestId).length = 4 := length_toBeBytes 4 requestId
  have whole : (call.datagram requestId).take maxDatagram = call.datagram requestId := by
    unfold Call.FitsBuffer at short
    apply List.take_of_length_le
    unfold Call.datagram
    rw [List.length_append, List.length_cons, four]
    omega
  have head : (call.datagram requestId).drop 4 = call.request.opcode :: call.request.fields :=
    List.drop_left' four
  have opcode : ¬ (call.request.opcode = 0x00 ∨ call.request.opcode = 0xFF) := by
    cases call <;> simp only [Call.request, KeyRequest.opcode] <;> decide
  have number : fromBeBytes ((call.datagram requestId).take 4) = requestId % 2 ^ 32 := by
    unfold Call.datagram
    rw [List.take_left' four]
    exact fromBeBytes_toBeBytes 4 requestId
  unfold decodeLocalInto
  rw [whole, head]
  simp only
  rw [if_neg opcode, number]

private theorem replies_of_read {key : Bytes} (fits : (Call.readValue key).FitsPayload)
    (short : (Call.readValue key).FitsBuffer) {metrics : Metrics} {requestId ticks : Nat}
    {bus : PermutiveBus} {replies : List Bytes}
    (answered : (run (bothTiers site) clock (onTiers (answerDatagram parser metrics
      ((Call.readValue key).datagram requestId))) ticks bus).result = some (some replies)) :
    ∃ found, (run (bothTiers site) clock (PermutiveBus.readValue key) ticks bus).result =
        some found ∧
      replies = [writeLocalToBuffer (found.elim (createOk (requestId % 2 ^ 32))
        (fun value => createPayload (requestId % 2 ^ 32) (lengthPrefixed value)))] := by
  have begins : (KeyRequest.readValue key).Begins (Call.readValue key).request.fields := by
    refine ⟨?_, [], (List.append_nil _).symm⟩
    change (lengthPrefixed key).length ≤ 4 + 2048 at fits
    rw [length_lengthPrefixed] at fits
    change key.length < 2 ^ 32
    omega
  have program : onTiers (answerDatagram parser metrics ((Call.readValue key).datagram requestId)) =
      (PermutiveBus.readValue key).bind (fun found =>
        .done (some [writeLocalToBuffer (found.elim (createOk (requestId % 2 ^ 32))
          (fun value => createPayload (requestId % 2 ^ 32) (lengthPrefixed value)))])) := by
    unfold answerDatagram
    rw [decode_datagram short (Nat.le_refl _) requestId]
    have parsed : KeyRequest.parse (Call.readValue key).request.opcode
        (Call.readValue key).request.fields = some (.readValue key) :=
      KeyRequest.parse_iff.mpr ⟨rfl, begins⟩
    simp only
    rw [dispatchRequest_eq parser metrics (List.mem_cons_self ..)]
    simp only
    rw [parsed]
    refine congrArg ((PermutiveBus.readValue key).bind) (funext ?_)
    intro found
    cases found with
    | none => rfl
    | some value => rfl
  rw [program, run_bind] at answered
  rcases ran : run (bothTiers site) clock (PermutiveBus.readValue key) ticks bus with
    ⟨result, later, last⟩
  rw [ran] at answered
  cases result with
  | none => cases answered
  | some found =>
      refine ⟨found, rfl, ?_⟩
      exact (Option.some_inj.mp (Option.some_inj.mp answered)).symm

private theorem receive_value {requestId : Nat} {value got : Bytes}
    (short : (writeLocalToBuffer (createPayload requestId (lengthPrefixed value))).length <
      socketLimit)
    (returned : receiveValue ((writeLocalToBuffer
      (createPayload requestId (lengthPrefixed value))).take 2048) =
        .returned (.value (some got))) : got = value := by
  have four : (toBeBytes 4 requestId).length = 4 := length_toBeBytes 4 requestId
  have prefixLength : (toBeBytes 4 value.length).length = 4 := length_toBeBytes 4 value.length
  have datagram : writeLocalToBuffer (createPayload requestId (lengthPrefixed value)) =
      (toBeBytes 4 requestId ++ [0x81]) ++ (toBeBytes 4 value.length ++ value) := by
    rw [List.append_assoc]
    rfl
  have head : (toBeBytes 4 requestId ++ [(0x81 : UInt8)]).length = 5 := by
    rw [List.length_append, four]
    rfl
  rw [datagram] at short returned
  rw [List.length_append, head, List.length_append, prefixLength] at short
  unfold socketLimit at short
  have number : fromBeBytes (toBeBytes 4 value.length) = value.length :=
    fromBeBytes_toBeBytes_of_lt (by omega)
  have length : readU32 (((toBeBytes 4 requestId ++ [0x81]) ++
      (toBeBytes 4 value.length ++ value)).take 2048) 5 = value.length := by
    have inside : min 4 (2048 - 5) = 4 := rfl
    unfold readU32
    rw [List.drop_take, List.drop_left' head, List.take_take, inside,
      List.take_left' prefixLength, number]
  unfold receiveValue at returned
  simp only [length] at returned
  split at returned
  · cases returned
  · split at returned
    · split at returned
      · split at returned
        · rename_i inside
          have total : ((toBeBytes 4 requestId ++ [(0x81 : UInt8)]) ++
              (toBeBytes 4 value.length ++ value)).length = 9 + value.length := by
            rw [List.length_append, head, List.length_append, prefixLength]
            omega
          rw [List.length_take, total] at inside
          have whole : ((toBeBytes 4 requestId ++ [0x81]) ++
              (toBeBytes 4 value.length ++ value)).take 2048 =
                ((toBeBytes 4 requestId ++ [0x81]) ++ toBeBytes 4 value.length) ++ value := by
            rw [List.append_assoc (toBeBytes 4 requestId ++ [0x81])]
            apply List.take_of_length_le
            rw [total]
            omega
          have nine : ((toBeBytes 4 requestId ++ [(0x81 : UInt8)]) ++
              toBeBytes 4 value.length).length = 9 := by
            rw [List.length_append, head, prefixLength]
          rw [whole, List.drop_left' nine, List.take_length] at returned
          cases returned
          rfl
        · cases returned
      · cases returned
    · cases returned

private theorem receive_ok (requestId : Nat) :
    receiveValue ((writeLocalToBuffer (createOk requestId)).take 2048) =
      .returned (.value none) :=
  rfl

private theorem receiveValue_settles (reply : Bytes) (pairs : List (Bytes × Bytes)) :
    receiveValue reply ≠ .waiting pairs := by
  unfold receiveValue
  intro same
  simp only at same
  split at same
  · cases same
  · split at same
    · split at same
      · split at same <;> cases same
      · cases same
    · cases same

private theorem after_settled {call : Call} {datagram : Bytes} (rest : List Bytes)
    (settles : ∀ pairs, call.receive [] datagram ≠ .waiting pairs) :
    call.after (datagram :: rest) = call.receive [] datagram := by
  unfold Call.after
  rw [List.foldl_cons]
  simp only
  generalize call.receive [] datagram = progress at settles
  induction rest with
  | nil => rfl
  | cons next rest ih =>
      cases progress with
      | returned result => exact ih
      | waiting pairs => exact absurd rfl (settles pairs)
      | undefined => exact ih

private theorem received_of_value {index : Nat} {key value : Bytes} {flights : List Flight}
    (result : Finished.result ⟨index, .readValue key, flights⟩ = some (.value (some value))) :
    ∃ flight rest, flights = flight :: rest ∧
      receiveValue (flight.datagram.take 2048) = .returned (.value (some value)) := by
  cases flights with
  | nil => cases result
  | cons flight rest =>
      have settles := fun pairs => receiveValue_settles (flight.datagram.take 2048) pairs
      have once : (Call.readValue key).after (datagramsOf (flight :: rest)) =
          receiveValue (flight.datagram.take 2048) :=
        after_settled (datagramsOf rest) settles
      refine ⟨flight, rest, rfl, ?_⟩
      unfold Finished.result at result
      simp only [once] at result
      cases reply : receiveValue (flight.datagram.take 2048) with
      | returned other =>
          rw [reply] at result
          exact congrArg Progress.returned (Option.some_inj.mp result)
      | waiting pairs => exact absurd reply (settles pairs)
      | undefined =>
          rw [reply] at result
          cases result

end Runs

/-! ### Replies and calls -/

/-- Whatever a call has received are replies to itself; and a value that a read returns is
one that the server read for its key. -/
structure Attributed (site : Site) (clock : Nat → Instant) (s : System) : Prop where
  own : ∀ finished ∈ s.finished, ∀ flight ∈ finished.received,
    flight.call = finished.index ∧ Answered s.served flight
  values : ∀ finished ∈ s.finished, ∀ key value, finished.call = .readValue key →
    finished.result = some (.value (some value)) →
    ∃ record ∈ s.served, record.call = finished.index ∧
      (run (bothTiers site) clock (PermutiveBus.readValue key) record.ticks record.bus).result =
        some (some value)

/-- In a run in which no call is made while anything of an earlier one is under way, every
reply goes to the call it answers. -/
theorem c_replies_attributed {site : Site} {clock : Nat → Instant} {parser : SqlParser}
    {s : System} (reached : Reaches (Step site clock parser) OneAtATime System.initial s) :
    Attributed site clock s := by
  have sound : Sound site clock parser s :=
    reached.invariant (Sound site clock parser) Sound.initial
      (fun sound _ stepped => sound.step stepped)
  have unmixed : Unmixed s :=
    reached.invariant Unmixed Unmixed.initial
      (fun unmixed alone stepped => unmixed.step alone stepped)
  constructor
  · intro finished member flight received
    exact ⟨unmixed.finished finished member flight received,
      ((sound.finished finished member).2 flight received).1⟩
  · intro finished member key value reads result
    rcases sound.finished finished member with ⟨made, answered⟩
    have own := unmixed.finished finished member
    rcases finished with ⟨index, call, flights⟩
    simp only at reads made answered own
    subst reads
    rcases received_of_value result with ⟨flight, rest, same, returned⟩
    subst same
    rcases answered flight (List.mem_cons_self ..) with ⟨⟨record, served, about, sent⟩, short⟩
    have same := own flight (List.mem_cons_self ..)
    refine ⟨record, served, about.trans same, ?_⟩
    rcases sound.served record served with ⟨⟨asked, requestId, made', fits, buffer, datagram⟩,
      metrics, ran⟩
    rw [about, same, made] at made'
    cases made'
    rw [datagram] at ran
    rcases replies_of_read fits buffer ran with ⟨found, read, replies⟩
    rw [replies, List.mem_singleton] at sent
    rw [sent] at returned short
    cases found with
    | none =>
        change receiveValue ((writeLocalToBuffer (createOk _)).take 2048) = _ at returned
        rw [receive_ok] at returned
        cases returned
    | some stored =>
        rw [receive_value short returned]
        exact read

/-- What the server answers when the first request reads `users:1`. -/
def lateReply : Bytes :=
  writeLocalToBuffer (createPayload 1 (lengthPrefixed (asBytes "a")))

private theorem lateReply_answers :
    (run (bothTiers sampleSite) stillClock (onTiers (answerDatagram silentParser freshMetrics
      ((Call.readValue (asBytes "users:1")).datagram 1))) writtenState.1 writtenState.2).result =
        some (some [lateReply]) := by
  decide +kernel

private theorem lateReply_short : lateReply.length < socketLimit := by
  unfold socketLimit
  decide +kernel

private theorem after_reply (key : Bytes) (index : Nat) {reply : Bytes} {result : Result}
    (received : receiveValue (reply.take 2048) = .returned result) :
    (Call.readValue key).after (datagramsOf ([] ++ [⟨index, reply⟩])) = .returned result := by
  have once : (Call.readValue key).after (datagramsOf ([] ++ [⟨index, reply⟩])) =
      receiveValue (reply.take 2048) :=
    after_settled [] (fun pairs => receiveValue_settles (reply.take 2048) pairs)
  exact once.trans received

private theorem lateReply_value (key : Bytes) :
    (Call.readValue key).after (datagramsOf ([] ++ [⟨0, lateReply⟩])) =
      .returned (.value (some (asBytes "a"))) :=
  after_reply key 0 (by decide +kernel)

/-- What the server answers when the second request reads `users:1`. -/
def secondReply : Bytes :=
  writeLocalToBuffer (createPayload 2 (lengthPrefixed (asBytes "a")))

/-- A quiet connection on which one more read of `users:1` was answered. -/
def System.answeredRead (s : System) (reply : Bytes) : System where
  requestCounter := (s.requestCounter + 1) % 2 ^ 32
  calls := s.calls ++ [.readValue (asBytes "users:1")]
  current := none
  requests := []
  served := s.served ++ [⟨s.calls.length,
    (Call.readValue (asBytes "users:1")).datagram s.requestCounter, writtenState.1, writtenState.2,
    [reply]⟩]
  replies := []
  queue := []
  finished := s.finished ++
    [⟨s.calls.length, .readValue (asBytes "users:1"), [⟨s.calls.length, reply⟩]⟩]

private theorem reaches_answeredRead {s : System} {reply : Bytes}
    (reached : Reaches (Step sampleSite stillClock silentParser) OneAtATime System.initial s)
    (idle : s.current = none) (quiet : s.Quiet)
    (answers : (run (bothTiers sampleSite) stillClock (onTiers (answerDatagram silentParser
      freshMetrics ((Call.readValue (asBytes "users:1")).datagram s.requestCounter)))
        writtenState.1 writtenState.2).result = some (some [reply]))
    (short : reply.length < socketLimit)
    (value : receiveValue (reply.take 2048) = .returned (.value (some (asBytes "a")))) :
    Reaches (Step sampleSite stillClock silentParser) OneAtATime System.initial
      (s.answeredRead reply) := by
  obtain ⟨requestCounter, calls, current, requests, served, replies, queue, finished⟩ := s
  obtain ⟨rfl, rfl, rfl⟩ := quiet
  cases idle
  have alone : ∀ {s : System} {event : Event}, (∀ call, event ≠ .call call) →
      OneAtATime s event := fun other call same => absurd same (other call)
  have sent := reached.next (fun _ _ => ⟨rfl, rfl, rfl⟩)
    (@Step.sent sampleSite stillClock silentParser _ (.readValue (asBytes "users:1")) rfl
      (by decide +kernel) (by decide +kernel))
  have served := sent.next (alone (fun _ same => by cases same))
    (@Step.served _ _ _ _ [] [] ⟨calls.length, _⟩ rfl freshMetrics writtenState.1 writtenState.2 _
      answers)
  have delivered := served.next (alone (fun _ same => by cases same))
    (@Step.delivered _ _ _ _ [] [] ⟨calls.length, reply⟩ rfl short)
  have returned := delivered.next (alone (fun _ same => by cases same))
    (@Step.returned _ _ _ _ _ ⟨calls.length, reply⟩ [] _ rfl rfl
      (after_reply (asBytes "users:1") calls.length value))
  exact returned

/-- Two reads, each made when the other is answered, return what the server read for them. -/
theorem answered_reads_are_attributed : Attributed sampleSite stillClock
    ((System.initial.answeredRead lateReply).answeredRead secondReply) := by
  have first : Reaches (Step sampleSite stillClock silentParser) OneAtATime System.initial
      (System.initial.answeredRead lateReply) :=
    reaches_answeredRead .refl rfl ⟨rfl, rfl, rfl⟩ lateReply_answers lateReply_short
      (by decide +kernel)
  have short : secondReply.length < socketLimit := by
    unfold socketLimit
    decide +kernel
  have second : Reaches (Step sampleSite stillClock silentParser) OneAtATime System.initial
      ((System.initial.answeredRead lateReply).answeredRead secondReply) :=
    reaches_answeredRead first rfl ⟨rfl, rfl, rfl⟩ (by decide +kernel) short (by decide +kernel)
  exact c_replies_attributed second

/-- The first read gives up; its reply arrives afterwards and is taken for the value of
another key. -/
theorem late_reply_answers_next_call :
    ∃ s, Reaches (Step sampleSite stillClock silentParser) anyStep System.initial s ∧
      (⟨1, .readValue (asBytes "users:2"), [⟨0, lateReply⟩]⟩ : Finished) ∈ s.finished ∧
      Finished.result ⟨1, .readValue (asBytes "users:2"), [⟨0, lateReply⟩]⟩ =
        some (.value (some (asBytes "a"))) ∧
      ¬ Attributed sampleSite stillClock s := by
  have sent := (@Reaches.refl _ _ (Step sampleSite stillClock silentParser) anyStep
    System.initial).next trivial
    (Step.sent rfl (by decide +kernel : (Call.readValue (asBytes "users:1")).FitsPayload)
      (by decide +kernel))
  have served := sent.next trivial
    (@Step.served _ _ _ _ [] [] ⟨0, (Call.readValue (asBytes "users:1")).datagram 1⟩ rfl
      freshMetrics writtenState.1 writtenState.2 _ lateReply_answers)
  have gaveUp := served.next trivial (Step.timedOut rfl rfl)
  have delivered := gaveUp.next trivial (@Step.delivered _ _ _ _ [] [] ⟨0, lateReply⟩ rfl lateReply_short)
  have again := delivered.next trivial
    (Step.sent rfl (by decide +kernel : (Call.readValue (asBytes "users:2")).FitsPayload)
      (by decide +kernel))
  have returned := again.next trivial
    (@Step.returned _ _ _ _ _ ⟨0, lateReply⟩ [] _ rfl rfl (lateReply_value _))
  refine ⟨_, returned, ?_, by decide +kernel, ?_⟩
  · exact List.mem_append_right _ (List.mem_singleton_self _)
  · intro attributed
    have own := attributed.own _ (List.mem_append_right _ (List.mem_singleton_self _))
      ⟨0, lateReply⟩ (List.mem_append_right _ (List.mem_singleton_self _))
    cases own.1

end CClient

end TricPlus
