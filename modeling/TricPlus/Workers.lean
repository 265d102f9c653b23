import TricPlus.Lib.Recording
import TricPlus.Provenance

/-!
The workers of both sockets, and the counters they share.

A worker counts a request, has it carried out, and then adds up how long that took.  The
workers of both sockets do so at the same time, each counter by itself.  Since only
additions and a maximum are made, what the counters come to is what the requests come to in
any order.
-/

namespace TricPlus

open AtomicProgram

/-! ### The counters -/

/-- The counters that amounts are added to. -/
inductive Tally where
  | requestsTotal
  | requestsLocal
  | requestsNetwork
  | errorsTotal
  | activeSessions
  | latencySumMicroseconds
  deriving DecidableEq

/-- What is done to the counters: `fetch_add`, and `fetch_max` of the longest latency. -/
inductive MetricsUpdate where
  | add (tally : Tally) (amount : Nat)
  | raise (microseconds : Nat)

inductive MetricsCall where
  | update (update : MetricsUpdate)
  | load (tally : Tally)
  | loadMax

@[reducible] def MetricsCall.Reply : MetricsCall → Type
  | .update _ => Unit
  | .load _ => Nat
  | .loadMax => Nat

@[reducible] def metricsCalls : Signature where
  Call := MetricsCall
  Reply := MetricsCall.Reply

/-- Counters are 64 bits wide, and wrap around. -/
def counterLimit : Nat := 2 ^ 64

def createMetrics : Metrics where
  requestsTotal := 0
  requestsLocal := 0
  requestsNetwork := 0
  errorsTotal := 0
  activeSessions := 0
  latencySumMicroseconds := 0
  latencyMaxMicroseconds := 0

namespace Metrics

def read (metrics : Metrics) : Tally → Nat
  | .requestsTotal => metrics.requestsTotal
  | .requestsLocal => metrics.requestsLocal
  | .requestsNetwork => metrics.requestsNetwork
  | .errorsTotal => metrics.errorsTotal
  | .activeSessions => metrics.activeSessions
  | .latencySumMicroseconds => metrics.latencySumMicroseconds

def write (metrics : Metrics) (tally : Tally) (value : Nat) : Metrics :=
  match tally with
  | .requestsTotal => { metrics with requestsTotal := value }
  | .requestsLocal => { metrics with requestsLocal := value }
  | .requestsNetwork => { metrics with requestsNetwork := value }
  | .errorsTotal => { metrics with errorsTotal := value }
  | .activeSessions => { metrics with activeSessions := value }
  | .latencySumMicroseconds => { metrics with latencySumMicroseconds := value }

def act (metrics : Metrics) : MetricsUpdate → Metrics
  | .add tally amount => metrics.write tally ((metrics.read tally + amount) % counterLimit)
  | .raise microseconds =>
      { metrics with
        latencyMaxMicroseconds := max metrics.latencyMaxMicroseconds microseconds }

/-- The counters as a shared object; every call is atomic. -/
def counters {Time : Type} : Object metricsCalls Time Metrics where
  step := fun request _ metrics =>
    match request with
    | .update update => (some (), metrics.act update)
    | .load tally => (some (metrics.read tally), metrics)
    | .loadMax => (some metrics.latencyMaxMicroseconds, metrics)

def record (update : MetricsUpdate) : Program metricsCalls Unit :=
  Program.perform metricsCalls (.update update)

def load (tally : Tally) : Program metricsCalls Nat :=
  Program.perform metricsCalls (.load tally)

def recordLocalRequest : Program metricsCalls Unit := do
  record (.add .requestsTotal 1)
  record (.add .requestsLocal 1)

def recordNetworkRequest : Program metricsCalls Unit := do
  record (.add .requestsTotal 1)
  record (.add .requestsNetwork 1)

def recordError : Program metricsCalls Unit :=
  record (.add .errorsTotal 1)

/-- `as_micros() as u64`. -/
def asMicroseconds (elapsed : Duration) : Nat := elapsed / 1000 % counterLimit

def recordLatency (elapsed : Duration) : Program metricsCalls Unit := do
  record (.add .latencySumMicroseconds (asMicroseconds elapsed))
  record (.raise (asMicroseconds elapsed))

def loadLatencyAverageMicroseconds : Program metricsCalls Nat := do
  let total ← load .requestsTotal
  if total = 0 then return 0
  else do
    let sum ← load .latencySumMicroseconds
    return sum / total

end Metrics

abbrev workerCalls : Signature := tiers.sum metricsCalls

abbrev WorkerProgram (α : Type) : Type := Program workerCalls α

open Metrics in
def Router.loadStatus (request : Request) : Program metricsCalls Response :=
  if request.isLocal then do
    let total ← load .requestsTotal
    let ofLocal ← load .requestsLocal
    let ofNetwork ← load .requestsNetwork
    let errors ← load .errorsTotal
    let sessions ← load .activeSessions
    let average ← loadLatencyAverageMicroseconds
    let longest ← Program.perform metricsCalls .loadMax
    return createPayload request.requestId
      ([total, ofLocal, ofNetwork, errors, sessions, average, longest].flatMap
        (BigEndian.toBeBytes 8))
  else return createError request.requestId errorInvalidOpcode []

def dispatchShared (parser : SqlParser) (request : Request) : WorkerProgram Dispatched :=
  if request.opcode = 0x14 then
    (Router.loadStatus request).onRight.bind (fun response => .done (Router.one response))
  else (onTiers (Router.dispatchRequest parser request createMetrics)).onLeft

/-- What is sent back, before it is encrypted; none after a shutdown. -/
def answered : Dispatched → Option (List Bytes)
  | .exited => none
  | .responses responses => some (responses.map writeLocalToBuffer)

def recordAnswer (elapsed : Duration) : Dispatched → WorkerProgram (Option (List Bytes))
  | .exited => return answered .exited
  | .responses responses => do
      (Metrics.recordLatency elapsed).onRight
      return answered (.responses responses)

def serveRequest (parser : SqlParser) (request : Request) (elapsed : Duration) :
    WorkerProgram (Option (List Bytes)) := do
  let result ← dispatchShared parser request
  recordAnswer elapsed result

def serveDecoded (parser : SqlParser) (elapsed : Duration) :
    Bool × Request → WorkerProgram (Option (List Bytes))
  | (false, _) => do
      Metrics.recordError.onRight
      return some [writeLocalToBuffer (createError 0 errorMalformedOpcode [])]
  | (true, request) => serveRequest parser request elapsed

/-- What comes in at a socket, and how long it takes to serve.  Of a datagram from the
network there is what it decodes to, if it does. -/
inductive Received where
  | ofLocal (datagram : Bytes) (elapsed : Duration)
  | ofNetwork (decoded : Option Request) (elapsed : Duration)

/-- One turn of a worker: the responses, or that the process has ended. -/
def turn (parser : SqlParser) : Received → WorkerProgram (Option (List Bytes))
  | .ofLocal datagram elapsed => do
      Metrics.recordLocalRequest.onRight
      serveDecoded parser elapsed (decodeLocalInto (datagram.take maxDatagram) freshRequest)
  | .ofNetwork none _ => return some []
  | .ofNetwork (some request) elapsed => do
      Metrics.recordNetworkRequest.onRight
      serveRequest parser request elapsed

def work (parser : SqlParser) : List Received → WorkerProgram (List (List Bytes))
  | [] => return []
  | received :: rest => do
      match ← turn parser received with
      | none => return []
      | some responses =>
          let others ← work parser rest
          return responses :: others

section Alone

variable (site : Site) (clock : Nat → Instant × SqlFaults) (parser : SqlParser)

private theorem loadLatencyAverage_alone (ticks : Nat) (metrics : Metrics) :
    ∃ later, run Metrics.counters clock Metrics.loadLatencyAverageMicroseconds ticks metrics =
      ⟨some metrics.readLatencyAverageMicroseconds, later, metrics⟩ := by
  unfold Metrics.readLatencyAverageMicroseconds
  by_cases nothing : metrics.requestsTotal = 0
  · refine ⟨ticks + 1, ?_⟩
    rw [if_pos nothing]
    change run Metrics.counters clock (if metrics.requestsTotal = 0 then _ else _) _ _ = _
    rw [if_pos nothing]
    rfl
  · refine ⟨ticks + 2, ?_⟩
    rw [if_neg nothing]
    change run Metrics.counters clock (if metrics.requestsTotal = 0 then _ else _) _ _ = _
    rw [if_neg nothing]
    rfl

private theorem loadStatus_alone (request : Request) (ticks : Nat) (metrics : Metrics) :
    ∃ later, run Metrics.counters clock (Router.loadStatus request) ticks metrics =
      ⟨some (Router.readStatus request metrics), later, metrics⟩ := by
  unfold Router.loadStatus Router.readStatus
  by_cases ofLocal : request.isLocal = true
  · rw [if_pos ofLocal, if_pos ofLocal]
    rcases loadLatencyAverage_alone clock (ticks + 5) metrics with ⟨later, average⟩
    refine ⟨later + 1, ?_⟩
    change run Metrics.counters clock (Metrics.loadLatencyAverageMicroseconds.bind _) (ticks + 5)
      metrics = _
    rw [run_bind, average]
    rfl
  · rw [if_neg ofLocal, if_neg ofLocal]
    exact ⟨ticks, rfl⟩

private theorem dispatch_ignores {request : Request} (noStatus : request.opcode ≠ 0x14)
    (first second : Metrics) :
    Router.dispatchRequest parser request first = Router.dispatchRequest parser request second := by
  rcases request with ⟨requestId, opcode, payload, isLocal⟩
  unfold Router.dispatchRequest
  simp only
  split
  all_goals first
    | rfl
    | exact absurd rfl noStatus

private theorem dispatchShared_alone (request : Request) (ticks : Nat) (bus : PermutiveBus)
    (metrics : Metrics) :
    ∃ later, run ((bothTiersUnder site).beside Metrics.counters) clock
        (dispatchShared parser request) ticks (bus, metrics) =
      ⟨(run (bothTiersUnder site) clock
          (onTiers (Router.dispatchRequest parser request metrics)) ticks bus).result, later,
        (run (bothTiersUnder site) clock
          (onTiers (Router.dispatchRequest parser request metrics)) ticks bus).state, metrics⟩ := by
  unfold dispatchShared
  by_cases status : request.opcode = 0x14
  · rw [if_pos status]
    rcases loadStatus_alone clock request ticks metrics with ⟨later, loaded⟩
    refine ⟨later, ?_⟩
    have dispatched : Router.dispatchRequest parser request metrics =
        .done (Router.one (Router.readStatus request metrics)) := by
      unfold Router.dispatchRequest
      rw [status]
      rfl
    rw [run_bind, run_onRight, loaded, dispatched]
    rfl
  · rw [if_neg status, run_onLeft, dispatch_ignores parser status createMetrics metrics]
    exact ⟨_, rfl⟩

private theorem serveRequest_alone (request : Request) (elapsed : Duration) (ticks : Nat)
    (bus : PermutiveBus) (metrics : Metrics) {answer : Dispatched → BusProgram (Option (List Bytes))}
    (answers : ∀ result, answer result = .done (answered result)) :
    ∃ later after, run ((bothTiersUnder site).beside Metrics.counters) clock
        (serveRequest parser request elapsed) ticks (bus, metrics) =
      ⟨(run (bothTiersUnder site) clock
          (onTiers ((Router.dispatchRequest parser request metrics).bind answer)) ticks bus).result,
        later,
        (run (bothTiersUnder site) clock
          (onTiers ((Router.dispatchRequest parser request metrics).bind answer)) ticks bus).state,
        after⟩ := by
  rcases dispatchShared_alone site clock parser request ticks bus metrics with ⟨later, dispatched⟩
  cases (funext answers : answer = fun result => .done (answered result))
  have translated : onTiers ((Router.dispatchRequest parser request metrics).bind
      (fun result => .done (answered result))) =
      (onTiers (Router.dispatchRequest parser request metrics)).bind
        (fun result => .done (answered result)) := Program.translate_bind _ _ _
  change ∃ later after, run _ _ ((dispatchShared parser request).bind (recordAnswer elapsed)) _ _ = _
  rw [translated, run_bind, run_bind, dispatched]
  rcases run (bothTiersUnder site) clock
    (onTiers (Router.dispatchRequest parser request metrics)) ticks bus with
    ⟨result, ended, after⟩
  cases result with
  | none => exact ⟨_, _, rfl⟩
  | some result =>
      cases result with
      | exited => exact ⟨_, _, rfl⟩
      | responses responses => exact ⟨_, _, rfl⟩

/-- Alone, a worker of the local socket does what it does with the counters as they are once
the request is counted. -/
theorem turn_alone (datagram : Bytes) (elapsed : Duration) (ticks : Nat) (bus : PermutiveBus)
    (metrics counted : Metrics)
    (isCounted : counted = (metrics.act (.add .requestsTotal 1)).act (.add .requestsLocal 1)) :
    ∃ later after, run ((bothTiersUnder site).beside Metrics.counters) clock
        (turn parser (.ofLocal datagram elapsed)) ticks (bus, metrics) =
      ⟨(run (bothTiersUnder site) clock (onTiers (answerDatagram parser counted datagram))
          (ticks + 2) bus).result, later,
        (run (bothTiersUnder site) clock (onTiers (answerDatagram parser counted datagram))
          (ticks + 2) bus).state, after⟩ := by
  subst isCounted
  change ∃ later after, run _ _ (serveDecoded parser elapsed _) (ticks + 2) _ = _
  unfold answerDatagram
  rcases decodeLocalInto (datagram.take maxDatagram) freshRequest with ⟨ok, request⟩
  cases ok with
  | false => exact ⟨_, _, rfl⟩
  | true =>
      apply serveRequest_alone site clock parser request elapsed (ticks + 2) bus
      intro result
      cases result <;> rfl

end Alone

/-! ### What is counted -/

def Request.ends (request : Request) : Bool :=
  request.isLocal && request.opcode == 0x15

def servedUpdates (request : Request) (elapsed : Duration) : List MetricsUpdate :=
  if request.ends then []
  else [.add .latencySumMicroseconds (Metrics.asMicroseconds elapsed),
    .raise (Metrics.asMicroseconds elapsed)]

namespace Received

def request? : Received → Option Request
  | .ofLocal datagram _ =>
      match decodeLocalInto (datagram.take maxDatagram) freshRequest with
      | (false, _) => none
      | (true, request) => some request
  | .ofNetwork decoded _ => decoded

def elapsed : Received → Duration
  | .ofLocal _ elapsed => elapsed
  | .ofNetwork _ elapsed => elapsed

def fromLocal : Received → Bool
  | .ofLocal _ _ => true
  | .ofNetwork _ _ => false

def fromNetwork : Received → Bool
  | .ofLocal _ _ => false
  | .ofNetwork decoded _ => decoded.isSome

def malformed (received : Received) : Bool :=
  received.fromLocal && received.request?.isNone

def ends (received : Received) : Bool :=
  received.request?.any Request.ends

def latency (received : Received) : Nat :=
  if received.request?.any (fun request => !request.ends) then
    Metrics.asMicroseconds received.elapsed
  else 0

def counted : Received → List MetricsUpdate
  | .ofLocal _ _ => [.add .requestsTotal 1, .add .requestsLocal 1]
  | .ofNetwork none _ => []
  | .ofNetwork (some _) _ => [.add .requestsTotal 1, .add .requestsNetwork 1]

def served (received : Received) : List MetricsUpdate :=
  match received.request? with
  | some request => servedUpdates request received.elapsed
  | none => if received.fromLocal then [.add .errorsTotal 1] else []

def updates (received : Received) : List MetricsUpdate :=
  received.counted ++ received.served

end Received

/-- What is served of a stream: everything up to a shutdown. -/
def handled : List Received → List Received
  | [] => []
  | received :: rest => if received.ends then [received] else received :: handled rest

def MetricsCall.update? : MetricsCall → Option MetricsUpdate
  | .update made => some made
  | .load _ => none
  | .loadMax => none

/-- The program makes these updates of the counters. -/
def Counts {α : Type} (good : α → Prop) (program : WorkerProgram α)
    (updates : List MetricsUpdate) : Prop :=
  program.Records (Program.rightUpdate? MetricsCall.update?) good updates

section Counts

variable {parser : SqlParser} {α : Type}

private theorem records_updates (first second : MetricsUpdate) :
    ((Metrics.record first).bind (fun _ => Metrics.record second)).Records MetricsCall.update?
      (fun _ => True) [first, second] :=
  ⟨[second], rfl, fun _ => ⟨[], rfl, fun _ => ⟨rfl, trivial⟩⟩⟩

theorem records_update (update : MetricsUpdate) :
    (Metrics.record update).Records MetricsCall.update? (fun _ => True) [update] :=
  ⟨[], rfl, fun _ => ⟨rfl, trivial⟩⟩

private theorem recordLocalRequest_counts :
    Counts (fun _ => True) Metrics.recordLocalRequest.onRight
      [.add .requestsTotal 1, .add .requestsLocal 1] :=
  (records_updates _ _).onRight

private theorem recordNetworkRequest_counts :
    Counts (fun _ => True) Metrics.recordNetworkRequest.onRight
      [.add .requestsTotal 1, .add .requestsNetwork 1] :=
  (records_updates _ _).onRight

private theorem recordError_counts :
    Counts (fun _ => True) Metrics.recordError.onRight [.add .errorsTotal 1] :=
  (records_update _).onRight

private theorem recordLatency_counts (elapsed : Duration) :
    Counts (fun _ => True) (Metrics.recordLatency elapsed).onRight
      [.add .latencySumMicroseconds (Metrics.asMicroseconds elapsed),
        .raise (Metrics.asMicroseconds elapsed)] :=
  (records_updates _ _).onRight

private theorem loadStatus_records (request : Request) :
    (Router.loadStatus request).Records MetricsCall.update? (fun _ => True) [] := by
  unfold Router.loadStatus
  split
  · intro total ofLocal ofNetwork errors sessions (again : Nat)
    change Program.Records _ _ ((if again = 0 then _ else _ : Program metricsCalls Nat).bind _) _
    split
    · exact fun _ => ⟨rfl, trivial⟩
    · exact fun _ _ => ⟨rfl, trivial⟩
  · exact ⟨rfl, trivial⟩

private theorem map_goesOn {request : Request} (goesOn : request.ends = false)
    {image : α → Dispatched} (responds : ∀ result, image result ≠ .exited)
    (program : BusProgram α) :
    (image <$> program).Yields (fun result => result = .exited ↔ request.ends = true) := by
  apply (Program.yields_anything program).bind
  intro result _
  rw [goesOn]
  exact ⟨fun exited => absurd exited (responds result), nofun⟩

private theorem dispatch_yields (request : Request) (metrics : Metrics) :
    (Router.dispatchRequest parser request metrics).Yields
      (fun result => result = .exited ↔ request.ends = true) := by
  rcases request with ⟨requestId, opcode, payload, isLocal⟩
  unfold Router.dispatchRequest
  simp only
  by_cases shutdown : opcode = 0x15
  · subst shutdown
    cases isLocal with
    | true => exact ⟨fun _ => rfl, fun _ => rfl⟩
    | false => exact ⟨nofun, nofun⟩
  · have goesOn : Request.ends ⟨requestId, opcode, payload, isLocal⟩ = false := by
      unfold Request.ends
      rw [beq_eq_false_iff_ne.mpr shutdown, Bool.and_false]
    have responds : ∀ response : Response, Router.one response ≠ .exited := fun _ => nofun
    have lists : ∀ responses : List Response, Dispatched.responses responses ≠ .exited :=
      fun _ => nofun
    split
    all_goals first
      | exact absurd rfl shutdown
      | exact map_goesOn goesOn responds _
      | exact map_goesOn goesOn lists _
      | exact map_goesOn goesOn responds (.done _)

private theorem dispatchShared_counts (request : Request) :
    Counts (fun result => result = .exited ↔ request.ends = true)
      (dispatchShared parser request) [] := by
  unfold dispatchShared
  split
  · next status =>
      have goesOn : request.ends = false := by
        unfold Request.ends
        rw [status]
        exact Bool.and_false _
      apply (loadStatus_records request).onRight.after
      intro response _
      exact ⟨rfl, nofun, fun ends => by rw [goesOn] at ends; cases ends⟩
  · exact (dispatch_yields request createMetrics).translate.records_onLeft

private theorem serveRequest_counts (request : Request) (elapsed : Duration) :
    Counts (fun result => result = none ↔ request.ends = true)
      (serveRequest parser request elapsed) (servedUpdates request elapsed) := by
  unfold serveRequest
  apply (dispatchShared_counts request).after
  intro result ending
  unfold servedUpdates
  cases result with
  | exited =>
      have ends := ending.mp rfl
      rw [if_pos ends]
      exact ⟨rfl, fun _ => ends, fun _ => rfl⟩
  | responses responses =>
      have goesOn : request.ends ≠ true := fun ends => by cases ending.mpr ends
      rw [if_neg goesOn, ← List.append_nil [_, _]]
      apply (recordLatency_counts elapsed).bind
      intro _ _
      exact ⟨rfl, nofun, fun ends => absurd ends goesOn⟩

private theorem turn_counts (received : Received) :
    Counts (fun result => result = none ↔ received.ends = true) (turn parser received)
      received.updates := by
  cases received with
  | ofLocal datagram elapsed =>
      apply recordLocalRequest_counts.bind
      intro _ _
      unfold Received.served Received.ends Received.request?
      simp only
      rcases decodeLocalInto (datagram.take maxDatagram) freshRequest with ⟨decoded, request⟩
      cases decoded with
      | false =>
          change Counts _ (Program.bind _ _) _
          rw [← List.append_nil [_]]
          apply recordError_counts.bind
          intro _ _
          exact ⟨rfl, nofun, nofun⟩
      | true => exact serveRequest_counts request elapsed
  | ofNetwork decoded elapsed =>
      cases decoded with
      | none => exact ⟨rfl, nofun, nofun⟩
      | some request =>
          apply recordNetworkRequest_counts.bind
          intro _ _
          exact serveRequest_counts request elapsed

private theorem work_counts (stream : List Received) :
    Counts (fun _ => True) (work parser stream) ((handled stream).flatMap Received.updates) := by
  induction stream with
  | nil => exact ⟨rfl, trivial⟩
  | cons received rest ih =>
      have turned := @turn_counts parser received
      unfold handled
      by_cases ends : received.ends = true
      · rw [if_pos ends, List.flatMap_cons, List.flatMap_nil]
        apply turned.bind
        intro result ending
        rw [ending.mpr ends]
        exact ⟨rfl, trivial⟩
      · rw [if_neg ends, List.flatMap_cons]
        apply turned.bind
        intro result ending
        cases result with
        | none => exact absurd (ending.mp rfl) ends
        | some responses =>
            change Counts _ (Program.bind _ _) _
            rw [← List.append_nil (List.flatMap _ _)]
            apply ih.bind
            exact fun _ _ => ⟨rfl, trivial⟩

end Counts

namespace MetricsUpdate

def amount (tally : Tally) : MetricsUpdate → Nat
  | .add other amount => if other = tally then amount else 0
  | .raise _ => 0

def longest : MetricsUpdate → Nat
  | .add _ _ => 0
  | .raise microseconds => microseconds

end MetricsUpdate

namespace Metrics

private theorem read_write (metrics : Metrics) (tally other : Tally) (value : Nat) :
    (metrics.write tally value).read other = if tally = other then value else metrics.read other := by
  cases tally <;> cases other <;> rfl

private theorem max_write (metrics : Metrics) (tally : Tally) (value : Nat) :
    (metrics.write tally value).latencyMaxMicroseconds = metrics.latencyMaxMicroseconds := by
  cases tally <;> rfl

private theorem ext_read {first second : Metrics}
    (same : ∀ tally, first.read tally = second.read tally)
    (longest : first.latencyMaxMicroseconds = second.latencyMaxMicroseconds) :
    first = second := by
  rcases first with ⟨total, ofLocal, ofNetwork, errors, sessions, sum, max⟩
  rcases second with ⟨total', ofLocal', ofNetwork', errors', sessions', sum', max'⟩
  cases same .requestsTotal
  cases same .requestsLocal
  cases same .requestsNetwork
  cases same .errorsTotal
  cases same .activeSessions
  cases same .latencySumMicroseconds
  cases longest
  rfl

private theorem read_act (metrics : Metrics) (update : MetricsUpdate) {tally : Tally}
    (fits : metrics.read tally < counterLimit) :
    (metrics.act update).read tally = (metrics.read tally + update.amount tally) % counterLimit := by
  cases update with
  | add other amount =>
      simp only [act, read_write, MetricsUpdate.amount]
      split
      · next same => rw [same]
      · rw [Nat.add_zero, Nat.mod_eq_of_lt fits]
  | raise microseconds =>
      rw [MetricsUpdate.amount, Nat.add_zero, Nat.mod_eq_of_lt fits]
      cases tally <;> rfl

private theorem max_act (metrics : Metrics) (update : MetricsUpdate) :
    (metrics.act update).latencyMaxMicroseconds =
      max metrics.latencyMaxMicroseconds update.longest := by
  cases update with
  | add other amount =>
      simp only [act, max_write, MetricsUpdate.longest, Nat.max_zero]
  | raise microseconds => rfl

private theorem act_comm (metrics : Metrics) (first second : MetricsUpdate) :
    (metrics.act first).act second = (metrics.act second).act first := by
  cases first with
  | raise one =>
      cases second with
      | raise other => simp only [act, max_right_comm]
      | add tally amount => cases tally <;> rfl
  | add one amount =>
      cases second with
      | raise microseconds => cases one <;> rfl
      | add other more =>
          apply ext_read
          · intro tally
            simp only [act, read_write]
            by_cases same : one = other
            · subst same
              by_cases here : one = tally
              · rw [if_pos here, if_pos here, if_pos rfl, if_pos rfl, Nat.mod_add_mod,
                  Nat.mod_add_mod, Nat.add_right_comm]
              · rw [if_neg here, if_neg here, if_neg here, if_neg here]
            · rw [if_neg same, if_neg (Ne.symm same)]
              by_cases here : other = tally
              · subst here
                rw [if_pos rfl, if_pos rfl, if_neg same]
              · rw [if_neg here, if_neg here]
          · simp only [act, max_write]

private theorem read_foldl {metrics : Metrics} (updates : List MetricsUpdate) {tally : Tally}
    (fits : metrics.read tally < counterLimit) :
    (updates.foldl act metrics).read tally =
      (metrics.read tally + (updates.map (MetricsUpdate.amount tally)).sum) % counterLimit := by
  induction updates generalizing metrics with
  | nil => rw [List.foldl_nil, List.map_nil, List.sum_nil, Nat.add_zero, Nat.mod_eq_of_lt fits]
  | cons update updates ih =>
      have inside : (metrics.act update).read tally < counterLimit := by
        rw [read_act metrics update fits]
        exact Nat.mod_lt _ (by decide)
      rw [List.foldl_cons, ih inside, read_act metrics update fits, List.map_cons, List.sum_cons,
        Nat.mod_add_mod, Nat.add_assoc]

private theorem max_foldl (metrics : Metrics) (updates : List MetricsUpdate) :
    (updates.foldl act metrics).latencyMaxMicroseconds =
      (updates.map MetricsUpdate.longest).foldl max metrics.latencyMaxMicroseconds := by
  induction updates generalizing metrics with
  | nil => rfl
  | cons update updates ih => rw [List.foldl_cons, ih, max_act, List.map_cons, List.foldl_cons]

private theorem le_foldl_max {latencies : List Nat} {start latency : Nat}
    (among : latency = start ∨ latency ∈ latencies) : latency ≤ latencies.foldl max start := by
  induction latencies generalizing start latency with
  | nil =>
      rcases among with rfl | impossible
      · exact Nat.le_refl _
      · cases impossible
  | cons head latencies ih =>
      rw [List.foldl_cons]
      have first := @ih (max start head) _ (Or.inl rfl)
      rcases among with rfl | member
      · exact le_trans (Nat.le_max_left _ _) first
      · rcases List.mem_cons.mp member with rfl | member
        · exact le_trans (Nat.le_max_right _ _) first
        · exact ih (Or.inr member)

end Metrics

/-- The counters after some datagrams, in whatever order they were served. -/
def metricsOf (received : List Received) : Metrics where
  requestsTotal :=
    (received.countP Received.fromLocal + received.countP Received.fromNetwork) % counterLimit
  requestsLocal := received.countP Received.fromLocal % counterLimit
  requestsNetwork := received.countP Received.fromNetwork % counterLimit
  errorsTotal := received.countP Received.malformed % counterLimit
  activeSessions := 0
  latencySumMicroseconds := (received.map Received.latency).sum % counterLimit
  latencyMaxMicroseconds := (received.map Received.latency).foldl max 0

namespace Received

variable (received : Received) (stream : List Received)

/-- What the updates of a datagram add to a counter. -/
def adds (tally : Tally) : Nat := (received.updates.map (MetricsUpdate.amount tally)).sum

private theorem sum_updates (tally : Tally) :
    ((stream.flatMap updates).map (MetricsUpdate.amount tally)).sum =
      (stream.map (fun received => received.adds tally)).sum := by
  induction stream with
  | nil => rfl
  | cons received stream ih =>
      rw [List.flatMap_cons, List.map_append, List.sum_append, ih, List.map_cons, List.sum_cons]
      rfl

def indicator (holds : Bool) : Nat := if holds then 1 else 0

private theorem sum_indicator (holds : Received → Bool) :
    (stream.map (fun received => indicator (holds received))).sum = stream.countP holds := by
  induction stream with
  | nil => rfl
  | cons received stream ih =>
      rw [List.map_cons, List.sum_cons, ih, List.countP_cons, Nat.add_comm]
      rfl

private theorem sum_counted (tally : Tally) :
    (received.counted.map (MetricsUpdate.amount tally)).sum =
      match tally with
      | .requestsTotal => indicator received.fromLocal + indicator received.fromNetwork
      | .requestsLocal => indicator received.fromLocal
      | .requestsNetwork => indicator received.fromNetwork
      | _ => 0 := by
  rcases received with ⟨datagram, elapsed⟩ | ⟨_ | request, elapsed⟩ <;> cases tally <;> rfl

private theorem sum_served (tally : Tally) :
    (received.served.map (MetricsUpdate.amount tally)).sum =
      match tally with
      | .errorsTotal => indicator received.malformed
      | .latencySumMicroseconds => received.latency
      | _ => 0 := by
  unfold served malformed latency
  cases received.request? with
  | none =>
      cases received.fromLocal <;> cases tally <;> rfl
  | some request =>
      simp only [servedUpdates, Option.any_some, Option.isNone_some, Bool.and_false]
      rcases Bool.eq_false_or_eq_true request.ends with ends | ends
      · simp only [ends]
        cases tally <;> rfl
      · simp only [ends]
        cases tally <;> rfl

private theorem foldl_max_updates (longest : Nat) :
    (received.updates.map MetricsUpdate.longest).foldl max longest =
      max longest received.latency := by
  have first : (received.counted.map MetricsUpdate.longest).foldl max longest = longest := by
    rcases received with ⟨datagram, elapsed⟩ | ⟨_ | request, elapsed⟩
    · simp only [counted, List.map_cons, List.map_nil, MetricsUpdate.longest, List.foldl_cons,
        List.foldl_nil, Nat.max_zero]
    · rfl
    · simp only [counted, List.map_cons, List.map_nil, MetricsUpdate.longest, List.foldl_cons,
        List.foldl_nil, Nat.max_zero]
  unfold updates
  rw [List.map_append, List.foldl_append, first]
  unfold served latency
  cases received.request? with
  | none =>
      rw [Option.any_none, if_neg Bool.false_ne_true, Nat.max_zero]
      cases received.fromLocal with
      | false => rfl
      | true => exact Nat.max_zero longest
  | some request =>
      simp only [servedUpdates, Option.any_some]
      rcases Bool.eq_false_or_eq_true request.ends with ends | ends
      · simp only [ends, if_true, Bool.not_true, Bool.false_eq_true, if_false, List.map_nil,
          List.foldl_nil, Nat.max_zero]
      · simp only [ends, Bool.false_eq_true, if_false, Bool.not_false, if_true, List.map_cons,
          List.map_nil, MetricsUpdate.longest, List.foldl_cons, List.foldl_nil, Nat.max_zero]

private theorem max_foldl_updates (metrics : Metrics) :
    ((stream.flatMap updates).foldl Metrics.act metrics).latencyMaxMicroseconds =
      (stream.map latency).foldl max metrics.latencyMaxMicroseconds := by
  rw [Metrics.max_foldl]
  generalize metrics.latencyMaxMicroseconds = longest
  induction stream generalizing longest with
  | nil => rfl
  | cons received stream ih =>
      rw [List.flatMap_cons, List.map_append, List.foldl_append, foldl_max_updates, ih,
        List.map_cons, List.foldl_cons]

private theorem read_foldl_updates (tally : Tally) :
    ((stream.flatMap updates).foldl Metrics.act createMetrics).read tally =
      (metricsOf stream).read tally := by
  have fits : createMetrics.read tally < counterLimit := by
    cases tally <;> decide
  have zero : createMetrics.read tally = 0 := by
    cases tally <;> rfl
  rw [Metrics.read_foldl _ fits, zero, Nat.zero_add, sum_updates]
  unfold adds updates
  simp only [List.map_append, List.sum_append, sum_counted, sum_served]
  cases tally with
  | requestsTotal =>
      simp only [Nat.add_zero, List.sum_map_add]
      exact congrArg (· % counterLimit)
        (congrArg₂ (· + ·) (sum_indicator stream fromLocal) (sum_indicator stream fromNetwork))
  | requestsLocal => exact congrArg (· % counterLimit) (sum_indicator stream fromLocal)
  | requestsNetwork => exact congrArg (· % counterLimit) (sum_indicator stream fromNetwork)
  | errorsTotal =>
      simp only [Nat.zero_add]
      exact congrArg (· % counterLimit) (sum_indicator stream malformed)
  | activeSessions =>
      simp only [Nat.add_zero, List.map_const', List.sum_replicate, smul_zero]
      rfl
  | latencySumMicroseconds =>
      simp only [Nat.zero_add]
      rfl

private theorem foldl_updates :
    (stream.flatMap updates).foldl Metrics.act createMetrics = metricsOf stream :=
  Metrics.ext_read (read_foldl_updates stream) (max_foldl_updates stream createMetrics)

private theorem latency_le {longest : Nat} (bounded : received.latency ≤ longest) :
    received.latency ≤
      (indicator received.fromLocal + indicator received.fromNetwork) * longest := by
  rcases received with ⟨datagram, elapsed⟩ | ⟨_ | request, elapsed⟩
  · exact bounded.trans (Nat.le_of_eq (Nat.one_mul longest).symm)
  · exact Nat.zero_le _
  · exact bounded.trans (Nat.le_of_eq (Nat.one_mul longest).symm)

private theorem sum_latency_le :
    (stream.map latency).sum ≤ (stream.countP fromLocal + stream.countP fromNetwork) *
      (stream.map latency).foldl max 0 := by
  have each : ∀ received ∈ stream, received.latency ≤
      (indicator received.fromLocal + indicator received.fromNetwork) *
        (stream.map latency).foldl max 0 := fun received member =>
    received.latency_le (Metrics.le_foldl_max (Or.inr (List.mem_map_of_mem member)))
  apply (List.sum_le_sum each).trans
  rw [List.sum_map_mul_right, List.sum_map_add, sum_indicator, sum_indicator]

end Received

private theorem counted_le_length (stream : List Received) :
    stream.countP Received.fromLocal + stream.countP Received.fromNetwork ≤ stream.length := by
  induction stream with
  | nil => exact Nat.le_refl 0
  | cons received stream ih =>
      rcases received with ⟨datagram, elapsed⟩ | ⟨_ | request, elapsed⟩ <;>
        simp only [List.countP_cons, List.length_cons, Received.fromLocal, Received.fromNetwork,
          Option.isSome_none, Option.isSome_some, if_true, Bool.false_eq_true, if_false] <;>
        omega

/-- The average is at most the longest latency, unless the number of requests has wrapped
around. -/
theorem average_le_longest (stream : List Received)
    (fits : stream.countP Received.fromLocal + stream.countP Received.fromNetwork <
      counterLimit) :
    (metricsOf stream).readLatencyAverageMicroseconds ≤
      (metricsOf stream).latencyMaxMicroseconds := by
  unfold Metrics.readLatencyAverageMicroseconds
  split
  · exact Nat.zero_le _
  · apply Nat.div_le_of_le_mul
    change _ % _ ≤ _ % _ * _
    rw [Nat.mod_eq_of_lt fits]
    exact (Nat.mod_le _ _).trans (Received.sum_latency_le stream)

/-! ### Every interleaving -/

private theorem counters_collect {Time : Type} :
    Collects (Metrics.counters : Object metricsCalls Time Metrics) MetricsCall.update?
      Metrics.act id := by
  intro request time metrics
  cases request <;> rfl

private theorem pool_records (parser : SqlParser) (streams : List (List Received)) :
    List.Forall₂ (Remaining (Program.rightUpdate? MetricsCall.update?) (fun _ => True))
      (streams.map (work parser))
      (streams.map (fun stream => ([], (handled stream).flatMap Received.updates))) := by
  rw [List.forall₂_map_left_iff, List.forall₂_map_right_iff, List.forall₂_same]
  intro stream _
  exact ⟨_, rfl, work_counts stream⟩

private theorem made_of_answered {results : List (Option (List (List Bytes)))}
    {finals : List (List MetricsUpdate × List MetricsUpdate)}
    (recorded : List.Forall₂ (Gathered (fun _ => True)) results finals)
    (answered : ∀ result ∈ results, result.isSome = true) :
    finals.flatMap Prod.fst = (finals.map Prod.snd).flatten := by
  induction recorded with
  | nil => rfl
  | cons here rest ih =>
      rw [List.flatMap_cons, List.map_cons, List.flatten_cons,
        here.all (answered _ (List.mem_cons_self ..)),
        ih (fun result member => answered result (List.mem_cons_of_mem _ member))]

/-- When workers of both sockets have answered what they have received, in whatever order
they did so, every datagram that was handled is counted once. -/
theorem every_request_is_counted_once (site : Site) (clock : Nat → Instant × SqlFaults)
    (parser : SqlParser) (streams : List (List Received)) {ticks later : Nat}
    {bus last : PermutiveBus} {metrics : Metrics} {results : List (Option (List (List Bytes)))}
    (answered : ∀ result ∈ results, result.isSome = true)
    (interleaved : Interleaved ((bothTiersUnder site).beside Metrics.counters) clock
      (streams.map (work parser)) ticks (bus, createMetrics) results later (last, metrics)) :
    metrics = metricsOf (streams.flatMap handled) ∧
      ((streams.flatMap handled).length < counterLimit →
        metrics.requestsTotal = metrics.requestsLocal + metrics.requestsNetwork ∧
          metrics.readLatencyAverageMicroseconds ≤ metrics.latencyMaxMicroseconds) := by
  have nothing : (streams.map (fun stream =>
      (([] : List MetricsUpdate), (handled stream).flatMap Received.updates))).flatMap Prod.fst =
        [] := by
    rw [List.flatMap_map]
    exact List.flatMap_eq_nil_iff.mpr (fun _ _ => rfl)
  rcases interleaved.collected counters_collect.beside Metrics.act_comm
    createMetrics (pool_records parser streams) (by rw [nothing]; rfl) with
    ⟨finals, same, recorded, ended⟩
  have counted : metrics = metricsOf (streams.flatMap handled) := by
    rw [← Received.foldl_updates]
    refine ended.trans ?_
    rw [made_of_answered recorded answered, same, List.map_map, List.flatMap_assoc]
    rfl
  refine ⟨counted, fun fits => ?_⟩
  have inside := lt_of_le_of_lt (counted_le_length (streams.flatMap handled)) fits
  subst counted
  refine ⟨?_, average_le_longest _ inside⟩
  change _ % _ = _ % _ + _ % _
  rw [Nat.mod_eq_of_lt inside, Nat.mod_eq_of_lt (lt_of_le_of_lt (Nat.le_add_right _ _) inside),
    Nat.mod_eq_of_lt (lt_of_le_of_lt (Nat.le_add_left _ _) inside)]

/-- A worker of the local socket gets a request for the status and a datagram that is cut
short; one of the network gets noise, and a value to store. -/
def twoStreams : List (List Received) :=
  [[.ofLocal (BigEndian.toBeBytes 4 7 ++ [0x14]) 5000, .ofLocal [1] 0],
    [.ofNetwork none 0,
      .ofNetwork (some
        { requestId := 8
          opcode := 0x02
          payload := lengthPrefixed (asBytes "a:b") ++ lengthPrefixed (asBytes "x") ++
            BigEndian.toBeBytes 8 0
          isLocal := false }) 9000]]

def quietClock : Nat → Instant × SqlFaults := fun _ => (0, noFaults)

theorem two_streams_are_counted :
    ∃ results later last metrics,
      Interleaved ((bothTiersUnder openSite).beside Metrics.counters) quietClock
        (twoStreams.map (work silentParser)) 0
        (emptyBus, createMetrics) results later (last, metrics) ∧
      metrics = metricsOf (twoStreams.flatMap handled) ∧
      ((twoStreams.flatMap handled).length < counterLimit →
        metrics.requestsTotal = metrics.requestsLocal + metrics.requestsNetwork ∧
          metrics.readLatencyAverageMicroseconds ≤ metrics.latencyMaxMicroseconds) := by
  have ran : ∃ results later after,
      Interleaved ((bothTiersUnder openSite).beside Metrics.counters) quietClock
          (twoStreams.map (work silentParser)) 0 (emptyBus, createMetrics) results later after ∧
        ∀ result ∈ results, result.isSome = true :=
    ⟨_, _, _, Interleaved.cons_run _ (Interleaved.cons_run _ (.finished [] _ _)),
      by decide +kernel⟩
  rcases ran with ⟨results, later, ⟨last, metrics⟩, interleaved, answered⟩
  exact ⟨results, later, last, metrics, interleaved,
    every_request_is_counted_once openSite quietClock silentParser twoStreams answered
      interleaved⟩

end TricPlus
