import TricPlus.Bridges.PythonClient
import TricPlus.OneMap

/-!
A Python client and the server together.

The client sends an operation, the worker answers it, and the client makes the result out
of the answer before it sends the next one.  To the caller the two are one map.
-/

namespace TricPlus

open AtomicProgram

namespace Python

structure Performed where
  sendable : Sendable
  result : sendable.operation.Result

structure Concluded where
  sendable : Sendable
  outcome : CallOutcome sendable.operation.Result

/-- The operations of one connection, each answered before the next is sent; none after the
server has ended. -/
def session (parser : SqlParser) :
    Connection → List (Metrics × Sendable) → BusProgram (List Concluded)
  | _, [] => return []
  | connection, (metrics, sendable) :: rest => do
      match ← answerAlone parser metrics (sendable.operation.datagram connection) with
      | none => return []
      | some queue =>
          let others ← session parser connection.nextRequestId.2 rest
          return ⟨sendable, sendable.operation.conclude connection queue⟩ :: others

def Performed.returned (performed : Performed) : Concluded :=
  ⟨performed.sendable, .returned (performed.sendable.operation.carried performed.result)⟩

/-- Every datagram that carries the result fits the receive buffer of the client. -/
def Performed.Fits (performed : Performed) : Prop :=
  ∀ connection, Received (performed.sendable.operation.replies connection performed.result)

end Python

end TricPlus
