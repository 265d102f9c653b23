import TricPlus.Lib.AtomicProgram
import TricPlus.Lib.ByteLists

/-!
The storage interface shared by both tiers, the two-tier bus and every module
above it, with the byte strings and clock values it speaks of.
-/

namespace TricPlus

open AtomicProgram

abbrev Bytes := List UInt8

/-- The bytes of a string, as `as_bytes` gives them. -/
def asBytes (text : String) : Bytes := text.toUTF8.toList

/-- Nanoseconds on the monotonic clock.  The code's `Instant` ends at 2^63 seconds, which the
milliseconds of a request do not reach; calls with any lifetime are checked against it. -/
abbrev Instant := Nat

abbrev Duration := Nat

def fromMillis (milliseconds : Nat) : Duration := milliseconds * 1000000

def fromSecs (seconds : Nat) : Duration := seconds * 1000000000

def asMillis (duration : Duration) : Nat := duration / 1000000

/-- The methods of the trait `DataBus`. -/
inductive DataBusCall where
  | readValue (key : Bytes)
  | writeValue (key value : Bytes)
  | deleteValue (key : Bytes)
  | deleteValueIfMatch (key expected : Bytes)
  | writeTtl (key : Bytes) (duration : Duration)
  | writeValueWithTtl (key value : Bytes) (duration : Duration)
  | readTtlRemaining (key : Bytes)
  | findByPrefix (stem : Bytes)
  deriving DecidableEq

@[reducible] def DataBusCall.Reply : DataBusCall → Type
  | .readValue _ => Option Bytes
  | .writeValue _ _ => Unit
  | .deleteValue _ => Unit
  | .deleteValueIfMatch _ _ => Bool
  | .writeTtl _ _ => Unit
  | .writeValueWithTtl _ _ _ => Unit
  | .readTtlRemaining _ => Option Duration
  | .findByPrefix _ => List (Bytes × Bytes)

instance : (call : DataBusCall) → DecidableEq call.Reply
  | .readValue _ => inferInstanceAs (DecidableEq (Option Bytes))
  | .writeValue _ _ => inferInstanceAs (DecidableEq Unit)
  | .deleteValue _ => inferInstanceAs (DecidableEq Unit)
  | .deleteValueIfMatch _ _ => inferInstanceAs (DecidableEq Bool)
  | .writeTtl _ _ => inferInstanceAs (DecidableEq Unit)
  | .writeValueWithTtl _ _ _ => inferInstanceAs (DecidableEq Unit)
  | .readTtlRemaining _ => inferInstanceAs (DecidableEq (Option Duration))
  | .findByPrefix _ => inferInstanceAs (DecidableEq (List (Bytes × Bytes)))

def DataBusCall.key? : DataBusCall → Option Bytes
  | .readValue key => some key
  | .writeValue key _ => some key
  | .deleteValue key => some key
  | .deleteValueIfMatch key _ => some key
  | .writeTtl key _ => some key
  | .writeValueWithTtl key _ _ => some key
  | .readTtlRemaining key => some key
  | .findByPrefix _ => none

def DataBusCall.written? : DataBusCall → Option Bytes
  | .writeValue key _ => some key
  | .writeValueWithTtl key _ _ => some key
  | _ => none

theorem DataBusCall.key?_of_written? {request : DataBusCall} {key : Bytes}
    (written : request.written? = some key) : request.key? = some key := by
  cases request <;> first | exact written | cases written

@[reducible] def dataBus : Signature where
  Call := DataBusCall
  Reply := DataBusCall.Reply

/-- Code that talks to an `Arc<dyn DataBus>`. -/
abbrev BusProgram (α : Type) := Program dataBus α

namespace DataBus

def readValue (key : Bytes) : BusProgram (Option Bytes) :=
  Program.perform dataBus (.readValue key)

def writeValue (key value : Bytes) : BusProgram Unit :=
  Program.perform dataBus (.writeValue key value)

def deleteValue (key : Bytes) : BusProgram Unit :=
  Program.perform dataBus (.deleteValue key)

def deleteValueIfMatch (key expected : Bytes) : BusProgram Bool :=
  Program.perform dataBus (.deleteValueIfMatch key expected)

def writeTtl (key : Bytes) (duration : Duration) : BusProgram Unit :=
  Program.perform dataBus (.writeTtl key duration)

def writeValueWithTtl (key value : Bytes) (duration : Duration) : BusProgram Unit :=
  Program.perform dataBus (.writeValueWithTtl key value duration)

def readTtlRemaining (key : Bytes) : BusProgram (Option Duration) :=
  Program.perform dataBus (.readTtlRemaining key)

def findByPrefix (stem : Bytes) : BusProgram (List (Bytes × Bytes)) :=
  Program.perform dataBus (.findByPrefix stem)

end DataBus

end TricPlus
