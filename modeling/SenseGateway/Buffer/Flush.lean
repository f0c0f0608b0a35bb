import SenseGateway.Buffer.Queue
import SenseGateway.Effects.Prog

namespace SenseGateway.Buffer

open Python Effects

/-- An entry of `items`, as the cloud is sent it. -/
structure Item where
  deviceId : ℤ
  tagId : ℤ
  value : PyFloat
  quality : String
  deriving DecidableEq

def Item.pair (item : Item) : ℤ × ℤ := (item.deviceId, item.tagId)

/-- An entry of `valid_messages`: a message id and the item built for it. -/
abbrev Valid := String × Item

/-- What `flush_pending_batch` does outside plain computation. A request holds the items; the
message ids only say which messages it carries. -/
inductive FlushCall
  | getPendingMessages (limit : ℤ)
  | markMessageSent (messageId : String)
  | markMessageFailed (messageId errorMessage : String)
  | postTelemetryBatch (valid : List Valid)
  deriving DecidableEq

abbrev FlushCall.Answer : FlushCall → Type
  | .getPendingMessages _ => PyExcept (List Message)
  | .postTelemetryBatch _ => PyExcept Json
  | _ => Unit

abbrev flushCalls : Interface := ⟨FlushCall, FlushCall.Answer⟩

abbrev FlushM := Prog flushCalls PyError

def perform (o : FlushCall) : FlushM o.Answer := Prog.perform (I := flushCalls) o

def batchFlushSize : ℤ := 500

def buildItem (payload : Json) : PyExcept Item := do
  let deviceId ← (← payload.item "device_id").toInt
  let tagId ← (← payload.item "tag_id").toInt
  let value ← (← payload.item "value").toFloat
  let quality := ((← payload.get "quality").orElse (.str "good")).toStr
  return ⟨deviceId, tagId, value, quality⟩

def isDict : Json → Bool
  | .obj _ => true
  | _ => false

/-- The first loop of `flush_pending_batch`: the `valid_messages`, whose items are `items`. -/
def collectItems : List Message → FlushM (List Valid)
  | [] => return []
  | message :: messages => do
    let messageId := message.row.messageId
    if ¬ isDict message.payload then
      perform (.markMessageFailed messageId "Invalid or missing payload JSON")
      collectItems messages
    else
      match buildItem message.payload with
      | .error e =>
        if e.isConversionError then do
          perform (.markMessageFailed messageId ("Invalid buffered telemetry fields: " ++ e.message))
          collectItems messages
        -- an `OverflowError` is none of the three and ends the flush
        else Prog.throw e
      | .ok item => do
        let valid ← collectItems messages
        return (messageId, item) :: valid

/-- One entry of the comprehension: its pair, or nothing where an id is missing. -/
def rejectedPair (entry : Json) : PyExcept (Option (ℤ × ℤ)) := do
  if (← entry.contains "device_id") then
    if (← entry.contains "tag_id") then
      let deviceId ← (← entry.item "device_id").toInt
      let tagId ← (← entry.item "tag_id").toInt
      return some (deviceId, tagId)
  return none

/-- `rejected_pairs` of a response body -/
def rejectedPairs (result : Json) : PyExcept (List (ℤ × ℤ)) := do
  let rejected := (← result.get "rejected").orElse (.arr [])
  let pairs ← (← rejected.iter).mapM rejectedPair
  return pairs.filterMap id

instance instLawfulBEqPair : LawfulBEq (ℤ × ℤ) := inferInstance

/-- One pass of the last loop. -/
def settle (pairs : List (ℤ × ℤ)) (message : Valid) : FlushM Unit :=
  if message.2.pair ∈ pairs then
    perform (.markMessageFailed message.1 "Rejected by cloud: device or tag not found")
  else perform (.markMessageSent message.1)

/-- What follows the request. -/
def settleBatch (valid : List Valid) : PyExcept Json → FlushM Unit
  | .error e =>
    -- the whole batch stays pending
    if e.isRequestException then
      Prog.forEach valid fun message => perform (.markMessageFailed message.1 e.message)
    else Prog.throw e
  | .ok result => do
    let pairs ← rejectedPairs result
    Prog.forEach valid (settle pairs)

def flushPendingBatch : FlushM Unit := do
  let pendingMessages ← Prog.ofExcept (← perform (.getPendingMessages batchFlushSize))
  if pendingMessages = [] then return ()
  let valid ← collectItems pendingMessages
  if valid = [] then return ()
  settleBatch valid (← perform (.postTelemetryBatch valid))

end SenseGateway.Buffer
