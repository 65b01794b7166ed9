import Storyline.Error
import Storyline.Json.Value

/-! Recorded exchanges: what was asked, by whom, and what came back. A driver hands over its own data
as payloads, and not every payload can be written as JSON. -/

namespace Storyline

namespace Payload

inductive Key where
  | text (s : String)
  | int (n : Int)
  | bool (b : Bool)
  | other
deriving Repr

end Payload

/-- Data as a driver holds it. -/
inductive Payload where
  | value (v : Value)
  | nothing
  | notFinite
  | integer (n : Int)
  | sequence (items : List Payload)
  | map (entries : List (Payload.Key × Payload))
  | refused (message : String)
deriving Repr, Inhabited

namespace Payload

def Key.toText : Key → Except String String
  | .text s => .ok s
  | .int n => .ok (toString n)
  | .bool b => .ok (toString b)
  | .other => .error "key must be a string"

mutual

/-- Nothing and numbers that are not finite become null; whole numbers must be in range, and keys must
have a text. -/
def toValue : Payload → Except String Value
  | .value v => .ok v
  | .nothing => .ok .null
  | .notFinite => .ok .null
  | .integer n => if Value.inRange n then .ok (.int n) else .error "number out of range"
  | .sequence items => (itemValues items).map Value.array
  | .map entries => (entryValues entries).map fun fields => .object (Value.sortFields fields)
  | .refused message => .error message

def itemValues : List Payload → Except String (List Value)
  | [] => .ok []
  | p :: rest => do return (← p.toValue) :: (← itemValues rest)

def entryValues : List (Key × Payload) → Except String (List (String × Value))
  | [] => .ok []
  | (key, p) :: rest => do return (← key.toText, ← p.toValue) :: (← entryValues rest)

end

def record (p : Payload) : Except Error Value :=
  p.toValue.mapError fun message => .transcript (.serialization message)

end Payload

structure Response where
  status : Option Nat
  body : Value
deriving Repr, BEq

def Response.capture (status : Option Nat) (body : Payload) : Except Error Response :=
  body.record.map fun v => ⟨status, v⟩

/-- An action that never got its answer is empty. -/
structure Action where
  actor : Option String := none
  request : Option Value := none
  response : Option Response := none
deriving Repr, BEq, Inhabited

namespace Action

def of (actor : String) (request : Value) (response : Response) : Action :=
  ⟨some actor, some request, some response⟩

def isEmpty (a : Action) : Bool := a.actor.isNone && a.request.isNone && a.response.isNone

end Action

/-- What a driver hands over once a request is answered. -/
structure Delivery where
  actor : String
  status : Option Nat
  request : Payload
  body : Payload
deriving Repr

/-- The response is captured first. -/
def Delivery.action (d : Delivery) : Except Error Action := do
  let response ← Response.capture d.status d.body
  return .of d.actor (← d.request.record) response

end Storyline
