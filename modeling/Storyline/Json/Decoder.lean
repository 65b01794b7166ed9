import Storyline.Json.Raw
import Storyline.Json.Value

/-! Reading values of a known shape. A record is an object, whose unknown fields are passed over and
whose known ones may come once, or an array of its fields in order, of which only fields with a default
may be missing at the end. Every container that is read, not passed over, counts against the depth. -/

namespace Storyline.Json

open Text

/-- Reads with so many levels of containers left. -/
abbrev Decoder (β : Type) := Nat → Raw → Option β

def maxDepth : Nat := 127

variable {β : Type}

namespace Decoder

def string : Decoder String
  | _, .string body => (unescape body).map String.ofList
  | _, _ => none

def bool : Decoder Bool
  | _, .bool b => some b
  | _, _ => none

/-- The whole number a numeral stands for; minus zero is not a whole number. -/
def whole? (n : Numeral) : Option Int := n.int?.filter fun m => !(n.negative && m == 0)

def natUpTo (bound : Nat) : Decoder Nat
  | _, .number n _ =>
      match whole? n with
      | some (.ofNat m) => if m ≤ bound then some m else none
      | _ => none
  | _, _ => none

def word16 : Decoder Nat := natUpTo 0xFFFF
def word64 : Decoder Nat := natUpTo 0xFFFFFFFFFFFFFFFF

def option (item : Decoder β) : Decoder (Option β)
  | _, .null => some none
  | depth, raw => (item depth raw).map some

def list (item : Decoder β) : Decoder (List β)
  | depth + 1, .array items => items.mapM (item depth)
  | _, _ => none

mutual

def value : Nat → Raw → Option Value
  | _, .null => some .null
  | _, .bool b => some (.bool b)
  | _, .number n written =>
      match whole? n with
      | some m => if Value.inRange m then some (.int m) else some (.real (String.ofList written))
      | none => if n.overflows then none else some (.real (String.ofList written))
  | _, .string body => (unescape body).map fun cs => .text (String.ofList cs)
  | 0, .array _ => none
  | depth + 1, .array items => (valueItems depth items).map Value.array
  | 0, .object _ => none
  | depth + 1, .object fields => (valueFields depth fields).map fun fs => .object (Value.sortFields fs)

def valueItems : Nat → List Raw → Option (List Value)
  | _, [] => some []
  | depth, raw :: rest => do return (← value depth raw) :: (← valueItems depth rest)

def valueFields : Nat → List (List Char × Raw) → Option (List (String × Value))
  | _, [] => some []
  | depth, (key, raw) :: rest => do
      return (String.ofList (← unescape key), ← value depth raw) :: (← valueFields depth rest)

end

end Decoder

/-- What a record gives for one of its fields. -/
inductive Given where
  | here (raw : Raw)
  /-- An object does not name the field. -/
  | unnamed
  /-- An array ends before the field. -/
  | beyond

/-- The values an object gives a field, in order. -/
def namedAs (name : String) (fields : List (List Char × Raw)) : List Raw :=
  fields.filterMap fun (key, raw) =>
    if unescape key == some name.toList then some raw else none

/-- The fields of a record, in the order of `names`, with the depth left for what is in them. -/
def fieldsOf (names : List String) : Nat → Raw → Option (Nat × List Given)
  | depth + 1, .object fields =>
      if fields.all (fun (key, _) => (unescape key).isSome) then
        (names.mapM fun name =>
          match namedAs name fields with
          | [] => some Given.unnamed
          | [raw] => some (.here raw)
          | _ => none).map fun given => (depth, given)
      else none
  | depth + 1, .array items =>
      if items.length ≤ names.length then
        some (depth, items.map Given.here ++ List.replicate (names.length - items.length) .beyond)
      else none
  | _, _ => none

namespace Given

def required (item : Decoder β) (depth : Nat) : Given → Option β
  | .here raw => item depth raw
  | _ => none

/-- Null or unnamed is nothing; the end of an array is an error. -/
def nullable (item : Decoder β) (depth : Nat) : Given → Option (Option β)
  | .here raw => item.option depth raw
  | .unnamed => some none
  | .beyond => none

def defaulted (item : Decoder β) (default : β) (depth : Nat) : Given → Option β
  | .here raw => item depth raw
  | _ => some default

end Given

def document (decode : Decoder β) (text : String) : Option β := do decode maxDepth (← Raw.ofText? text)

end Storyline.Json
