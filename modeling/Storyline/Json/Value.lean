/-! JSON values as transcripts hold them. Whole numbers are exact; a number written with a fraction or
an exponent is kept as it is written. -/

namespace Storyline

inductive Value where
  | null
  | bool (b : Bool)
  | int (n : Int)
  | real (written : String)
  | text (s : String)
  | array (items : List Value)
  | object (fields : List (String × Value))
deriving Repr, Inhabited, BEq

namespace Value

/-- Puts a field at its place among fields in order of their keys; a key already there gets the new
value. -/
def putField (key : String) (value : Value) : List (String × Value) → List (String × Value)
  | [] => [(key, value)]
  | (k, v) :: rest =>
      if key == k then (k, value) :: rest
      else if key < k then (key, value) :: (k, v) :: rest
      else (k, v) :: putField key value rest

/-- Fields in order of their keys, the last of equal keys standing. -/
def sortFields (fields : List (String × Value)) : List (String × Value) :=
  fields.foldl (fun sorted (key, value) => putField key value sorted) []

/-- The whole numbers a document can hold. -/
def inRange (n : Int) : Bool := -0x8000000000000000 ≤ n && n ≤ 0xFFFFFFFFFFFFFFFF

variable {β : Type}

def ofOption (toValue : β → Value) (o : Option β) : Value := (o.map toValue).getD .null

/-- A field that is left out when there is nothing in it. -/
def optionalField (key : String) (toValue : β → Value) : Option β → List (String × Value)
  | none => []
  | some x => [(key, toValue x)]

end Value

end Storyline
