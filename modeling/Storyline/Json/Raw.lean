import Storyline.Json.Token

/-! A JSON text as it is written: every field is kept, repeated ones too, in order, and numbers and
strings are as spelt. Reading is one pass over the words with a stack of what is still open, so a text
is read whatever its depth. -/

namespace Storyline.Json

open Text

inductive Raw where
  | null
  | bool (b : Bool)
  | number (n : Numeral) (written : List Char)
  | string (body : List Char)
  | array (items : List Raw)
  | object (fields : List (List Char × Raw))
deriving Repr, Inhabited

inductive Frame where
  | array (items : List Raw)
  | object (fields : List (List Char × Raw)) (key : List Char)

inductive Wanted where
  | value
  | firstItem
  | firstKey (fields : List (List Char × Raw))
  | key (fields : List (List Char × Raw))
  | colon (fields : List (List Char × Raw)) (key : List Char)
  | separator (frame : Frame) (item : Raw)
  | nothing (value : Raw)

structure Reader where
  wanted : Wanted := .value
  stack : List Frame := []

namespace Reader

/-- A value is complete; it belongs to the innermost open container. -/
def supply (stack : List Frame) (v : Raw) : Reader :=
  match stack with
  | [] => ⟨.nothing v, []⟩
  | frame :: stack => ⟨.separator frame v, stack⟩

def literal? (cs : List Char) : Option Raw :=
  if cs == "null".toList then some .null
  else if cs == "true".toList then some (.bool true)
  else if cs == "false".toList then some (.bool false)
  else (Numeral.ofText? cs).map fun n => .number n cs

def startValue (stack : List Frame) (t : Token) : Option Reader :=
  match t with
  | .word cs => (literal? cs).map (supply stack)
  | .string body => if wellEscaped body then some (supply stack (.string body)) else none
  | .mark c =>
      if c == '[' then some ⟨.firstItem, stack⟩
      else if c == '\x7b' then some ⟨.firstKey [], stack⟩
      else none

def startKey (fields : List (List Char × Raw)) (stack : List Frame) (t : Token) : Option Reader :=
  match t with
  | .string body => if wellEscaped body then some ⟨.colon fields body, stack⟩ else none
  | _ => none

def step (s : Reader) (t : Token) : Option Reader :=
  match s.wanted with
  | .value => startValue s.stack t
  | .firstItem =>
      if t = .mark ']' then some (supply s.stack (.array []))
      else startValue (.array [] :: s.stack) t
  | .firstKey fields =>
      if t = .mark '\x7d' then some (supply s.stack (.object fields)) else startKey fields s.stack t
  | .key fields => startKey fields s.stack t
  | .colon fields key =>
      if t = .mark ':' then some ⟨.value, .object fields key :: s.stack⟩ else none
  | .separator (.array items) v =>
      if t = .mark ',' then some ⟨.value, .array (items ++ [v]) :: s.stack⟩
      else if t = .mark ']' then some (supply s.stack (.array (items ++ [v])))
      else none
  | .separator (.object fields key) v =>
      if t = .mark ',' then some ⟨.key (fields ++ [(key, v)]), s.stack⟩
      else if t = .mark '\x7d' then some (supply s.stack (.object (fields ++ [(key, v)])))
      else none
  | .nothing _ => none

def result? (s : Reader) : Option Raw :=
  match s.wanted with
  | .nothing v => some v
  | _ => none

end Reader

def Raw.ofText? (text : String) : Option Raw := do
  ((← (← tokens text.toList).foldlM Reader.step {}).result?)

end Storyline.Json
