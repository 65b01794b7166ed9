import Storyline.Json.Value

/-! The written form of a JSON value, on one line and indented. Fields come out in the order they
are held in. -/

namespace Storyline

namespace Value

def hexDigit (n : Nat) : Char := (Nat.digitChar n)

/-- Quote and backslash are escaped, and every control character, by its short name where it has one. -/
def escapeChar (c : Char) : List Char :=
  if c == '"' then ['\\', '"']
  else if c == '\\' then ['\\', '\\']
  else if c == '\x08' then ['\\', 'b']
  else if c == '\t' then ['\\', 't']
  else if c == '\n' then ['\\', 'n']
  else if c == '\x0c' then ['\\', 'f']
  else if c == '\r' then ['\\', 'r']
  else if c.toNat < 32 then
    ['\\', 'u', '0', '0', hexDigit (c.toNat / 16), hexDigit (c.toNat % 16)]
  else [c]

def escape (cs : List Char) : List Char := cs.flatMap escapeChar

def quote (s : String) : String := "\"" ++ String.ofList (escape s.toList) ++ "\""

def literal (b : Bool) : String := if b then "true" else "false"

mutual

def compact : Value → String
  | .null => "null"
  | .bool b => literal b
  | .int n => toString n
  | .real written => written
  | .text s => quote s
  | .array items => "[" ++ ",".intercalate (compactItems items) ++ "]"
  | .object fields => "\x7b" ++ ",".intercalate (compactFields fields) ++ "\x7d"

def compactItems : List Value → List String
  | [] => []
  | v :: rest => v.compact :: compactItems rest

def compactFields : List (String × Value) → List String
  | [] => []
  | (key, v) :: rest => (quote key ++ ":" ++ v.compact) :: compactFields rest

end

def newline (depth : Nat) : String := "\n" ++ String.ofList (List.replicate (2 * depth) ' ')

/-- Each item on a line of its own, one level deeper than the brackets; no items, no line breaks. -/
def block (left right : String) (depth : Nat) (items : List String) : String :=
  if items.isEmpty then left ++ right
  else left ++ ",".intercalate (items.map (newline (depth + 1) ++ ·)) ++ newline depth ++ right

mutual

def indented (depth : Nat) : Value → String
  | .null => "null"
  | .bool b => literal b
  | .int n => toString n
  | .real written => written
  | .text s => quote s
  | .array items => block "[" "]" depth (indentedItems (depth + 1) items)
  | .object fields => block "\x7b" "\x7d" depth (indentedFields (depth + 1) fields)

def indentedItems (depth : Nat) : List Value → List String
  | [] => []
  | v :: rest => v.indented depth :: indentedItems depth rest

def indentedFields (depth : Nat) : List (String × Value) → List String
  | [] => []
  | (key, v) :: rest => (quote key ++ ": " ++ v.indented depth) :: indentedFields depth rest

end

def pretty (v : Value) : String := v.indented 0

end Value

end Storyline
