import Storyline.Suite

/-! One-line texts that show how a specification is built, for messages to the people who write
suites. -/

namespace Storyline

variable {α : Type}

namespace Inspect

/-- Written in quotes: the usual short escapes, and a code in braces for other control characters. -/
def escaped (c : Char) : String :=
  if c == '"' then "\\\""
  else if c == '\\' then "\\\\"
  else if c == '\n' then "\\n"
  else if c == '\r' then "\\r"
  else if c == '\t' then "\\t"
  else if c == '\x00' then "\\0"
  else if c.val < 32 || c.val == 127 then
    "\\u\x7b" ++ String.ofList (Nat.toDigits 16 c.toNat) ++ "\x7d"
  else c.toString

def quoted (s : String) : String :=
  "\"" ++ String.join (s.toList.map escaped) ++ "\""

def list (items : List String) : String := "[" ++ ", ".intercalate items ++ "]"

/-- `Name {` the fields, separated by commas, `}`. -/
def record (name : String) (fields : List (String × String)) : String :=
  name ++ " \x7b " ++ ", ".intercalate (fields.map fun (field, text) => field ++ ": " ++ text) ++ " \x7d"

end Inspect

open Inspect

def Step.inspect (s : Step α) : String :=
  record "Step" [("description", quoted s.description), ("is_fork", toString s.isFork),
    ("pending", toString s.isPending)]

mutual

def Node.inspect : Node α → String
  | .step s => "Step(" ++ quoted s.description ++ ")"
  | .fork alternative => "Fork(" ++ Inspect.list (Steps.inspectAll alternative) ++ ")"
  | .deferred => "Deferred"

def Steps.inspectAll : List (Node α) → List String
  | [] => []
  | node :: rest => node.inspect :: Steps.inspectAll rest

end

def Steps.inspect (steps : Steps α) : String := Inspect.list (Steps.inspectAll steps)

def Entry.inspect : Entry α → String
  | .step s => s.description
  | .deferred => "<deferred>"

def Path.inspect (p : Path α) : String := Inspect.list (p.entries.map Entry.inspect)

def Story.inspect (s : Story α) : String :=
  record "Story" [("description", quoted s.description),
    ("spec", match s.spec with
      | none => "None"
      | some spec => "Some(" ++ Steps.inspect spec ++ ")")]

def Topic.inspect (t : Topic α) : String :=
  record "Topic" [("description", quoted t.description),
    ("stories", Inspect.list (t.stories.map Story.inspect)),
    ("before", toString t.before.isSome), ("after", toString t.after.isSome)]

end Storyline
