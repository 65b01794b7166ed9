import Storyline.Error
import Storyline.Run
import Storyline.Text.Blank
import Storyline.Text.Split

/-! Patterns that select topics, stories and paths. A pattern selects the texts in which its expression
is found, or, after an exclamation mark, all others; a list of patterns selects what one of them does. How
expressions are written, and where they are found, is up to a dialect. -/

namespace Storyline

/-- A language of expressions. A text is read as one, or refused with a message. -/
class Dialect where
  Expression : Type
  read : String → Except String Expression
  isMatch : Expression → String → Bool

section

variable [Dialect]

structure Pattern where
  expression : Dialect.Expression
  inverted : Bool

namespace Pattern

/-- Whether a source starts with an exclamation mark, and what is left of it. -/
def unmark (source : String) : Bool × String :=
  match source.toList with
  | '!' :: rest => (true, String.ofList rest)
  | _ => (false, source)

def ofText (source : String) : Except RunFault Pattern :=
  let (inverted, text) := unmark source
  match Dialect.read text with
  | .ok expression => .ok ⟨expression, inverted⟩
  | .error message => .error (.invalidPattern source message)

def selects (p : Pattern) (text : String) : Bool := Dialect.isMatch p.expression text != p.inverted

/-- The entries of a list: separated by commas, without the blanks around them, empty ones left out. -/
def entries (list : String) : List String :=
  ((Text.split ',' list.toList).map fun cs => String.ofList (Text.trim cs)).filter (· != "")

/-- The patterns of a list, or the fault of the first that cannot be read. -/
def ofList (list : String) : Except RunFault (List Pattern) := (entries list).mapM ofText

end Pattern

def anySelects (patterns : List Pattern) (text : String) : Bool := patterns.any (·.selects text)

/-- Patterns for topics, stories and paths; where there are none, everything is selected. -/
structure Filters where
  topics : Option (List Pattern) := none
  stories : Option (List Pattern) := none
  paths : Option (List Pattern) := none

namespace Filters

def selects (patterns : Option (List Pattern)) (text : String) : Bool :=
  patterns.all (anySelects · text)

def patterns? : Option String → Except RunFault (Option (List Pattern))
  | none => .ok none
  | some list => (Pattern.ofList list).map some

def ofLists (topics stories paths : Option String) : Except RunFault Filters := do
  return ⟨← patterns? topics, ← patterns? stories, ← patterns? paths⟩

def selection (f : Filters) : Selection := ⟨selects f.topics, selects f.stories, selects f.paths⟩

end Filters

end

end Storyline
