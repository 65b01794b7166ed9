import Storyline.Error
import Storyline.Files
import Storyline.Settings.Basic
import Storyline.Toml.Document

/-! Settings from a file and from the environment. The environment stands above the file. A key may be a
path such as `a.b` or `a[0]`; it then makes its first part something that has parts. -/

namespace Storyline

abbrev Environment := List (String × String)

/-- Settings for a file that was asked for or not, an environment and what files there are. -/
abbrev Settings.Loader := Option String → Environment → Files → Except Error Settings

namespace Settings

open Text Reading

def defaultFile : String := "fabula.toml"

def variableStart : String := "fabula_"

/-! Files on their own -/

/-- A text, if there is anything; anything else is refused. -/
def strictText : Option Toml → Option (Option String)
  | none => some none
  | some (.scalar (.string s)) => some (some s)
  | some _ => none

/-- Reads a file that gives its settings as texts and may say other things besides. -/
def ofText? (text : String) : Option Settings := do
  let entries ← Toml.ofText? text
  if Toml.integersFit 128 entries then ofNames fun name => strictText (entries.lookup name) else none

def malformed : String := "the text is malformed or says something that is no setting"

def fromFile (path : String) (fs : Files) : Except Error Settings := do
  let text ← (fs.read path).mapError fun e => .config (.read e.text)
  match ofText? text with
  | some settings => return settings
  | none => throw (.config (.parse malformed))

/-! Layers -/

inductive Found where
  | text (s : String)
  /-- An array, a table, or whatever else has parts. -/
  | parts
deriving Repr, DecidableEq

def isNameChar (c : Char) : Bool := c.isAlphanum || c == '_' || c == '-'

/-- The further parts of a path: names after a dot and positions in brackets. Tells if there are any. -/
def further : Nat → Reading Bool
  | 0 => failure
  | fuel + 1 => do
      if (← peek).isNone then return false
      if ← mark? '.' then let _ ← run1 isNameChar
      else
        mark '['
        let _ ← mark? '-'
        let _ ← run1 Char.isDigit
        mark ']'
      let _ ← further fuel
      return true

/-- The name a path starts with, and whether it goes on from there. -/
def headOf? (key : String) : Option (String × Bool) :=
  whole? (do return (String.ofList (← run1 isNameChar), ← further (key.length + 1))) key.toList

/-- What a key and its value say of a name. A key that is no path says nothing. -/
def said (key : String) (found : Found) : Option (String × Found) := do
  let (name, goesOn) ← headOf? key
  return (name, if goesOn then .parts else found)

def foundIn : Toml → Found
  | .scalar s => .text s.text
  | .array _ | .table .. | .tables _ => .parts

def ofDocument (entries : Toml.Entries) : List (String × Found) :=
  entries.filterMap fun (key, value) => said key (foundIn value)

/-- Variables whose names start as they must, whatever their case. -/
def ofEnvironment (env : Environment) : List (String × Found) :=
  env.filterMap fun (key, value) =>
    let name := key.toLower
    if name.startsWith variableStart then
      said (name.drop variableStart.length).toString (.text value)
    else none

/-- What stands last under `name`; a setting has no parts. -/
def resolve (layers : List (String × Found)) (name : String) : Except Error (Option String) :=
  match layers.reverse.lookup name with
  | none => .ok none
  | some (.text s) => .ok (some s)
  | some .parts => .error (.config (.invalid s!"{name} is not a text"))

def withEnding? (path : String) : Option String :=
  match ((pathNames path).filter (· != ".")).reverse with
  | [] => none
  | last :: above =>
      if last == ".." then none else some ("/".intercalate (above.reverse ++ [last ++ ".toml"]))

/-- The text at a path, or at that path with the ending of settings files. -/
def locateText? (path : String) (fs : Files) : Option String :=
  match fs.read path with
  | .ok text => some text
  | .error _ => (withEnding? path).bind fun path => (fs.read path).toOption

/-- What a settings file says; one that is not there says nothing, unless it was asked for. -/
def fileLayer (path? : Option String) (fs : Files) : Except Error (List (String × Found)) :=
  match locateText? (path?.getD defaultFile) fs, path? with
  | some text, _ =>
      match (Toml.ofText? text).filter (Toml.integersFit 64) with
      | some entries => .ok (ofDocument entries)
      | none => .error (.config (.load malformed))
  | none, some path => .error (.config (.load s!"there is no file \"{path}\""))
  | none, none => .ok []

/-- The settings of a file and the environment together. -/
def load : Loader := fun path? env fs => do
  let file ← fileLayer path? fs
  ofNames (resolve (file ++ ofEnvironment env))

end Settings

end Storyline
