import Storyline.Files
import Storyline.Settings.Layers
import Storyline.Text.Split
import Storyline.Text.Word

/-! Files that add variables to an environment, a line for each: a name, an equals sign and a value. The
value may be quoted and may name other variables after a dollar sign. What the environment already
holds stands, and nothing after the first line that cannot be read counts. -/

namespace Storyline

namespace EnvironmentFile

open Text

def path : String := ".env"

/-! Lines. A quoted value may go over several of them. -/

/-- Where in a value its last character so far stands. -/
inductive Within where
  | plain
  | blank
  | escape
  | strong
  | strongEscape
  | weak
  | weakEscape
deriving Repr, DecidableEq

def Within.next (w : Within) (c : Char) : Within :=
  match w with
  | .escape => .plain
  | .strongEscape => .strong
  | .weakEscape => .weak
  | .strong => if c == '\\' then .strongEscape else if c == '\'' then .plain else .strong
  | .weak => if c == '\\' then .weakEscape else if c == '"' then .plain else .weak
  | .plain | .blank =>
      if c == '\\' then .escape
      else if c == '"' then .weak
      else if c == '\'' then .strong
      else if w == .plain && isBlank c && c != '\n' && c != '\r' then .blank
      else .plain

/-- How a line ends: in some place of its value, or at a comment after so many characters. -/
inductive LineEnd where
  | within (w : Within)
  | comment (place : Nat)

def scan (w : Within) (place : Nat) : List Char → LineEnd
  | [] => .within w
  | c :: rest =>
      if w == .blank && c == '#' then .comment place else scan (w.next c) (place + 1) rest

def chomp (cs : List Char) : List Char :=
  match cs.reverse with
  | '\n' :: '\r' :: rest => rest.reverse
  | '\n' :: rest => rest.reverse
  | _ => cs

def isCommentLine (cs : List Char) : Bool := (cs.dropWhile isBlank).head? == some '#'

/-- Puts lines together to entries. What is left open at the end is no entry, but a fault. -/
def entries (w : Within) (held : List Char) : List (List Char) → List (Option (List Char))
  | [] => if w == .plain then [] else [none]
  | line :: rest =>
      let text := held ++ line
      if isCommentLine text then some [] :: entries .plain [] rest
      else match scan w 0 line with
        | .within .plain => some (chomp text) :: entries .plain [] rest
        | .within w => entries w text rest
        | .comment place => some (text.take place) :: entries .plain [] rest

def lines (cs : List Char) : List (List Char) :=
  match (split '\n' cs).reverse with
  | [] => []
  | last :: before =>
      before.reverse.map (· ++ ['\n']) ++ if last.isEmpty then [] else [last]

/-! Values -/

/-- A name after a dollar sign, bare or in braces, as far as it is read. -/
inductive Naming where
  | bare (name : List Char)
  | braced (name : List Char)

structure ValueState where
  output : List Char := []
  strong : Bool := false
  weak : Bool := false
  escaped : Bool := false
  /-- Only a comment may still come. -/
  ended : Bool := false
  naming : Option Naming := none

def isNameChar (c : Char) : Bool := c.isAlphanum || (0x7F < c.toNat && isWord c)

namespace ValueState

def put (s : ValueState) (cs : List Char) : ValueState := { s with output := s.output ++ cs }

/-- The names in a value are looked up as soon as they end. -/
def name (look : String → String) (s : ValueState) (name : List Char) : ValueState :=
  { s.put (look (String.ofList name)).toList with naming := none }

def escape (s : ValueState) (c : Char) : Option ValueState :=
  let s := { s with escaped := false }
  if c == 'n' then some (s.put ['\n'])
  else if "\\'\"$ ".toList.contains c then some (s.put [c])
  else none

def nextBare (look : String → String) (s : ValueState) (n : List Char) (c : Char) : ValueState :=
  if isNameChar c then { s with naming := some (.bare (n ++ [c])) }
  else if c == '\x7b' && n.isEmpty then { s with naming := some (.braced []) }
  else if c == '$' then { s.name look n with naming := some (.bare []) }
  else (s.name look n).put [c]

def nextBraced (look : String → String) (s : ValueState) (n : List Char) (c : Char) : ValueState :=
  if c == '\x7d' then s.name look n else { s with naming := some (.braced (n ++ [c])) }

def nextPlain (s : ValueState) (c : Char) : ValueState :=
  if c == '$' then { s with naming := some (.bare []) }
  else if c == '\\' then { s with escaped := true }
  else if c == '"' then { s with weak := !s.weak }
  else if s.weak then s.put [c]
  else if c == '\'' then { s with strong := true }
  else if c == ' ' || c == '\t' then { s with ended := true }
  else s.put [c]

def next (look : String → String) (s : ValueState) (c : Char) : Option ValueState :=
  if s.escaped then s.escape c
  else if s.strong then some (if c == '\'' then { s with strong := false } else s.put [c])
  else match s.naming with
    | some (.bare n) => some (s.nextBare look n c)
    | some (.braced n) => some (s.nextBraced look n c)
    | none => some (s.nextPlain c)

/-- The value, once all of it is read: quotes and braces must be closed. -/
def finish (look : String → String) (s : ValueState) : Option String :=
  if s.strong || s.weak then none
  else match s.naming with
    | some (.braced _) => none
    | some (.bare n) => some (String.ofList (s.name look n).output)
    | none => some (String.ofList s.output)

/-- Reads on from `s`. After the value a comment ends the line whatever it holds. -/
def read (look : String → String) (s : ValueState) : List Char → Option String
  | [] => s.finish look
  | c :: rest =>
      if s.ended then
        if c == ' ' || c == '\t' then read look s rest
        else if c == '#' then s.finish look
        else none
      else match s.next look c with
        | some s => read look s rest
        | none => none

end ValueState

/-! Entries -/

def isKeyStart (c : Char) : Bool := c.isAlpha || c == '_'

def isKeyChar (c : Char) : Bool := c.isAlphanum || c == '_' || c == '.'

def key? (cs : List Char) : Option (String × List Char) :=
  match cs with
  | [] => none
  | c :: _ =>
      if isKeyStart c then
        some (String.ofList (cs.takeWhile isKeyChar), (cs.dropWhile isKeyChar).dropWhile isBlank)
      else none

def afterEquals? : List Char → Option (List Char)
  | '=' :: rest => some (rest.dropWhile isBlank)
  | _ => none

/-- Name and value of an entry. The word `export` may come before the name. -/
def assignment? (cs : List Char) : Option (String × List Char) := do
  let (key, rest) ← key? cs
  if key == "export" && (afterEquals? rest).isNone then
    let (key, rest) ← key? rest
    return (key, ← afterEquals? rest)
  else return (key, ← afterEquals? rest)

/-- An environment and what a file has said so far; a name may be set in both. -/
structure Merge where
  env : Environment
  said : Environment := []

namespace Merge

/-- A variable of the environment, or else what the file said of it last. -/
def look (m : Merge) (name : String) : String := ((m.env.lookup name).or (m.said.lookup name)).getD ""

def set (m : Merge) (key value : String) : Merge :=
  ⟨if (m.env.lookup key).isSome then m.env else m.env ++ [(key, value)], (key, value) :: m.said⟩

def add (m : Merge) (cs : List Char) : Option Merge :=
  match trim cs with
  | [] => some m
  | c :: rest =>
      if c == '#' then some m
      else do
        let (key, value) ← assignment? (c :: rest)
        if value.isEmpty || value.head? == some '#' then return m.set key ""
        else return m.set key (← ValueState.read m.look {} value)

def addAll (m : Merge) : List (Option (List Char)) → Merge
  | [] => m
  | none :: _ => m
  | some cs :: rest =>
      match m.add cs with
      | some m => m.addAll rest
      | none => m

end Merge

end EnvironmentFile

def Environment.withText (env : Environment) (text : String) : Environment :=
  let lines := EnvironmentFile.lines (Text.withoutByteOrderMark text.toList)
  ((⟨env, []⟩ : EnvironmentFile.Merge).addAll (EnvironmentFile.entries .plain [] lines)).env

/-- The environment with what the environment file adds, if there is one. -/
def Environment.withFile (env : Environment) (fs : Files) : Environment :=
  match fs.read EnvironmentFile.path with
  | .ok text => env.withText text
  | .error _ => env

end Storyline
