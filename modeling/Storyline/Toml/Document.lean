import Storyline.Toml.Quoted
import Storyline.Toml.Tree

/-! TOML documents as they are written. Readers of nested values take a bound on their steps, which the
length of the text supplies. -/

namespace Storyline.Toml

open Text Reading

def blanks : Reading Unit := do let _ ← run isBlank

/-- Passes over blanks, line ends and comments; `inside` a comment. -/
def passOver (inside : Bool) : List Char → Option (List Char)
  | [] => some []
  | '\r' :: '\n' :: rest => passOver false rest
  | c :: rest =>
      if c == '\n' then passOver false rest
      else if inside then if isControl c then none else passOver true rest
      else if isBlank c then passOver false rest
      else if c == '#' then passOver true rest
      else some (c :: rest)

def filler : Reading Unit := fun cs => (passOver false cs).map ((), ·)

/-- Only a comment may follow on the line. -/
def lineEnd : Reading Unit := do
  blanks
  match ← peek with
  | none => return ()
  | some c => if "#\r\n".toList.contains c then return () else failure

/-! Keys -/

def isKeyChar (c : Char) : Bool := c.isAlphanum || c == '_' || c == '-'

def key : Reading String := do
  match ← peek with
  | some '"' => mark '"'; quoted '"'
  | some '\'' => mark '\''; quoted '\''
  | _ => return String.ofList (← run1 isKeyChar)

def keys : Nat → Reading (List String)
  | 0 => failure
  | fuel + 1 => do
      blanks
      let first ← key
      blanks
      if ← mark? '.' then return first :: (← keys fuel) else return [first]

/-! Values -/

mutual

def value : Nat → Reading Toml
  | 0 => failure
  | fuel + 1 => do
      match ← peek with
      | some '"' => return .scalar (.string (← anyQuoted '"'))
      | some '\'' => return .scalar (.string (← anyQuoted '\''))
      | some '[' => mark '['; return .array (← items fuel)
      | some '\x7b' =>
          mark '\x7b'
          match inline? (← settings fuel) with
          | some t => return t
          | none => failure
      | _ => return .scalar (← word)

def items : Nat → Reading (List Toml)
  | 0 => failure
  | fuel + 1 => do
      filler
      if ← mark? ']' then return []
      let item ← value fuel
      filler
      if ← mark? ',' then return item :: (← items fuel)
      mark ']'
      return [item]

/-- The settings of a table in braces from here to its end. -/
def settings : Nat → Reading (List (List String × Toml))
  | 0 => failure
  | fuel + 1 => do
      filler
      if ← mark? '\x7d' then return []
      let item ← setting fuel
      filler
      if ← mark? ',' then return item :: (← settings fuel)
      mark '\x7d'
      return [item]

def setting : Nat → Reading (List String × Toml)
  | 0 => failure
  | fuel + 1 => do
      let path ← keys fuel
      mark '='
      blanks
      return (path, ← value fuel)

end

/-! Documents -/

def header (fuel : Nat) : Reading Statement := do
  if ← mark? '[' then
    let path ← keys fuel
    mark ']'
    mark ']'
    return .element path
  else
    let path ← keys fuel
    mark ']'
    return .table path

def statement (fuel : Nat) : Reading Statement := do
  if ← mark? '[' then header fuel
  else
    let (path, value) ← setting fuel
    return .setting path value

def statements : Nat → Reading (List Statement)
  | 0 => failure
  | fuel + 1 => do
      filler
      if (← peek).isNone then return []
      let first ← statement fuel
      lineEnd
      return first :: (← statements fuel)

/-- What a document says, if it is well-formed. -/
def ofText? (text : String) : Option Entries := do
  let cs := withoutByteOrderMark text.toList
  ofStatements? (← whole? (statements (3 * cs.length + 3)) cs)

end Storyline.Toml
