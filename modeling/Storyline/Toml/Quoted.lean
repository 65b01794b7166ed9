import Storyline.Text.Numeral
import Storyline.Text.Reading

/-! Quoted texts of TOML. Double quotes allow escapes, single quotes do not; either may be tripled, and
then the text may go over several lines. A body is first cut off at its closing quotes, then checked
and read. -/

namespace Storyline.Toml

open Text

def isControl (c : Char) : Bool := (c.toNat < 0x20 && c != '\t') || c.toNat == 0x7F

def isBlank (c : Char) : Bool := c == ' ' || c == '\t'

def prepend (cs : List Char) (r : List Char × List Char) : List Char × List Char := (cs ++ r.1, r.2)

/-- The body up to the closing quote `q`, and what follows. -/
def body (q : Char) : List Char → Option (List Char × List Char)
  | [] => none
  | c :: rest =>
      if c == q then some ([], rest)
      else match rest with
        | d :: rest' =>
            if c == '\\' && q == '"' then (body q rest').map (prepend [c, d])
            else (body q (d :: rest')).map (prepend [c])
        | [] => none

/-- The body up to three closing quotes, and what follows. Up to two quotes more belong to the body. -/
def tripleBody (q : Char) : List Char → Option (List Char × List Char)
  | [] => none
  | c :: rest =>
      match rest with
      | d :: e :: rest' =>
          if c == q && d == q && e == q then
            let extra := (rest'.takeWhile (· == q)).take 2
            some (extra, rest'.drop extra.length)
          else if c == '\\' && q == '"' then (tripleBody q (e :: rest')).map (prepend [c, d])
          else (tripleBody q (d :: e :: rest')).map (prepend [c])
      | _ => none

/-- No control characters but tabs and whole line ends. -/
def wellFormedLines : List Char → Bool
  | [] => true
  | '\r' :: '\n' :: rest => wellFormedLines rest
  | c :: rest => (c == '\n' || !isControl c) && wellFormedLines rest

def shortEscape? (c : Char) : Option Char :=
  match c with
  | '"' => some '"'
  | '\\' => some '\\'
  | 'b' => some '\x08'
  | 'e' => some '\x1b'
  | 'f' => some '\x0c'
  | 'n' => some '\n'
  | 'r' => some '\r'
  | 't' => some '\t'
  | _ => none

/-- What a backslash at the end of a line has still to pass over. -/
inductive Joint where
  | none
  /-- The rest of its own line. -/
  | lineEnd
  /-- Blanks and line ends, up to the next word. -/
  | blanks

/-- Reads escapes. A backslash at the end of a line joins it to the next word. -/
def unescape : Joint → List Char → Option (List Char)
  | .lineEnd, [] => Option.none
  | _, [] => some []
  | .lineEnd, c :: rest =>
      if c == '\n' then unescape .blanks rest
      else if isBlank c || c == '\r' then unescape .lineEnd rest
      else Option.none
  | joint, c :: rest =>
      if joint matches .blanks && (isBlank c || c == '\r' || c == '\n') then unescape .blanks rest
      else if c != '\\' then (unescape .none rest).map (c :: ·)
      else match rest with
        | 'x' :: a :: b :: rest => do
            return (← hexChar? [a, b]) :: (← unescape .none rest)
        | 'u' :: a :: b :: c :: d :: rest => do
            return (← hexChar? [a, b, c, d]) :: (← unescape .none rest)
        | 'U' :: a :: b :: c :: d :: e :: f :: g :: h :: rest => do
            return (← hexChar? [a, b, c, d, e, f, g, h]) :: (← unescape .none rest)
        | d :: rest' =>
            match shortEscape? d with
            | some c => (unescape .none rest').map (c :: ·)
            | none => unescape .lineEnd (d :: rest')
        | [] => Option.none

def bodyText? (q : Char) (cs : List Char) : Option String :=
  if q == '"' then (unescape .none cs).map String.ofList else some (String.ofList cs)

def quoted (q : Char) : Reading String := fun cs => do
  let (cs, rest) ← body q cs
  if cs.any isControl then none else return (← bodyText? q cs, rest)

/-- A line end right after the opening quotes is not part of the text. -/
def withoutFirstLineEnd : List Char → List Char
  | '\n' :: rest => rest
  | '\r' :: '\n' :: rest => rest
  | cs => cs

def tripleQuoted (q : Char) : Reading String := fun cs => do
  let (cs, rest) ← tripleBody q (withoutFirstLineEnd cs)
  if wellFormedLines cs then return (← bodyText? q cs, rest) else none

def anyQuoted (q : Char) : Reading String
  | a :: b :: c :: rest =>
      if a == q && b == q && c == q then tripleQuoted q rest
      else if a == q then quoted q (b :: c :: rest)
      else none
  | a :: rest => if a == q then quoted q rest else none
  | [] => none

end Storyline.Toml
