import Storyline.Pattern.List
import Storyline.Pattern.Regex
import Storyline.Text.Numeral

/-! Reading the written form of a regular expression. The reader goes through the text once, with a
stack of the groups that are still open; sets in brackets are read as a whole. Sets that are named by a
property of Unicode are not known here. With its reader and its search, regular expressions are a dialect
for patterns. -/

namespace Storyline.Pattern

open Text

structure Flags where
  caseless : Bool := false
  multiLine : Bool := false
  dotAll : Bool := false
  lazy : Bool := false
  unicode : Bool := true
  anyLineEnd : Bool := false
  verbose : Bool := false
deriving Repr, DecidableEq

/-- A part of an expression with its depth of nesting; a flag setting matches nothing of its own. -/
structure Part where
  regex : Option Regex
  height : Nat := 0
deriving Repr

def maxHeight : Nat := 250

/-! Characters and escapes -/

inductive Escape where
  | literal (c : Char)
  | look (l : Look)
  | set (s : CharSet)

/-- Blanks and comments, which verbose expressions may hold. -/
def skipComment (inside : Bool) : List Char → List Char
  | [] => []
  | c :: rest =>
      if inside then skipComment (c != '\n') rest
      else if isBlank c then skipComment false rest
      else if c == '#' then skipComment true rest
      else c :: rest

def skip (f : Flags) (cs : List Char) : List Char := if f.verbose then skipComment false cs else cs

/-- A code in braces, or `size` digits. -/
def hexEscape (size : Nat) : List Char → Option (Escape × List Char)
  | '\x7b' :: rest => do
      let ds := rest.takeWhile (· != '\x7d')
      match rest.dropWhile (· != '\x7d') with
      | [] => none
      | _ :: rest => return (.literal (← hexChar? ds), rest)
  | cs => do
      if cs.length < size then none
      else return (.literal (← hexChar? (cs.take size)), cs.drop size)

/-- Outside of Unicode two digits are a byte, which must be ASCII. -/
def byteEscape (f : Flags) (cs : List Char) : Option (Escape × List Char) :=
  match cs, hexEscape 2 cs with
  | '\x7b' :: _, escaped => escaped
  | _, some (.literal c, rest) => if f.unicode || c.toNat < 0x80 then some (.literal c, rest) else none
  | _, escaped => escaped

def isMeta (c : Char) : Bool := "\\.+*?()|[]\x7b\x7d^$#&-~".toList.contains c

/-- Every ASCII character that is no letter, digit or angle bracket stands for itself. -/
def isEscapable (c : Char) : Bool :=
  isMeta c || (c.toNat < 0x80 && !c.isAlphanum && c != '<' && c != '>')

def wordLook? (unicode : Bool) (name : String) : Option Look :=
  match name with
  | "start" => some (.wordStart unicode)
  | "end" => some (.wordEnd unicode)
  | "start-half" => some (.notAfterWord unicode)
  | "end-half" => some (.notBeforeWord unicode)
  | _ => none

/-- What follows the `b` of a word boundary: a kind in braces, unless the braces hold a count. -/
def boundary (unicode : Bool) (cs : List Char) : Option (Escape × List Char) :=
  let isName (c : Char) : Bool := c.isAlpha || c == '-'
  match cs with
  | '\x7b' :: rest =>
      match rest with
      | [] => none
      | c :: _ =>
          if isName c then
            match rest.dropWhile isName with
            | '\x7d' :: after => do
                return (.look (← wordLook? unicode (String.ofList (rest.takeWhile isName))), after)
            | _ => none
          else some (.look (.wordBoundary unicode), cs)
  | cs => some (.look (.wordBoundary unicode), cs)

def namedSet (f : Flags) (unicode ascii : CharSet) : CharSet := if f.unicode then unicode else ascii

/-- Outside of Unicode a set may not be taken against all characters. -/
def complement? (f : Flags) (s : CharSet) : Option CharSet := if f.unicode then some (.compl s) else none

def escape (f : Flags) : List Char → Option (Escape × List Char)
  | [] => none
  | c :: rest =>
      let digits := namedSet f .digit (.ranges [(0x30, 0x39)])
      let blanks := namedSet f .blank (.ranges [(0x9, 0xD), (0x20, 0x20)])
      let words := namedSet f .word (.ranges [(0x30, 0x39), (0x41, 0x5A), (0x5F, 0x5F), (0x61, 0x7A)])
      match c with
      | 'x' => byteEscape f rest
      | 'u' => hexEscape 4 rest
      | 'U' => hexEscape 8 rest
      | 'd' => some (.set digits, rest)
      | 's' => some (.set blanks, rest)
      | 'w' => some (.set words, rest)
      | 'D' => (complement? f digits).map fun s => (.set s, rest)
      | 'S' => (complement? f blanks).map fun s => (.set s, rest)
      | 'W' => (complement? f words).map fun s => (.set s, rest)
      | 'a' => some (.literal '\x07', rest)
      | 'f' => some (.literal '\x0c', rest)
      | 't' => some (.literal '\t', rest)
      | 'n' => some (.literal '\n', rest)
      | 'r' => some (.literal '\r', rest)
      | 'v' => some (.literal '\x0b', rest)
      | 'A' => some (.look .textStart, rest)
      | 'z' => some (.look .textEnd, rest)
      | 'b' => boundary f.unicode rest
      | 'B' => some (.look (.notWordBoundary f.unicode), rest)
      | '<' => some (.look (.wordStart f.unicode), rest)
      | '>' => some (.look (.wordEnd f.unicode), rest)
      | c => if isEscapable c then some (.literal c, rest) else none

/-! Sets in brackets -/

inductive SetOp where
  | inter | diff | symDiff
deriving Repr, DecidableEq

/-- An open bracket: what is united so far, and the operation that waits for it. -/
structure Bracket where
  negated : Bool
  pending : Option (SetOp × CharSet) := none
  items : List CharSet := []
  height : Nat := 0

namespace Bracket

def add (b : Bracket) (s : CharSet) (height : Nat) : Bracket :=
  { b with items := b.items ++ [s], height := max b.height height }

def folded (f : Flags) (s : CharSet) : CharSet := if f.caseless then .anyCase s else s

def value (f : Flags) (b : Bracket) : CharSet :=
  let s := CharSet.unionAll b.items
  match b.pending with
  | none => s
  | some (.inter, l) => .inter (folded f l) (folded f s)
  | some (.diff, l) => .diff (folded f l) (folded f s)
  | some (.symDiff, l) => .symDiff (folded f l) (folded f s)

def depth (b : Bracket) : Nat :=
  b.height + (if b.items.length < 2 then 0 else 1) + if b.pending.isSome then 1 else 0

def operate (f : Flags) (b : Bracket) (op : SetOp) : Bracket :=
  { b with pending := some (op, b.value f), items := [], height := b.depth }

def close? (f : Flags) (b : Bracket) : Option (CharSet × Nat) :=
  let s := folded f (b.value f)
  let height := b.depth + 1
  if b.negated then (complement? f s).map fun s => (s, height) else some (s, height)

/-- Leading dashes stand for themselves, and so does a bracket that comes first. -/
def start (f : Flags) (cs : List Char) : Bracket × List Char :=
  let cs := skip f cs
  let (negated, cs) := match cs with
    | '^' :: rest => (true, skip f rest)
    | cs => (false, cs)
  let dashes := cs.takeWhile (· == '-')
  let rest := skip f (cs.dropWhile (· == '-'))
  let items := dashes.map CharSet.char
  match items, rest with
  | [], ']' :: rest => (⟨negated, none, [.char ']'], 0⟩, rest)
  | items, rest => (⟨negated, none, items, 0⟩, rest)

end Bracket

def asciiSet? (f : Flags) (cs : List Char) : Option (CharSet × List Char) :=
  match cs with
  | ':' :: rest =>
      let (negated, rest) := match rest with
        | '^' :: rest => (true, rest)
        | rest => (false, rest)
      match rest.dropWhile (· != ':') with
      | ':' :: ']' :: after => do
          let s ← CharSet.ofAsciiName? (String.ofList (rest.takeWhile (· != ':')))
          let s := Bracket.folded f s
          return (if negated then .compl s else s, after)
      | _ => none
  | _ => none

def setItem (f : Flags) : List Char → Option (Escape × List Char)
  | [] => none
  | '\\' :: rest => escape f rest
  | c :: rest => some (.literal c, rest)

def ofItem : Escape → Option CharSet
  | .literal c => some (.char c)
  | .set s => some s
  | .look _ => none

def setRange (f : Flags) (cs : List Char) : Option (CharSet × List Char) := do
  let (first, rest) ← setItem f cs
  let rest := skip f rest
  match rest with
  | [] => none
  | '-' :: after =>
      match skip f after with
      | ']' :: _ | '-' :: _ => return (← ofItem first, rest)
      | after =>
          let (last, rest) ← setItem f after
          match first, last with
          | .literal a, .literal b =>
              if a.toNat ≤ b.toNat then some (.ranges [(a.toNat, b.toNat)], rest) else none
          | _, _ => none
  | rest => return (← ofItem first, rest)

/-- Reads on in the innermost of the open brackets; `outer` holds the others. -/
def bracketSet (f : Flags) : Nat → List Bracket → Bracket → List Char →
    Option (CharSet × Nat × List Char)
  | 0, _, _, _ => none
  | fuel + 1, outer, b, cs =>
      match skip f cs with
      | [] => none
      | '[' :: rest =>
          match asciiSet? f rest with
          | some (s, rest) => bracketSet f fuel outer (b.add s 0) rest
          | none =>
              let (inner, rest) := Bracket.start f rest
              bracketSet f fuel (b :: outer) inner rest
      | ']' :: rest => do
          let (s, height) ← b.close? f
          match outer with
          | [] => return (s, height, rest)
          | b :: outer => bracketSet f fuel outer (b.add s height) rest
      | '&' :: '&' :: rest => bracketSet f fuel outer (b.operate f .inter) rest
      | '-' :: '-' :: rest => bracketSet f fuel outer (b.operate f .diff) rest
      | '~' :: '~' :: rest => bracketSet f fuel outer (b.operate f .symDiff) rest
      | cs => do
          let (s, rest) ← setRange f cs
          bracketSet f fuel outer (b.add s 0) rest

/-! Groups and repetitions -/

/-- What is put aside while a group is read. -/
structure Open where
  branches : List Part
  parts : List Part
  flags : Flags

structure Reading where
  flags : Flags := {}
  branches : List Part := []
  parts : List Part := []
  stack : List Open := []
  names : List String := []

def Part.expression (p : Part) : Regex := p.regex.getD .empty

def Part.sequence (parts : List Part) : Part :=
  match parts with
  | [] => ⟨some .empty, 0⟩
  | [p] => ⟨some p.expression, p.height⟩
  | p :: rest =>
      ⟨some ((p :: rest).foldr (fun q r => q.expression.andThen r) .empty),
        (p :: rest).foldl (fun h q => max h q.height) 0 + 1⟩

def Part.choice (parts : List Part) : Part :=
  match parts with
  | [] => ⟨some .empty, 0⟩
  | [p] => p
  | p :: rest =>
      ⟨some (rest.foldl (fun r q => .alt r q.expression) p.expression),
        (p :: rest).foldl (fun h q => max h q.height) 0 + 1⟩

namespace Reading

def add (s : Reading) (r : Regex) (height : Nat) : Reading :=
  { s with parts := s.parts ++ [⟨some r, height⟩] }

def content (s : Reading) : Part := .choice (s.branches ++ [.sequence s.parts])

def openGroup (s : Reading) (flags : Flags) : Reading :=
  { s with stack := ⟨s.branches, s.parts, s.flags⟩ :: s.stack, branches := [], parts := [], flags }

def closeGroup? (s : Reading) : Option Reading :=
  match s.stack with
  | [] => none
  | o :: stack =>
      let p := s.content
      some { s with stack, branches := o.branches, flags := o.flags,
                    parts := o.parts ++ [⟨some p.expression, p.height + 1⟩] }

def branch (s : Reading) : Reading :=
  { s with branches := s.branches ++ [.sequence s.parts], parts := [] }

/-- Repeats the last part; there must be one, and not a flag setting. -/
def repeat? (s : Reading) (f : Regex → Regex) : Option Reading :=
  match s.parts.getLast? with
  | some ⟨some r, height⟩ => some { s with parts := s.parts.dropLast ++ [⟨some (f r), height + 1⟩] }
  | _ => none

def literal (f : Flags) (c : Char) : Regex :=
  .set (if f.caseless then .anyCase (.char c) else .char c)

def escaped (s : Reading) : Escape → Reading
  | .literal c => s.add (literal s.flags c) 0
  | .look l => s.add (.look l) 0
  | .set t => s.add (.set t) 0

def dot? (f : Flags) : Option Regex :=
  if !f.unicode then none
  else if f.dotAll then some (.set .any)
  else if f.anyLineEnd then some (.set (.compl (.ranges [(0xA, 0xA), (0xD, 0xD)])))
  else some (.set (.compl (.char '\n')))

def caret (f : Flags) : Look :=
  if !f.multiLine then .textStart else if f.anyLineEnd then .anyLineStart else .lineStart

def dollar (f : Flags) : Look :=
  if !f.multiLine then .textEnd else if f.anyLineEnd then .anyLineEnd else .lineEnd

end Reading

def setFlag? (f : Flags) (on : Bool) : Char → Option Flags
  | 'i' => some { f with caseless := on }
  | 'm' => some { f with multiLine := on }
  | 's' => some { f with dotAll := on }
  | 'U' => some { f with lazy := on }
  | 'u' => some { f with unicode := on }
  | 'R' => some { f with anyLineEnd := on }
  | 'x' => some { f with verbose := on }
  | _ => none

/-- Flags up to a colon or a closing bracket, which is given back. No flag may come twice, and the
dash that turns flags off must be followed by one. -/
def readFlags (f : Flags) (seen : List Char) : List Char → Option (Flags × Char × List Char × Bool)
  | [] => none
  | c :: rest =>
      if c == ':' || c == ')' then
        if seen.head? == some '-' then none else some (f, c, rest, seen.isEmpty)
      else if seen.contains c then none
      else if c == '-' then readFlags f (c :: seen) rest
      else do readFlags (← setFlag? f (!seen.contains '-') c) (c :: seen) rest

def isNameChar (first : Bool) (c : Char) : Bool :=
  c == '_' || c.isAlpha || (0x7F < c.toNat && isWord c)
    || (!first && (c.isDigit || c == '.' || c == '[' || c == ']'))

def groupName? (cs : List Char) : Option (String × List Char) :=
  let name := cs.takeWhile (· != '>')
  match name, cs.dropWhile (· != '>') with
  | first :: more, _ :: rest =>
      if isNameChar true first && more.all (isNameChar false) then some (String.ofList name, rest)
      else none
  | _, _ => none

def namedGroup (s : Reading) (cs : List Char) : Option (Reading × List Char) := do
  let (name, rest) ← groupName? cs
  if s.names.contains name then none
  else return ({ s.openGroup s.flags with names := name :: s.names }, rest)

/-- What follows an opening bracket. Conditions on what is around a match are not supported. -/
def group (s : Reading) (cs : List Char) : Option (Reading × List Char) :=
  match skip s.flags cs with
  | '?' :: '=' :: _ | '?' :: '!' :: _ | '?' :: '<' :: '=' :: _ | '?' :: '<' :: '!' :: _ => none
  | '?' :: 'P' :: '<' :: rest => namedGroup s rest
  | '?' :: '<' :: rest => namedGroup s rest
  | '?' :: rest => do
      let (flags, ending, rest, isEmpty) ← readFlags s.flags [] rest
      if ending == ')' then
        if isEmpty then none
        else return ({ s with flags, parts := s.parts ++ [⟨none, 0⟩] }, rest)
      else return (s.openGroup flags, rest)
  | rest => some (s.openGroup s.flags, rest)

/-- A number that fits 32 bits, with blanks around it. -/
def count (cs : List Char) : Option Nat × List Char :=
  let cs := cs.dropWhile isBlank
  let ds := cs.takeWhile (·.isDigit)
  let rest := (cs.dropWhile (·.isDigit)).dropWhile isBlank
  let n := ds.foldl (fun n d => 10 * n + (d.toNat - '0'.toNat)) 0
  (if ds.isEmpty || 0xFFFFFFFF < n then none else some n, rest)

def repetition? (cs : List Char) : Option ((Regex → Regex) × List Char) := do
  let (least, rest) := count cs
  let least ← least
  match rest with
  | '\x7d' :: rest => some ((·.repeated least least), rest)
  | ',' :: rest =>
      match rest.dropWhile isBlank with
      | '\x7d' :: rest =>
          some (fun r => if least == 0 then .star r else .seq (r.repeated least least) (.star r), rest)
      | rest =>
          let (most, rest) := count rest
          let most ← most
          match rest with
          | '\x7d' :: rest => if least ≤ most then some ((·.repeated least most), rest) else none
          | _ => none
  | _ => none

/-- A question mark after a repetition changes which match is found, not whether there is one. -/
def dropLazy : List Char → List Char
  | '?' :: rest => rest
  | cs => cs

/-- Reads one part, bracket or mark. -/
def Reading.step (s : Reading) (c : Char) (rest : List Char) : Option (Reading × List Char) :=
  match c with
  | '(' => group s rest
  | ')' => (s.closeGroup?).map fun s => (s, rest)
  | '|' => some (s.branch, rest)
  | '[' => do
      let (b, rest) := Bracket.start s.flags rest
      let (t, height, rest) ← bracketSet s.flags (rest.length + 1) [] b rest
      return (s.add (.set t) height, rest)
  | '?' => (s.repeat? (·.repeated 0 1)).map fun s => (s, dropLazy rest)
  | '*' => (s.repeat? .star).map fun s => (s, dropLazy rest)
  | '+' => (s.repeat? fun r => .seq r (.star r)).map fun s => (s, dropLazy rest)
  | '\x7b' => do
      let (f, rest) ← repetition? rest
      return (← s.repeat? f, dropLazy rest)
  | '\\' => (escape s.flags rest).map fun (e, rest) => (s.escaped e, rest)
  | '.' => (Reading.dot? s.flags).map fun r => (s.add r 0, rest)
  | '^' => some (s.add (.look (Reading.caret s.flags)) 0, rest)
  | '$' => some (s.add (.look (Reading.dollar s.flags)) 0, rest)
  | c => some (s.add (Reading.literal s.flags c) 0, rest)

def Reading.run (s : Reading) : Nat → List Char → Option Reading
  | 0, _ => none
  | fuel + 1, cs =>
      match skip s.flags cs with
      | [] => some s
      | c :: rest =>
          match s.step c rest with
          | none => none
          | some (s, rest) => s.run fuel rest

/-- The expression a text writes, unless it is malformed or too large. -/
def Regex.ofText? (text : String) : Option Regex := do
  let cs := text.toList
  let s ← Reading.run {} (cs.length + 1) cs
  let p := s.content
  if !s.stack.isEmpty || maxHeight < p.height || Regex.maxWeight < p.expression.weight then none
  else some p.expression

def unreadable : String := "the expression is malformed or too large"

/-- The dialect of regular expressions. -/
instance : Dialect where
  Expression := Regex
  read text := (Regex.ofText? text).elim (.error unreadable) .ok
  isMatch := Regex.isMatch

end Storyline.Pattern
