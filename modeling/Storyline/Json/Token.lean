import Storyline.Text.Numeral

/-! The words of a JSON text: marks, strings with their escapes unread, and bare words, which are
numbers and literals. Blanks separate words and are otherwise lost. -/

namespace Storyline.Json

open Text

inductive Token where
  | mark (c : Char)
  | string (body : List Char)
  | word (text : List Char)
deriving Repr, DecidableEq

/-- What the reader is inside of; texts under way are held backwards. -/
inductive Mode where
  | between
  | string (body : List Char)
  | escape (body : List Char)
  | word (text : List Char)
deriving Repr, DecidableEq

def isBlank (c : Char) : Bool := c == ' ' || c == '\n' || c == '\t' || c == '\r'

def isMark (c : Char) : Bool := "[]\x7b\x7d:,".toList.contains c

structure Lexer where
  mode : Mode := .between
  tokens : List Token := []
deriving Repr

namespace Lexer

/-- Starts something new at `c`, outside of strings. -/
def start (tokens : List Token) (c : Char) : Lexer :=
  if isBlank c then ⟨.between, tokens⟩
  else if isMark c then ⟨.between, .mark c :: tokens⟩
  else if c == '"' then ⟨.string [], tokens⟩
  else ⟨.word [c], tokens⟩

/-- One more character. A control character inside a string is refused. -/
def step (s : Lexer) (c : Char) : Option Lexer :=
  match s.mode with
  | .between => some (start s.tokens c)
  | .word text =>
      if isBlank c || isMark c || c == '"' then some (start (.word text.reverse :: s.tokens) c)
      else some ⟨.word (c :: text), s.tokens⟩
  | .string body =>
      if c == '"' then some ⟨.between, .string body.reverse :: s.tokens⟩
      else if c == '\\' then some ⟨.escape body, s.tokens⟩
      else if c.toNat < 32 then none
      else some ⟨.string (c :: body), s.tokens⟩
  | .escape body => if c.toNat < 32 then none else some ⟨.string (c :: '\\' :: body), s.tokens⟩

/-- The tokens in order; a string left open is refused. -/
def finish (s : Lexer) : Option (List Token) :=
  match s.mode with
  | .between => some s.tokens.reverse
  | .word text => some (.word text.reverse :: s.tokens).reverse
  | .string _ | .escape _ => none

end Lexer

def tokens (cs : List Char) : Option (List Token) := do
  (← cs.foldlM Lexer.step {}).finish

/-! Escapes -/

def hexDigit4 (a b c d : Char) : Option Nat := do
  return (((← hexDigit? a) * 16 + (← hexDigit? b)) * 16 + (← hexDigit? c)) * 16 + (← hexDigit? d)

/-- The character a one-letter escape stands for. -/
def shortEscape (c : Char) : Option Char :=
  match c with
  | '"' => some '"'
  | '\\' => some '\\'
  | '/' => some '/'
  | 'b' => some '\x08'
  | 'f' => some '\x0c'
  | 'n' => some '\n'
  | 'r' => some '\r'
  | 't' => some '\t'
  | _ => none

/-- Every escape is one of the known ones, with its four digits where it needs them. -/
def wellEscaped : List Char → Bool
  | '\\' :: 'u' :: a :: b :: c :: d :: rest => (hexDigit4 a b c d).isSome && wellEscaped rest
  | '\\' :: c :: rest => (shortEscape c).isSome && wellEscaped rest
  | ['\\'] => false
  | _ :: rest => wellEscaped rest
  | [] => true

def isHighSurrogate (n : Nat) : Bool := 0xD800 ≤ n && n ≤ 0xDBFF
def isLowSurrogate (n : Nat) : Bool := 0xDC00 ≤ n && n ≤ 0xDFFF

/-- Reads the escapes of a string's body. A surrogate must come in a pair of two escapes. -/
def unescape : List Char → Option (List Char)
  | '\\' :: 'u' :: a :: b :: c :: d :: rest => do
      let n ← hexDigit4 a b c d
      if isLowSurrogate n then none
      else if isHighSurrogate n then
        match rest with
        | '\\' :: 'u' :: a' :: b' :: c' :: d' :: rest' =>
            let m ← hexDigit4 a' b' c' d'
            if isLowSurrogate m then
              return Char.ofNat (0x10000 + (n - 0xD800) * 0x400 + (m - 0xDC00)) :: (← unescape rest')
            else none
        | _ => none
      else return Char.ofNat n :: (← unescape rest)
  | '\\' :: c :: rest => do return (← shortEscape c) :: (← unescape rest)
  | ['\\'] => none
  | c :: rest => do return c :: (← unescape rest)
  | [] => some []

end Storyline.Json
