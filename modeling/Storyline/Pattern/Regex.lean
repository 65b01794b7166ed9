import Storyline.Pattern.CharSet

/-! Regular expressions and the search for them in a text. The search reads the text once and carries
the expressions that are still to be matched: those left of a match begun earlier, and the whole
expression anew at every place. -/

namespace Storyline.Pattern

open Text

/-- Conditions on a place between two characters. -/
inductive Look where
  | textStart
  | textEnd
  | lineStart
  | lineEnd
  /-- Lines may end in a carriage return and a line feed. -/
  | anyLineStart
  | anyLineEnd
  | wordBoundary (unicode : Bool)
  | notWordBoundary (unicode : Bool)
  | wordStart (unicode : Bool)
  | wordEnd (unicode : Bool)
  | notAfterWord (unicode : Bool)
  | notBeforeWord (unicode : Bool)
deriving Repr, DecidableEq

structure Place where
  before : Option Char
  after : Option Char
deriving Repr

def wordIn (unicode : Bool) (c : Option Char) : Bool :=
  c.any fun c => if unicode then isWord c else isAsciiWord c

namespace Look

def holds (p : Place) : Look → Bool
  | .textStart => p.before.isNone
  | .textEnd => p.after.isNone
  | .lineStart => p.before.all (· == '\n')
  | .lineEnd => p.after.all (· == '\n')
  | .anyLineStart => p.before.all fun c => c == '\n' || (c == '\r' && p.after != some '\n')
  | .anyLineEnd => p.after.all fun c => c == '\r' || (c == '\n' && p.before != some '\r')
  | .wordBoundary u => wordIn u p.before != wordIn u p.after
  | .notWordBoundary u => wordIn u p.before == wordIn u p.after
  | .wordStart u => !wordIn u p.before && wordIn u p.after
  | .wordEnd u => wordIn u p.before && !wordIn u p.after
  | .notAfterWord u => !wordIn u p.before
  | .notBeforeWord u => !wordIn u p.after

end Look

inductive Regex where
  | empty
  | look (l : Look)
  | set (s : CharSet)
  | seq (a b : Regex)
  | alt (a b : Regex)
  | star (a : Regex)
  /-- At least `least` and at most `most` times. -/
  | times (a : Regex) (least most : Nat)
deriving Repr, DecidableEq, Inhabited

namespace Regex

def andThen (a b : Regex) : Regex :=
  match a with
  | .empty => b
  | a => .seq a b

/-- Matches without a character at this place. -/
def nullable (p : Place) : Regex → Bool
  | .empty => true
  | .look l => l.holds p
  | .set _ => false
  | .seq a b => a.nullable p && b.nullable p
  | .alt a b => a.nullable p || b.nullable p
  | .star _ => true
  | .times a least _ => least == 0 || a.nullable p

def alwaysNullable : Regex → Bool
  | .empty => true
  | .look _ => false
  | .set _ => false
  | .seq a b => a.alwaysNullable && b.alwaysNullable
  | .alt a b => a.alwaysNullable || b.alwaysNullable
  | .star _ => true
  | .times a least _ => least == 0 || a.alwaysNullable

def takesNothing : Regex → Bool
  | .empty => true
  | .look _ => true
  | .set _ => false
  | .seq a b => a.takesNothing && b.takesNothing
  | .alt a b => a.takesNothing && b.takesNothing
  | .star a => a.takesNothing
  | .times a _ most => most == 0 || a.takesNothing

/-- A bounded repetition; of what takes nothing once is enough. -/
def repeated (a : Regex) (least most : Nat) : Regex :=
  if a.takesNothing then .times a (min least 1) (min most 1) else .times a least most

/-- How many rounds of a repetition may be spent on nothing, and how many must still follow the round
that takes a character. If every round may be empty, none has to be spent. -/
def rounds (p : Place) (a : Regex) (least most : Nat) : List (Nat × Nat) :=
  if a.alwaysNullable then [(0, most - 1)]
  else if a.nullable p then (List.range most).map fun spent => (least - 1 - spent, most - 1 - spent)
  else [(least - 1, most - 1)]

/-- What is left to match after `c`, the character after `p`; one expression for each
way to begin. -/
def advance (p : Place) (c : Char) : Regex → List Regex
  | .empty => []
  | .look _ => []
  | .set s => if s.contains c.toNat then [.empty] else []
  | .seq a b => (a.advance p c).map (·.andThen b) ++ if a.nullable p then b.advance p c else []
  | .alt a b => a.advance p c ++ b.advance p c
  | .star a => (a.advance p c).map (·.andThen (.star a))
  | .times a least most =>
      if most == 0 then []
      else (rounds p a least most).flatMap fun (least, most) =>
        (a.advance p c).map (·.andThen (.times a least most))

/-- Searches on from a place, with what is left of the matches begun before it. -/
def searchFrom (r : Regex) (before : Option Char) (begun : List Regex) : List Char → Bool
  | [] => (begun.insert r).any (nullable ⟨before, none⟩)
  | c :: rest =>
      let p : Place := ⟨before, some c⟩
      let here := begun.insert r
      here.any (nullable p) ||
        r.searchFrom (some c) ((here.flatMap (advance p c)).eraseDups) rest

/-- Does some part of the text match? -/
def isMatch (r : Regex) (text : String) : Bool := r.searchFrom none [] text.toList

def weight : Regex → Nat
  | .empty => 1
  | .look _ => 1
  | .set s => s.weight
  | .seq a b => a.weight + b.weight
  | .alt a b => a.weight + b.weight + 1
  | .star a => a.weight + 2
  | .times a _ most => most * (a.weight + 1) + 1

def maxWeight : Nat := 327680

end Regex

end Storyline.Pattern
