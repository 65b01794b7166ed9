import Storyline.Text.CaseFold
import Storyline.Text.Digit
import Storyline.Text.Word

/-! Sets of characters as patterns describe them, with characters given by their codes. -/

namespace Storyline.Pattern

open Text

inductive CharSet where
  | ranges (rs : List (Nat × Nat))
  | digit
  | blank
  | word
  | union (a b : CharSet)
  | inter (a b : CharSet)
  | diff (a b : CharSet)
  | symDiff (a b : CharSet)
  | compl (a : CharSet)
  /-- Every character one of whose cases is in the set. -/
  | anyCase (a : CharSet)
deriving Repr, DecidableEq, Inhabited

namespace CharSet

def none : CharSet := .ranges []
def any : CharSet := .ranges [(0, 0x10FFFF)]
def char (c : Char) : CharSet := .ranges [(c.toNat, c.toNat)]

def contains : CharSet → Nat → Bool
  | .ranges rs, n => inRanges rs n
  | .digit, n => inRanges digitRanges n
  | .blank, n => inRanges blankRanges n
  | .word, n => isWord (Char.ofNat n)
  | .union a b, n => a.contains n || b.contains n
  | .inter a b, n => a.contains n && b.contains n
  | .diff a b, n => a.contains n && !b.contains n
  | .symDiff a b, n => a.contains n != b.contains n
  | .compl a, n => !a.contains n
  | .anyCase a, n => a.contains n || (cases (Char.ofNat n)).any fun m => a.contains m

def unionAll (sets : List CharSet) : CharSet :=
  match sets with
  | [] => none
  | a :: rest => rest.foldl .union a

/-- About how many states a machine over bytes needs for one character of the set. -/
def weight : CharSet → Nat
  | .ranges rs => if rs.all (fun (_, hi) => hi < 0x80) then 1 else 4
  | .digit => 80
  | .blank => 12
  | .word => 640
  | .union a b | .inter a b | .diff a b | .symDiff a b => max a.weight b.weight
  | .compl a => a.weight + 8
  | .anyCase a => a.weight

/-- The named sets of ASCII characters. -/
def ofAsciiName? (name : String) : Option CharSet :=
  let rs : Option (List (Nat × Nat)) := match name with
    | "alnum" => some [(0x30, 0x39), (0x41, 0x5A), (0x61, 0x7A)]
    | "alpha" => some [(0x41, 0x5A), (0x61, 0x7A)]
    | "ascii" => some [(0x0, 0x7F)]
    | "blank" => some [(0x9, 0x9), (0x20, 0x20)]
    | "cntrl" => some [(0x0, 0x1F), (0x7F, 0x7F)]
    | "digit" => some [(0x30, 0x39)]
    | "graph" => some [(0x21, 0x7E)]
    | "lower" => some [(0x61, 0x7A)]
    | "print" => some [(0x20, 0x7E)]
    | "punct" => some [(0x21, 0x2F), (0x3A, 0x40), (0x5B, 0x60), (0x7B, 0x7E)]
    | "space" => some [(0x9, 0xD), (0x20, 0x20)]
    | "upper" => some [(0x41, 0x5A)]
    | "word" => some [(0x30, 0x39), (0x41, 0x5A), (0x5F, 0x5F), (0x61, 0x7A)]
    | "xdigit" => some [(0x30, 0x39), (0x41, 0x46), (0x61, 0x66)]
    | _ => Option.none
  rs.map .ranges

end CharSet

end Storyline.Pattern
