/-! Written numbers: digits, characters given by their code, and decimal numbers with fraction and
exponent. -/

namespace Storyline.Text

def hexDigit? (c : Char) : Option Nat :=
  if c.isDigit then some (c.toNat - '0'.toNat)
  else if 'a' ≤ c && c ≤ 'f' then some (c.toNat - 'a'.toNat + 10)
  else if 'A' ≤ c && c ≤ 'F' then some (c.toNat - 'A'.toNat + 10)
  else none

/-- The character whose code is written with these digits; surrogates are no characters. -/
def hexChar? (ds : List Char) : Option Char := do
  let n ← ds.foldlM (fun n d => do return min (16 * n + (← hexDigit? d)) 0x110000) 0
  if ds.isEmpty || 0x10FFFF < n || (0xD800 ≤ n && n ≤ 0xDFFF) then none else some (Char.ofNat n)

def digits (cs : List Char) : Nat := cs.foldl (fun n c => 10 * n + (c.toNat - '0'.toNat)) 0

/-- The parts of a written number: sign, whole part, fraction and exponent, where there. -/
structure Numeral where
  negative : Bool
  whole : List Char
  fraction : Option (List Char)
  exponent : Option Int
deriving Repr, DecidableEq

def exponentOf (cs : List Char) : Option Int :=
  let (negative, ds) := match cs with
    | '-' :: ds => (true, ds)
    | '+' :: ds => (false, ds)
    | ds => (false, ds)
  if ds.isEmpty || !ds.all Char.isDigit then none
  else some (if negative then -(digits ds : Int) else digits ds)

/-- No sign but a minus, no leading zeros, and at least one digit in every part that is there. -/
def Numeral.ofText? (cs : List Char) : Option Numeral := do
  let (negative, cs) := match cs with
    | '-' :: cs => (true, cs)
    | cs => (false, cs)
  let whole := cs.takeWhile Char.isDigit
  let rest := cs.dropWhile Char.isDigit
  if whole.isEmpty || (whole.head? == some '0' && whole.length > 1) then none
  let (fraction, rest) ← match rest with
    | '.' :: rest =>
        let ds := rest.takeWhile Char.isDigit
        if ds.isEmpty then none else some (some ds, rest.dropWhile Char.isDigit)
    | rest => some (none, rest)
  match rest with
  | [] => some ⟨negative, whole, fraction, none⟩
  | e :: rest =>
      if e == 'e' || e == 'E' then do return ⟨negative, whole, fraction, some (← exponentOf rest)⟩
      else none

namespace Numeral

def int? (n : Numeral) : Option Int :=
  if n.fraction.isSome || n.exponent.isSome then none
  else some (if n.negative then -(digits n.whole : Int) else digits n.whole)

def significant (n : Numeral) : List Char := n.whole ++ n.fraction.getD []

/-- How many of the digits stand before the point, once the exponent has moved it. -/
def point (n : Numeral) : Int := n.whole.length + n.exponent.getD 0

/-- Too large for the nearest number with eleven bits of exponent and 53 of precision to exist. -/
def overflows (n : Numeral) : Bool :=
  let m := digits n.significant
  let shift : Int := n.point - n.significant.length
  let size : Int := (Nat.toDigits 10 m).length + shift
  if m == 0 || size < 300 then false
  else if size > 400 then true
  else
    let bound := Nat.pow 2 1024 - Nat.pow 2 970
    if shift ≥ 0 then m * Nat.pow 10 shift.toNat ≥ bound else m ≥ bound * Nat.pow 10 (-shift).toNat

end Numeral

end Storyline.Text
