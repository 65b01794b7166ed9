import Storyline.Text.Numeral
import Storyline.Text.Reading

/-! The scalars of TOML. Floats and dates are kept as texts in one normal form, so that equal values
have equal texts. -/

namespace Storyline.Toml

open Text

inductive Scalar where
  | string (s : String)
  | integer (n : Int)
  | float (written : String)
  | boolean (b : Bool)
  | datetime (written : String)
deriving Repr, DecidableEq

/-- The scalar as a setting takes it: without quotes, and numbers in base ten. -/
def Scalar.text : Scalar → String
  | .string s => s
  | .integer n => toString n
  | .float written => written
  | .boolean b => if b then "true" else "false"
  | .datetime written => written

/-! Numbers -/

/-- The text without its underscores, each of which must stand between two digits. `after` says
whether a digit came before. -/
def ungroup (isDigit : Char → Bool) (after : Bool) : List Char → Option (List Char)
  | [] => some []
  | '_' :: c :: rest =>
      if after && isDigit c then (ungroup isDigit true rest).map (c :: ·) else none
  | c :: rest => if c == '_' then none else (ungroup isDigit (isDigit c) rest).map (c :: ·)

def digitsIn (base : Nat) (cs : List Char) : Option Nat := do
  let digit? (c : Char) : Option Nat := (hexDigit? c).filter (· < base)
  match ← ungroup (fun c => (digit? c).isSome) false cs with
  | [] => none
  | ds => ds.foldlM (fun n c => do return base * n + (← digit? c)) 0

/-- No number this small differs from zero. -/
def leastPoint : Int := -400

/-- The number written out in digits and a point, without needless zeros. -/
def positional (n : Numeral) : String :=
  let (whole, fraction) :=
    if n.point < leastPoint then ([], [])
    else
      let ds := List.replicate (-n.point).toNat '0' ++ n.significant
      let place := n.point.toNat
      (ds.take place ++ List.replicate (place - ds.length) '0', ds.drop place)
  let whole := whole.dropWhile (· == '0')
  let fraction := (fraction.reverse.dropWhile (· == '0')).reverse
  String.ofList ((if n.negative then ['-'] else []) ++ (if whole.isEmpty then ['0'] else whole)
    ++ (if fraction.isEmpty then [] else '.' :: fraction))

def decimal? (cs : List Char) : Option Scalar := do
  let n ← match ← ungroup Char.isDigit false cs with
    | '+' :: '-' :: _ => none
    | '+' :: cs => Numeral.ofText? cs
    | cs => Numeral.ofText? cs
  match n.int? with
  | some m => return .integer m
  | none => if n.overflows then none else return .float (positional n)

/-- Infinity and the values that are no number, with any sign. -/
def special? (cs : List Char) : Option Scalar :=
  let (sign, name) := match cs with
    | '-' :: name => ("-", name)
    | '+' :: name => ("", name)
    | name => ("", name)
  if name == "inf".toList then some (.float (sign ++ "inf"))
  else if name == "nan".toList then some (.float "NaN")
  else none

def number? : List Char → Option Scalar
  | '0' :: 'x' :: cs => (digitsIn 16 cs).map fun n => .integer n
  | '0' :: 'o' :: cs => (digitsIn 8 cs).map fun n => .integer n
  | '0' :: 'b' :: cs => (digitsIn 2 cs).map fun n => .integer n
  | cs => (special? cs).or (decimal? cs)

/-! Dates and times -/

def twoDigits (n : Nat) : List Char := [Nat.digitChar (n / 10), Nat.digitChar (n % 10)]

def two (lo hi : Nat) : Reading Nat := do
  let n := digits (← Reading.exactly Char.isDigit 2)
  if lo ≤ n && n ≤ hi then return n else failure

def isLeap (year : Nat) : Bool := year % 4 == 0 && (year % 100 != 0 || year % 400 == 0)

def daysIn (year month : Nat) : Nat :=
  if month == 2 then if isLeap year then 29 else 28
  else if [4, 6, 9, 11].contains month then 30
  else 31

def date : Reading (List Char) := do
  let year ← Reading.exactly Char.isDigit 4
  Reading.mark '-'
  let month ← two 1 12
  Reading.mark '-'
  let day ← two 1 (daysIn (digits year) month)
  return year ++ '-' :: twoDigits month ++ '-' :: twoDigits day

/-- A fraction of a second: nine digits count, and zeros at the end are not written. -/
def fraction : Reading (List Char) := do
  if ← Reading.mark? '.' then
    let ds := (← Reading.run1 Char.isDigit).take 9
    let kept := (ds.reverse.dropWhile (· == '0')).reverse
    return '.' :: if kept.isEmpty then ['0'] else kept
  else return []

/-- Hours and minutes, and seconds where they are given; a minute may have a leap second. -/
def time : Reading (List Char) := do
  let hour ← two 0 23
  Reading.mark ':'
  let minute ← two 0 59
  let seconds ← do
    if ← Reading.mark? ':' then
      let second ← two 0 60
      pure (':' :: twoDigits second ++ (← fraction))
    else pure []
  return twoDigits hour ++ ':' :: twoDigits minute ++ seconds

/-- The distance from universal time, of at most a day. -/
def offset : Reading (List Char) := do
  match ← Reading.peek with
  | none => return []
  | some c =>
      if (← Reading.mark? 'Z') || (← Reading.mark? 'z') then return ['Z']
      let _ ← Reading.exactly (fun c => c == '+' || c == '-') 1
      let hours := digits (← Reading.exactly Char.isDigit 2)
      Reading.mark ':'
      let minutes := 60 * hours + digits (← Reading.exactly Char.isDigit 2)
      if 24 * 60 < minutes then failure
      let sign := if minutes == 0 then '+' else c
      return sign :: twoDigits (minutes / 60) ++ ':' :: twoDigits (minutes % 60)

/-- A date, a time, or both with what says how far from universal time they are. -/
def moment : Reading Scalar := fun cs =>
  match time cs with
  | some (t, rest) => some (.datetime (String.ofList t), rest)
  | none => do
      let (d, rest) ← date cs
      match rest with
      | [] => return (.datetime (String.ofList d), [])
      | c :: rest =>
          if c != 'T' && c != 't' && c != ' ' then none
          let (t, rest) ← time rest
          let (o, rest) ← offset rest
          return (.datetime (String.ofList (d ++ 'T' :: t ++ o)), rest)

/-! Unquoted words -/

def Scalar.ofWord? (cs : List Char) : Option Scalar :=
  if cs == "true".toList then some (.boolean true)
  else if cs == "false".toList then some (.boolean false)
  else (Reading.whole? moment cs).or (number? cs)

def isWordChar (c : Char) : Bool := c.isAlphanum || "+-.:_".toList.contains c

/-- An unquoted scalar. One blank may stand between a date and the time of day that follows it. -/
def word : Reading Scalar := do
  let first ← Reading.run isWordChar
  let isDate := (Reading.whole? date first).isSome
  let cs ← fun cs =>
    match cs with
    | ' ' :: c :: rest =>
        if isDate && c.isDigit then (Reading.run isWordChar (c :: rest)).map fun (cs, r) => (' ' :: cs, r)
        else some ([], cs)
    | cs => some ([], cs)
  match Scalar.ofWord? (first ++ cs) with
  | some s => return s
  | none => failure

end Storyline.Toml
