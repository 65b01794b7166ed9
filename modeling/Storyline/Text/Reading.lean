/-! Readers of text: each takes characters from the front and gives what it read, or refuses. -/

namespace Storyline.Text

abbrev Reading := StateT (List Char) Option

variable {β : Type}

namespace Reading

def peek : Reading (Option Char) := fun cs => some (cs.head?, cs)

def mark (c : Char) : Reading Unit
  | [] => none
  | d :: rest => if d == c then some ((), rest) else none

def mark? (c : Char) : Reading Bool
  | [] => some (false, [])
  | d :: rest => if d == c then some (true, rest) else some (false, d :: rest)

/-- Takes the longest run of such characters, which may be empty. -/
def run (p : Char → Bool) : Reading (List Char) := fun cs => some (cs.takeWhile p, cs.dropWhile p)

def run1 (p : Char → Bool) : Reading (List Char) := do
  let cs ← run p
  if cs.isEmpty then failure else return cs

def exactly (p : Char → Bool) (n : Nat) : Reading (List Char) := fun cs =>
  let taken := cs.take n
  if taken.length == n && taken.all p then some (taken, cs.drop n) else none

def whole? (r : Reading β) (cs : List Char) : Option β :=
  match r cs with
  | some (x, []) => some x
  | _ => none

end Reading

/-- A mark of the byte order may come before the text and is not part of it. -/
def withoutByteOrderMark : List Char → List Char
  | '\uFEFF' :: rest => rest
  | cs => cs

end Storyline.Text
