import Storyline.Toml.Scalar

/-! The tree a TOML document describes. A table is made either all at once, by a header, by dotted keys
or in passing by the header of a table below it, and this decides what may still be added to it. -/

namespace Storyline

inductive Toml.Origin where
  /-- Written between braces: complete. -/
  | braces
  | header
  | dotted
  /-- On the way to another table. -/
  | passing
deriving Repr, DecidableEq

inductive Toml where
  | scalar (s : Toml.Scalar)
  | array (items : List Toml)
  | table (origin : Toml.Origin) (entries : List (String × Toml))
  /-- Tables under headers in double brackets. -/
  | tables (elements : List (List (String × Toml)))
deriving Repr

namespace Toml

abbrev Entries := List (String × Toml)

namespace Entries

def replace (key : String) (value : Toml) (es : Entries) : Entries :=
  es.map fun (k, v) => if k == key then (k, value) else (k, v)

/-- Sets a value under dotted keys. Only tables made by dotted keys take it, and no key is set twice. -/
def set (value : Toml) : List String → Entries → Option Entries
  | [], _ => none
  | [key], es => if (es.lookup key).isSome then none else some (es ++ [(key, value)])
  | key :: next :: path, es =>
      match es.lookup key with
      | none => do return es ++ [(key, .table .dotted (← set value (next :: path) []))]
      | some (.table .dotted sub) => do
          return es.replace key (.table .dotted (← set value (next :: path) sub))
      | some (.table .passing sub) =>
          if path.isEmpty then none
          else do return es.replace key (.table .passing (← set value (next :: path) sub))
      | some _ => none

/-- Changes the table under a path of headers; of tables in double brackets it is the last. What is
missing on the way is made. -/
def within (change : Entries → Option Entries) : List String → Entries → Option Entries
  | [], es => change es
  | key :: path, es =>
      match es.lookup key with
      | none => do return es ++ [(key, .table .passing (← within change path []))]
      | some (.table .braces _) => none
      | some (.table origin sub) => do return es.replace key (.table origin (← within change path sub))
      | some (.tables elements) =>
          match elements.getLast? with
          | some last => do
              return es.replace key (.tables (elements.dropLast ++ [← within change path last]))
          | none => none
      | some _ => none

/-- Opens a table by its header. One made in passing may still get its own header. -/
def openTable (key : String) (es : Entries) : Option Entries :=
  match es.lookup key with
  | none => some (es ++ [(key, .table .header [])])
  | some (.table .passing sub) => some (es.replace key (.table .header sub))
  | some _ => none

def openElement (key : String) (es : Entries) : Option Entries :=
  match es.lookup key with
  | none => some (es ++ [(key, .tables [[]])])
  | some (.tables elements) => some (es.replace key (.tables (elements ++ [[]])))
  | some _ => none

end Entries

/-- A line of a document. A path has at least one key. -/
inductive Statement where
  | table (path : List String)
  | element (path : List String)
  | setting (path : List String) (value : Toml)

/-- A document so far, with the path of the table its settings go to. -/
structure Draft where
  entries : Entries := []
  place : List String := []

namespace Draft

def openAt (how : String → Entries → Option Entries) (d : Draft) (path : List String) : Option Draft :=
  match path.getLast? with
  | some key => do return ⟨← d.entries.within (how key) path.dropLast, path⟩
  | none => none

def add (d : Draft) : Statement → Option Draft
  | .table path => d.openAt Entries.openTable path
  | .element path => d.openAt Entries.openElement path
  | .setting path value => do return { d with entries := ← d.entries.within (Entries.set value path) d.place }

end Draft

def inline? (settings : List (List String × Toml)) : Option Toml := do
  return .table .braces (← settings.foldlM (fun es (path, value) => Entries.set value path es) [])

def ofStatements? (statements : List Statement) : Option Entries := do
  return (← statements.foldlM Draft.add {}).entries

/-! Integers -/

mutual

def all (p : Scalar → Bool) : Toml → Bool
  | .scalar s => p s
  | .array items => allItems p items
  | .table _ entries => allEntries p entries
  | .tables elements => allElements p elements

def allItems (p : Scalar → Bool) : List Toml → Bool
  | [] => true
  | item :: rest => item.all p && allItems p rest

def allEntries (p : Scalar → Bool) : List (String × Toml) → Bool
  | [] => true
  | (_, value) :: rest => value.all p && allEntries p rest

def allElements (p : Scalar → Bool) : List (List (String × Toml)) → Bool
  | [] => true
  | entries :: rest => allEntries p entries && allElements p rest

end

/-- Every integer fits into so many bits with its sign. -/
def integersFit (bits : Nat) (es : Entries) : Bool :=
  allEntries (fun
    | .integer n =>
        let bound : Int := Nat.pow 2 (bits - 1)
        0 ≤ n + bound && n < bound
    | _ => true) es

end Toml

end Storyline
