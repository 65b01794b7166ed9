import Storyline.Text.Split

/-! Files and directories below one working directory, with the ways in which an operation on them
fails and the system's words for each. Names and places alone decide which operations fail, and one that fails
changes nothing. Writes that break off half-way, full disks, missing permissions and other faults of a disk are
left out. -/

namespace Storyline

inductive FileFault where
  | notFound
  | alreadyThere
  | notDirectory
  | isDirectory
  | nameTooLong
  | nulByte
deriving Repr, DecidableEq

def FileFault.text : FileFault → String
  | .notFound => "No such file or directory (os error 2)"
  | .alreadyThere => "File exists (os error 17)"
  | .notDirectory => "Not a directory (os error 20)"
  | .isDirectory => "Is a directory (os error 21)"
  | .nameTooLong => "File name too long (os error 36)"
  | .nulByte => "file name contained an unexpected NUL byte"

inductive FileEntry where
  | directory
  | file (text : String)
deriving Repr, DecidableEq

/-- A place below the working directory, by the names on the way to it. -/
abbrev Place := List String

structure Files where
  entries : List (Place × FileEntry) := []
deriving Repr, DecidableEq

def pathNames (path : String) : List String :=
  ((Text.split '/' path.toList).map String.ofList).filter (· != "")

def joinPath (dir name : String) : String :=
  if dir.isEmpty || dir.endsWith "/" then dir ++ name else dir ++ "/" ++ name

def maxNameBytes : Nat := 255
def maxPathBytes : Nat := 4095

namespace Files

def get? (fs : Files) (place : Place) : Option FileEntry :=
  if place.isEmpty then some .directory else fs.entries.lookup place

def put (fs : Files) (place : Place) (entry : FileEntry) : Files :=
  ⟨(place, entry) :: fs.entries.filter (·.1 != place)⟩

def isDirectory (fs : Files) (place : Place) : Bool := fs.get? place == some .directory

/-- Goes to `name` from a place; the working directory is its own parent. -/
def enter (fs : Files) (place : Place) (name : String) : Except FileFault Place :=
  match fs.get? place with
  | none => .error .notFound
  | some (.file _) => .error .notDirectory
  | some .directory =>
      if name == "." then .ok place
      else if name == ".." then .ok place.dropLast
      else if maxNameBytes < name.utf8ByteSize then .error .nameTooLong
      else .ok (place ++ [name])

/-- The place a path leads to. Everything on the way must be a directory; the place itself may be
empty. -/
def locate (fs : Files) (path : String) : Except FileFault Place :=
  if path.toList.contains '\x00' then .error .nulByte
  else if maxPathBytes < path.utf8ByteSize then .error .nameTooLong
  else if path.isEmpty then .error .notFound
  else (pathNames path).foldlM fs.enter []

def makeDirectory (fs : Files) (path : String) : Except FileFault Files := do
  let place ← fs.locate path
  match fs.get? place with
  | some _ => .error .alreadyThere
  | none => return fs.put place .directory

def leadsToDirectory (fs : Files) (path : String) : Bool :=
  match fs.locate path with
  | .ok place => fs.isDirectory place
  | .error _ => false

/-- Makes the directories on the way to `names`, nearest first, and the last one too. What was made
before a failure stays. -/
def makeDirectories (fs : Files) : List String → Except FileFault Unit × Files
  | [] => (.ok (), fs)
  | name :: above =>
      let path := "/".intercalate (name :: above).reverse
      match fs.makeDirectory path with
      | .ok fs => (.ok (), fs)
      | .error .notFound =>
          match fs.makeDirectories above with
          | (.error e, fs) => (.error e, fs)
          | (.ok _, fs) =>
              match fs.makeDirectory path with
              | .ok fs => (.ok (), fs)
              | .error e => (if fs.leadsToDirectory path then .ok () else .error e, fs)
      | .error e => (if fs.leadsToDirectory path then .ok () else .error e, fs)

/-- Makes a directory and all that lead to it; no path at all is the working directory. -/
def makePath (fs : Files) (path : String) : Except FileFault Unit × Files :=
  fs.makeDirectories (pathNames path).reverse

def write (fs : Files) (path text : String) : Except FileFault Files := do
  let place ← fs.locate path
  if fs.isDirectory place then .error .isDirectory else return fs.put place (.file text)

/-- A path with a slash at its end leads to no file. -/
def read (fs : Files) (path : String) : Except FileFault String := do
  match fs.get? (← fs.locate path) with
  | some (.file text) => if path.endsWith "/" then .error .notDirectory else .ok text
  | some .directory => .error .isDirectory
  | none => .error .notFound

/-- Writes a file after making the directories that lead to it. -/
def place (fs : Files) (path text : String) : Files :=
  let (_, fs) := fs.makeDirectories (pathNames path).reverse.tail
  match fs.write path text with
  | .ok fs => fs
  | .error _ => fs

def of (directories : List String) (files : List (String × String)) : Files :=
  files.foldl (fun fs (path, text) => fs.place path text)
    (directories.foldl (fun fs path => (fs.makePath path).2) {})

end Files

end Storyline
