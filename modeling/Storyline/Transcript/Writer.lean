import Storyline.Files
import Storyline.Transcript.Document

/-! Keeps transcripts on disk: one document each, in one directory, and an index of those that were
written. -/

namespace Storyline

def indexFile : String := "index2.json"

/-- The last part of a description, with underscores for spaces. -/
def transcriptFile (description : String) : String :=
  let base := (description.toList.reverse.takeWhile (· != '/')).reverse
  String.ofList (base.map fun c => if c == ' ' then '_' else c) ++ ".json"

structure Writer where
  dir : String
  commit : Option String
  entries : List IndexEntry := []
deriving Repr

namespace Writer

def fault (path : String) (e : FileFault) : Error := .transcript (.io (path ++ ": " ++ e.text))

/-- A writer for a directory, which is made if it is not there. -/
def new (dir : String) (commit : Option String) (fs : Files) : Except Error Writer × Files :=
  match fs.makePath dir with
  | (.ok _, fs) => (.ok { dir, commit }, fs)
  | (.error e, fs) => (.error (fault dir e), fs)

def store (w : Writer) (name text : String) (fs : Files) : Except Error Files :=
  let path := joinPath w.dir name
  (fs.write path text).mapError (fault path)

/-- A transcript that could not be written is not in the index. -/
def write (w : Writer) (t : Transcript) (fs : Files) : Except Error String × Writer × Files :=
  let file := transcriptFile t.description
  match w.store file t.toValue.pretty fs with
  | .ok fs =>
      (.ok (joinPath w.dir file), { w with entries := w.entries ++ [⟨t.description, file⟩] }, fs)
  | .error e => (.error e, w, fs)

def index (w : Writer) : Index := ⟨w.commit, w.entries⟩

def writeIndex (w : Writer) (fs : Files) : Except Error String × Files :=
  match w.store indexFile w.index.toValue.pretty fs with
  | .ok fs => (.ok (joinPath w.dir indexFile), fs)
  | .error e => (.error e, fs)

end Writer

end Storyline
