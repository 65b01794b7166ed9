import Storyline.Harness
import Storyline.Rehearsal.Script

/-! The command for a sample suite, against the real environment, console and files. A program with
stories of its own hands its suite and its drivers to `runCommand` instead. -/

namespace Storyline

open Rehearsal

def fileAt (path : String) : IO (List (String × String)) := do
  try return [(path, ← IO.FS.readFile path)] catch _ => return []

def processEnvironment : IO Environment := do
  let entries := (← fileAt "/proc/self/environ").flatMap fun (_, text) => text.splitOn "\x00"
  return entries.filterMap fun entry =>
    match entry.splitOn "=" with
    | name :: value => if value.isEmpty then none else some (name, "=".intercalate value)
    | [] => none

/-- The files that settings may come from, for these words. -/
def settingsFiles (words : List String) : List String :=
  let asked := match Arguments.parse words with
    | .ok a => a.config.getD Settings.defaultFile
    | .error _ => Settings.defaultFile
  [EnvironmentFile.path, asked] ++ (Settings.withEnding? asked).toList

/-- Writes what a run has added, directories first. -/
def store (before after : Files) : IO Unit := do
  let added := after.entries.filter fun (place, entry) => before.get? place != some entry
  for (place, entry) in added do
    if entry = .directory then IO.FS.createDirAll ("/".intercalate place)
  for (place, entry) in added do
    match entry with
    | .directory => pure ()
    | .file text => IO.FS.writeFile ("/".intercalate place) text

def runCommand {α δ ω : Type} (drivers : Settings → Backend α δ ω) (suite : Suite α) (world : ω)
    (words : List String) : IO UInt32 := do
  let files := Files.of [] (← (settingsFiles words).mapM fileAt).flatten
  let finished := Harness.command drivers words (← processEnvironment) suite world files
  store files (finished.files files)
  (← IO.getStdout).putStr finished.output
  (← IO.getStderr).putStr finished.report
  return finished.exitCode.toUInt32

/-- A call to the interface under test that always answers with `status`. -/
def sampleCall (request : String) (status : Nat) : Act :=
  .call ⟨"visitor", some status, .value (.text request), .nothing⟩

/-- One topic with a story that forks and one that is still to be written. -/
def sampleSuite : Suite Script :=
  let signUp := Steps.step "sign up" [sampleCall "sign up" 201, .pass 1]
  let logIn := Steps.step "log in" [sampleCall "log in" 200, .pass 1]
  (({} : Suite Script).declareAll [("Accounts",
    [.story "register" (signUp.andThen (Steps.fork [logIn, Steps.pending "confirm the address"])),
     .deferred "close the account"])]).1

end Storyline

def main (words : List String) : IO UInt32 :=
  Storyline.runCommand (fun _ => Storyline.Rehearsal.backend) Storyline.sampleSuite {} words
