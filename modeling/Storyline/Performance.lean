import Storyline.Backend
import Storyline.Report
import Storyline.Suite

/-! One path against one new driver. Errors and panics end the path where they happen and become its
report; only a panic while the driver is made or asked for its results is not the path's own. -/

namespace Storyline

variable {α δ ω β ε : Type}

def deferredSuffix : String := " > ### deferred ###"

def Path.reportedDescription (p : Path α) : String :=
  p.description ++ if p.isDeferred then deferredSuffix else ""

/-- A path under way. -/
structure Scene (δ ω : Type) where
  driver : δ
  world : ω
  desk : Desk

abbrev Performing (δ ω β : Type) := ExceptT Interruption (StateM (Scene δ ω)) β

namespace Scene

/-- The scene after a call: what was sent has arrived. -/
def after (s : Scene δ ω) (r : Reply (δ × ω) ε β) : Scene δ ω :=
  ⟨r.state.1, r.state.2, s.desk.takeAll r.sent⟩

def record (s : Scene δ ω) (f : Recorder → Recorder) : Scene δ ω := { s with desk := s.desk.record f }

end Scene

namespace Performing

def call (f : δ × ω → Nat → Reply (δ × ω) Interruption β) : Performing δ ω β := fun s =>
  let r := f (s.driver, s.world) s.desk.slots.next
  (r.result, s.after r)

/-- A call that gives no errors, only panics. -/
def callSafe (f : δ × ω → Nat → Reply (δ × ω) Panic β) : Performing δ ω β := fun s =>
  let r := f (s.driver, s.world) s.desk.slots.next
  (r.result.mapError .panic, s.after r)

def record (f : Recorder → Recorder) : Performing δ ω Unit := fun s => (.ok (), s.record f)

/-- Hands the driver a scribe while `action` runs. After a panic nothing is called any more; after an
error the scribe is still taken back. -/
def scribed (b : Backend α δ ω) (action : α) : Performing δ ω Unit := do
  let scribe ← fun s => (.ok s.desk.scribe, s)
  callSafe (b.scribingOn scribe)
  let result ← fun s =>
    match call (b.perform action) s with
    | (.error (.panic p), s) => (.error (.panic p), s)
    | (.error (.error e), s) => (.ok (some e), s)
    | (.ok _, s) => (.ok none, s)
  callSafe b.scribingOff
  match result with
  | some e => throw (.error e)
  | none => pure ()

def runHook (b : Backend α δ ω) : Option α → Performing δ ω Unit
  | some hook => call (b.perform hook)
  | none => pure ()

def runScribed (b : Backend α δ ω) : Option α → Performing δ ω Unit
  | some action => scribed b action
  | none => pure ()

/-- Plays entries up to a deferred marker, and tells whether there was one. -/
def playEntries (b : Backend α δ ω) : List (Entry α) → Performing δ ω Bool
  | [] => pure false
  | .deferred :: _ => pure true
  | .step step :: rest => do
      record (·.beginStep step.description step.isFork)
      call b.wait
      runScribed b step.action
      record (·.endScope)
      playEntries b rest

def playPath (b : Backend α δ ω) (suite : Suite α) (topic : Topic α) (path : Path α) :
    Performing δ ω Bool := do
  record (·.beginScratch)
  runHook b suite.beforeEach
  record (·.beginSetup)
  call b.wait
  runScribed b topic.before
  record (·.endScope)
  record (·.beginPath)
  let deferred ← playEntries b path.entries
  runHook b topic.after
  runHook b suite.afterEach
  return deferred

end Performing

/-- How a path whose driver gave its results has fared. -/
def Outcome.ofResults (deferred : Bool) (t : Tally) : Outcome :=
  if t.isFailure then .failed else if deferred then .deferred else .passed

/-- Ends the path's recording and asks for the results, unless the path was interrupted. -/
def Performing.conclude (b : Backend α δ ω) (path : Path α) :
    Except Interruption Bool × Scene δ ω → Except Panic (Outcome × Tally) × Scene δ ω
  | (.error (.error e), s) => (.ok (.errored e, {}), s.record (·.endPath))
  | (.error (.panic p), s) =>
      (.ok (.errored (.run (.panicked path.reportedDescription p.message)), {}), s.record (·.endPath))
  | (.ok deferred, s) =>
      match Performing.call b.results (s.record (·.endPath)) with
      | (.ok t, s) => (.ok (.ofResults deferred t, t), s)
      | (.error (.error e), s) => (.ok (.errored e, {}), s)
      | (.error (.panic p), s) => (.error p, s)

/-- Runs a path on a new driver. -/
def runPath (b : Backend α δ ω) (suite : Suite α) (topic : Topic α) (story : Story α) (path : Path α)
    (world : ω) (desk : Desk) : Except Panic PathReport × ω × Desk :=
  let made := b.make world desk.slots.next
  let desk := desk.takeAll made.sent
  match made.result with
  | .error p => (.error p, made.state, desk)
  | .ok driver =>
      let played := (Performing.playPath b suite topic path) ⟨driver, made.state, desk⟩
      let (result, s) := Performing.conclude b path played
      (result.map fun (outcome, tally) =>
        ⟨story.description, path.reportedDescription, outcome, tally⟩, s.world, s.desk)

end Storyline
