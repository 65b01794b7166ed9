import Storyline.Proofs.Recording.Chain
import Storyline.Proofs.Recording.Ledger
import Storyline.Rehearsal.Script
import Storyline.Run

/-! What a run does, as far as a transcript could tell of it: for every path the setup it came to and the
visits it paid to steps, with what arrived at the recorder meanwhile. A trace is read off the run itself.
`reached` follows a loop of the run and keeps the state that each of its turns starts from, and from such
a state it is plain what a call sends. -/

namespace Storyline

variable {α δ ω τ ε σ β : Type}

/-- The elements that a loop gets to, each with the state its turn starts from. -/
def reached (f : β → ExceptT ε (StateM σ) Unit) : List β → σ → List (β × σ)
  | [], _ => []
  | x :: rest, s => (x, s) :: match f x s with
    | (.ok _, s) => reached f rest s
    | (.error _, _) => []

namespace Desk

/-- The message that a command sends to the desk's recorder; none through the scribe of another topic. -/
def message? (d : Desk) : Command → Option Message
  | .note scribe text => if scribe = d.scribe then some (.note text) else none
  | .reserve scribe => if scribe = d.scribe then some (.reserve d.slots.next) else none
  | .fill .. | .drop _ => none

def arriving (d : Desk) : List Command → List Message
  | [] => []
  | c :: rest => (d.message? c).toList ++ (d.take c).arriving rest

end Desk

/-- What arrived while a scope was open: in all, and while the hook or action it was opened for was
running, if that was called. -/
structure Heard where
  /-- The scribe through which it was sent. -/
  scribe : Scribe
  all : List Message
  called : Option (List Message) := none

namespace Scene

def ask (s : Scene δ ω) (f : δ × ω → Nat → Reply (δ × ω) ε β) : Reply (δ × ω) ε β :=
  f (s.driver, s.world) s.desk.slots.next

def arriving (s : Scene δ ω) (r : Reply (δ × ω) ε β) : List Message := s.desk.arriving r.sent

end Scene

/-- What is heard of a hook or action and of the calls that hand out the scribe and take it back. -/
def heardScribed (b : Backend α δ ω) (action : α) (s : Scene δ ω) : Heard :=
  let on := s.ask (b.scribingOn s.desk.scribe)
  match on.result with
  | .error _ => { scribe := s.desk.scribe, all := s.arriving on }
  | .ok _ =>
      let s' := s.after on
      let played := s'.ask (b.perform action)
      let last := match played.result with
        | .error (.panic _) => []
        | _ => (s'.after played).arriving ((s'.after played).ask b.scribingOff)
      { scribe := s.desk.scribe
        all := s.arriving on ++ s'.arriving played ++ last
        called := some (s'.arriving played) }

/-- What is heard in a scope that has just been opened: of the wait, and of the hook or action. -/
def heardIn (b : Backend α δ ω) (action : Option α) (s : Scene δ ω) : Heard :=
  let waited := s.ask b.wait
  match waited.result, action with
  | .ok _, some action =>
      let h := heardScribed b action (s.after waited)
      { h with all := s.arriving waited ++ h.all }
  | _, _ => { scribe := s.desk.scribe, all := s.arriving waited }

/-- A step that a path got to. -/
structure Visit where
  /-- The descriptions of the path's steps up to this one. -/
  chain : List String
  isFork : Bool
  heard : Heard
  /-- Whether the recorder put the step on record because of this visit. -/
  isNew : Bool
  /-- The number of the step record that the visit belongs to, in the order of their listing. -/
  record : Nat

/-- A visit to a step that begins in a given scene, after the steps of `trail`. -/
def visitAt (b : Backend α δ ω) (trail : List String) (step : Step α) (s : Scene δ ω) : Visit :=
  let begun := s.record (·.beginStep step.description step.isFork)
  { chain := trail ++ [step.description]
    isFork := step.isFork
    heard := heardIn b step.action begun
    isNew := s.desk.recorder.lists step.description
    record := begun.desk.recorder.recordNumber }

def visitsFrom (b : Backend α δ ω) : List String → List (Step α × Scene δ ω) → List Visit
  | _, [] => []
  | trail, (step, s) :: rest => visitAt b trail step s :: visitsFrom b (trail ++ [step.description]) rest

namespace Path

def played (p : Path α) : List (Step α) :=
  (p.entries.takeWhile fun e => !e.isDeferred).filterMap Entry.step?

end Path

namespace Performing

/-- A scope from its opening to its end. -/
def within (b : Backend α δ ω) (opening : Recorder → Recorder) (action : Option α) :
    Performing δ ω Unit := do
  record opening
  call b.wait
  runScribed b action
  record (·.endScope)

def visit (b : Backend α δ ω) (step : Step α) : Performing δ ω Unit :=
  within b (·.beginStep step.description step.isFork) step.action

def enter (b : Backend α δ ω) (suite : Suite α) : Performing δ ω Unit := do
  record (·.beginScratch)
  runHook b suite.beforeEach

end Performing

structure PathTrace where
  /-- What was heard in the setup's scope, if the path came to it. -/
  setup : Option Heard := none
  visits : List Visit := []

open Performing in
def playTrace (b : Backend α δ ω) (suite : Suite α) (topic : Topic α) (path : Path α)
    (s : Scene δ ω) : PathTrace :=
  match enter b suite s with
  | (.error _, _) => {}
  | (.ok _, s) =>
      { setup := some (heardIn b topic.before (s.record (·.beginSetup)))
        visits := match within b (·.beginSetup) topic.before s with
          | (.error _, _) => []
          | (.ok _, s) => visitsFrom b [] (reached (visit b) path.played (s.record (·.beginPath))) }

def pathTrace (b : Backend α δ ω) (suite : Suite α) (topic : Topic α) (path : Path α) (world : ω)
    (desk : Desk) : PathTrace :=
  let made := b.make world desk.slots.next
  match made.result with
  | .error _ => {}
  | .ok driver => playTrace b suite topic path ⟨driver, made.state, desk.takeAll made.sent⟩

/-- What paths tell that were run one after another, each from the state it began in. -/
def pathTraces (b : Backend α δ ω) (suite : Suite α) (topic : Topic α)
    (turns : List (Path α × Running τ ω)) : List PathTrace :=
  turns.map fun (path, s) => pathTrace b suite topic path s.world s.desk

structure StoryTrace where
  description : String
  paths : List PathTrace

namespace StoryTrace

def setups (st : StoryTrace) : List Heard := st.paths.filterMap (·.setup)

def visits (st : StoryTrace) : List Visit := st.paths.flatMap (·.visits)

end StoryTrace

/-- A story that is told from a given state on; a deferred one leaves no trace. -/
def storyTrace (b : Backend α δ ω) (notify : Notify τ ω) (selection : Selection) (suite : Suite α)
    (topic : Topic α) (story : Story α) (s : Running τ ω) : Option StoryTrace :=
  if story.isDeferred then none
  else
    let s := (s.announce notify (.story story.description false)).record (·.beginStory story.description)
    let paths := reached (runSelectedPath b notify suite topic story)
      (story.paths.filter (selection.path ·.description)) s
    some ⟨story.description, pathTraces b suite topic paths⟩

def storyTraces (b : Backend α δ ω) (notify : Notify τ ω) (selection : Selection) (suite : Suite α)
    (topic : Topic α) (turns : List (Story α × Running τ ω)) : List StoryTrace :=
  turns.filterMap fun (story, s) => storyTrace b notify selection suite topic story s

structure TopicTrace where
  description : String
  stories : List StoryTrace
  /-- The desk as the topic's stories leave it. -/
  desk : Desk

def Running.enterTopic (notify : Notify τ ω) (topic : Topic α) (s : Running τ ω) : Running τ ω :=
  { s.announce notify (.topic topic.description) with desk := s.desk.startTopic topic.description }

def topicTrace (b : Backend α δ ω) (notify : Notify τ ω) (selection : Selection) (suite : Suite α)
    (topic : Topic α) (s : Running τ ω) : TopicTrace :=
  let s := s.enterTopic notify topic
  let tell := runStory b notify selection suite topic
  let stories := selection.stories topic
  { description := topic.description
    stories := storyTraces b notify selection suite topic (reached tell stories s)
    desk := ((stories.forM tell) s).2.desk }

namespace TopicTrace

def setups (t : TopicTrace) : List Heard := t.stories.flatMap (·.setups)

def transcript (t : TopicTrace) : Transcript := t.desk.transcript

end TopicTrace

def Running.start (observer : τ) (world : ω) : Running τ ω := ⟨world, observer, ⟨.new "", {}, 0⟩, {}⟩

namespace Rehearsal

def unwatched : Notify Unit World := fun _ observer world => (.ok (), observer, world)

def everything : Selection := ⟨fun _ => true, fun _ => true, fun _ => true⟩

/-- The trace of a topic with scripted drivers, when it is the first of a run. -/
def traceOf (suite : Suite Script) (topic : Topic Script) : TopicTrace :=
  topicTrace backend unwatched everything suite topic (.start () {})

end Rehearsal

end Storyline
