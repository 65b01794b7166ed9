import Storyline.Observer
import Storyline.Performance

/-! Runs every selected topic in order and tells an observer about it. An observer's errors are counted
and change nothing else. -/

namespace Storyline

variable {α δ ω τ : Type}

/-- Which topics, stories and paths to run, by description. -/
structure Selection where
  topic : String → Bool
  story : String → Bool
  path : String → Bool

structure Running (τ ω : Type) where
  world : ω
  observer : τ
  desk : Desk
  summary : Summary := {}

/-- A panic that no path contains ends the run. -/
abbrev RunM (τ ω β : Type) := ExceptT Panic (StateM (Running τ ω)) β

namespace Running

def announce (notify : Notify τ ω) (e : Event) (s : Running τ ω) : Running τ ω :=
  let (result, observer, world) := notify e s.observer s.world
  let errors := match result with
    | .ok _ => 0
    | .error _ => 1
  { s with observer, world,
           summary := { s.summary with reportErrors := s.summary.reportErrors + errors } }

def record (f : Recorder → Recorder) (s : Running τ ω) : Running τ ω :=
  { s with desk := s.desk.record f }

end Running

def runSelectedPath (b : Backend α δ ω) (notify : Notify τ ω) (suite : Suite α) (topic : Topic α)
    (story : Story α) (path : Path α) : RunM τ ω Unit := fun s =>
  let (result, world, desk) := runPath b suite topic story path s.world s.desk
  let s := { s with world, desk }
  match result with
  | .error p => (.error p, s)
  | .ok report =>
      (.ok (), { s with summary := s.summary.record report }.announce notify (.path report))

def runStory (b : Backend α δ ω) (notify : Notify τ ω) (selection : Selection) (suite : Suite α)
    (topic : Topic α) (story : Story α) : RunM τ ω Unit :=
  if story.isDeferred then
    modify fun s =>
      { s with summary := { s.summary with storiesDeferred := s.summary.storiesDeferred + 1 } }.announce
        notify (.story story.description true)
  else do
    modify fun s => (s.announce notify (.story story.description false)).record
      (·.beginStory story.description)
    (story.paths.filter (selection.path ·.description)).forM
      (runSelectedPath b notify suite topic story)
    modify (·.record (·.endStory))

/-- The stories of a topic that are to run; none if the topic itself is not selected. -/
def Selection.stories (selection : Selection) (topic : Topic α) : List (Story α) :=
  if selection.topic topic.description then topic.stories.filter (selection.story ·.description) else []

def runTopic (b : Backend α δ ω) (notify : Notify τ ω) (selection : Selection) (suite : Suite α)
    (topic : Topic α) : RunM τ ω Unit :=
  match selection.stories topic with
  | [] => pure ()
  | stories => do
      modify fun s =>
        { s.announce notify (.topic topic.description) with
          desk := s.desk.startTopic topic.description }
      stories.forM (runStory b notify selection suite topic)
      modify fun s => s.announce notify (.transcript s.desk.transcript)

/-- Runs a suite and gives its summary, or the panic that ended it, with all that is left. -/
def runSuite (b : Backend α δ ω) (notify : Notify τ ω) (selection : Selection) (suite : Suite α)
    (observer : τ) (world : ω) : Except Panic Summary × Running τ ω :=
  let start : Running τ ω := ⟨world, observer, ⟨.new "", {}, 0⟩, {}⟩
  match (suite.topics.forM (runTopic b notify selection suite)) start with
  | (.error p, s) => (.error p, s)
  | (.ok _, s) =>
      let s := s.announce notify (.finish s.summary)
      (.ok s.summary, s)

end Storyline
