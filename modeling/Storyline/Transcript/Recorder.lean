import Storyline.Transcript.Record

/-! Records one topic as it runs. Messages wait in the channel until a scope opens or closes, and then
go to the record of the scope that was open. A step is recorded the first time it is reached through its
chain of descriptions; later visits, and all that happens outside of steps and the first setup, go to a
scratch record that no transcript holds. -/

namespace Storyline

inductive Scope where
  | scratch
  | setup
  /-- The step that was listed last. -/
  | step
deriving Repr, DecidableEq

structure StepDraft where
  description : String
  depth : Nat
  isFork : Bool
  draft : Draft := {}
deriving Repr, DecidableEq

structure StoryDraft where
  description : String
  steps : List StepDraft := []
deriving Repr, DecidableEq

structure Recorder where
  description : String
  channel : Channel := {}
  scope : Scope := .scratch
  scratch : Draft := {}
  setup : Option Draft := none
  stories : List StoryDraft := []
  /-- Whether the last story is still being told. -/
  inStory : Bool := false
  /-- The chains of steps listed so far. -/
  pastChains : List String := []
  chain : String := ""
  depth : Nat := 0
deriving Repr, DecidableEq

def transcriptSuffix : String := " (stories)"

def modifyLast {β : Type} (f : β → β) : List β → List β
  | [] => []
  | [x] => [f x]
  | x :: rest => x :: modifyLast f rest

def StoryDraft.inLastStep (f : Draft → Draft) (story : StoryDraft) : StoryDraft :=
  { story with steps := modifyLast (fun step => { step with draft := f step.draft }) story.steps }

namespace Recorder

def new (topic : String) : Recorder := { description := topic ++ transcriptSuffix }

def send (r : Recorder) (m : Message) : Recorder := { r with channel := r.channel.send m }

def inScope (r : Recorder) (f : Draft → Draft) : Recorder :=
  match r.scope with
  | .scratch => { r with scratch := f r.scratch }
  | .setup => { r with setup := r.setup.map f }
  | .step => { r with stories := modifyLast (StoryDraft.inLastStep f) r.stories }

/-- Waiting messages go to the open scope's record, then `scope` is open. -/
def switch (r : Recorder) (scope : Scope) : Recorder :=
  let (messages, channel) := r.channel.drain
  { r.inScope (·.absorb messages) with channel, scope }

def beginScratch (r : Recorder) : Recorder := { r.switch .scratch with scratch := {} }

/-- Only the first setup is kept. -/
def beginSetup (r : Recorder) : Recorder :=
  if r.setup.isNone then { r.switch .setup with setup := some {} } else r.beginScratch

def beginStory (r : Recorder) (description : String) : Recorder :=
  let r := r.switch .scratch
  { r with stories := r.stories ++ [{ description }], inStory := true }

def endStory (r : Recorder) : Recorder := { r.switch .scratch with inStory := false }

def currentStory (r : Recorder) : Option StoryDraft := if r.inStory then r.stories.getLast? else none

def beginPath (r : Recorder) : Recorder :=
  let r := r.switch .scratch
  { r with chain := (r.currentStory.map StoryDraft.description).getD "", depth := 0 }

def list (r : Recorder) (description : String) (depth : Nat) (isFork : Bool) : Recorder :=
  { r with stories := modifyLast (fun s =>
      { s with steps := s.steps ++ [{ description, depth, isFork }] }) r.stories }

def beginStep (r : Recorder) (description : String) (isFork : Bool) : Recorder :=
  let depth := r.depth
  let r := { r with chain := r.chain ++ ">" ++ description, depth := depth + 1 }
  if !r.inStory || r.pastChains.contains r.chain then r.beginScratch
  else
    let r := r.switch .step
    { r.list description depth isFork with pastChains := r.chain :: r.pastChains }

def endScope (r : Recorder) : Recorder := r.switch .scratch

def endPath (r : Recorder) : Recorder := { r.switch .scratch with chain := "", depth := 0 }

end Recorder

def StepDraft.resolve (slots : Slots) (s : StepDraft) : StepRecord :=
  ⟨s.description, s.depth, s.isFork, s.draft.resolve slots⟩

def StoryDraft.resolve (slots : Slots) (s : StoryDraft) : StoryRecord :=
  ⟨s.description, s.steps.map (StepDraft.resolve slots)⟩

/-- The transcript with what the slots hold now. -/
def Recorder.finish (r : Recorder) (slots : Slots) : Transcript :=
  let r := r.switch .scratch
  ⟨r.description, r.setup.map (·.resolve slots), r.stories.map (StoryDraft.resolve slots)⟩

end Storyline
