import Storyline.Rehearsal.Holdings
import Storyline.Transcript.Recorder

/-! One recorder, step by step: scopes that open and close in any order, and what is sent meanwhile
through its scribe. -/

namespace Storyline.Rehearsal

inductive RecordingOp where
  | beginScratch
  | beginSetup
  | beginStory (description : String)
  | endStory
  | beginPath
  | endPath
  | beginStep (description : String) (isFork : Bool)
  | endScope
  | note (text : String)
  | reserve (name : String)
  | drop (name : String)
  | fill (name : String) (delivery : Delivery)
  | call (delivery : Delivery)
  | stash
  /-- A note sent through the stashed scribe, if there is one. -/
  | stashNote (text : String)
  | other

inductive RecordingAnswer where
  | ok
  | absent
  | failed (e : Error)

structure Recording where
  recorder : Recorder
  slots : Slots := {}
  held : Holdings := []
  hasStash : Bool := false

namespace Recording

def ofResult : Except Error Unit → RecordingAnswer
  | .ok _ => .ok
  | .error e => .failed e

def reserve (s : Recording) : Nat × Recording :=
  (s.slots.next,
    { s with recorder := s.recorder.send (.reserve s.slots.next), slots := s.slots.reserve })

def step (s : Recording) : RecordingOp → RecordingAnswer × Recording
  | .beginScratch => (.ok, { s with recorder := s.recorder.beginScratch })
  | .beginSetup => (.ok, { s with recorder := s.recorder.beginSetup })
  | .beginStory description => (.ok, { s with recorder := s.recorder.beginStory description })
  | .endStory => (.ok, { s with recorder := s.recorder.endStory })
  | .beginPath => (.ok, { s with recorder := s.recorder.beginPath })
  | .endPath => (.ok, { s with recorder := s.recorder.endPath })
  | .beginStep description isFork =>
      (.ok, { s with recorder := s.recorder.beginStep description isFork })
  | .endScope => (.ok, { s with recorder := s.recorder.endScope })
  | .note text => (.ok, { s with recorder := s.recorder.send (.note text) })
  | .reserve name =>
      let (slot, s) := s.reserve
      (.ok, { s with slots := dropHeld s.slots s.held name, held := s.held.keep name slot })
  | .drop name =>
      (.ok, { s with slots := dropHeld s.slots s.held name, held := s.held.without name })
  | .fill name d =>
      match s.held.find? name with
      | none => (.absent, s)
      | some slot =>
          let (result, slots) := deliver s.slots slot d
          (ofResult result, { s with slots, held := s.held.without name })
  | .call d =>
      let (slot, s) := s.reserve
      let (result, slots) := deliver s.slots slot d
      (ofResult result, { s with slots })
  | .stash => (.ok, { s with hasStash := true })
  | .stashNote text =>
      (.ok, if s.hasStash then { s with recorder := s.recorder.send (.note text) } else s)
  | .other => (.ok, s)

def ofTopic (topic : String) : Recording := { recorder := .new topic }

def after (s : Recording) (ops : List RecordingOp) : Recording :=
  ops.foldl (fun s op => (s.step op).2) s

def answers (s : Recording) : List RecordingOp → List RecordingAnswer
  | [] => []
  | op :: rest =>
      let (answer, s) := s.step op
      answer :: s.answers rest

def transcript (s : Recording) : Transcript := s.recorder.finish s.slots

end Recording

def transcriptOf (topic : String) (ops : List RecordingOp) : Transcript :=
  ((Recording.ofTopic topic).after ops).transcript

end Storyline.Rehearsal
