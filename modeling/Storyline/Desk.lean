import Storyline.Transcript.Recorder

/-! The recording of the topic under way, as drivers see it. A driver can only send commands: notes and
reservations through a scribe it was handed, and fills and drops of slots. What it sends through a scribe
of an earlier topic reaches nobody. -/

namespace Storyline

inductive Command where
  | note (scribe : Scribe) (text : String)
  | reserve (scribe : Scribe)
  | fill (slot : Nat) (action : Action)
  | drop (slot : Nat)
deriving Repr

structure Desk where
  recorder : Recorder
  slots : Slots := {}
  /-- The number of the recorder's channel; every topic has a new one. -/
  channel : Nat := 0
deriving Repr

namespace Desk

def scribe (d : Desk) : Scribe := ⟨d.channel⟩

def record (d : Desk) (f : Recorder → Recorder) : Desk := { d with recorder := f d.recorder }

/-- A message arrives if it was sent through a scribe of the recorder. -/
def send (d : Desk) (scribe : Scribe) (m : Message) : Desk :=
  if scribe = d.scribe then d.record (·.send m) else d

def take (d : Desk) : Command → Desk
  | .note scribe text => d.send scribe (.note text)
  | .reserve scribe => { d.send scribe (.reserve d.slots.next) with slots := d.slots.reserve }
  | .fill slot action => { d with slots := d.slots.fill slot action }
  | .drop slot => { d with slots := d.slots.drop slot }

def takeAll (d : Desk) (commands : List Command) : Desk := commands.foldl take d

/-- A new recorder on a channel of its own. Slots of earlier topics stay. -/
def startTopic (d : Desk) (topic : String) : Desk :=
  { d with recorder := .new topic, channel := d.channel + 1 }

def transcript (d : Desk) : Transcript := d.recorder.finish d.slots

end Desk

end Storyline
