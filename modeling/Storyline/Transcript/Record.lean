import Storyline.Scribe

/-! What a transcript holds. A record keeps its actions in order and each note under the number of
actions that were before it. -/

namespace Storyline

abbrev Notes := List (Nat × List String)

namespace Notes

/-- Adds a note under `key`; keys stay in order. -/
def add (key : Nat) (text : String) : Notes → Notes
  | [] => [(key, [text])]
  | (k, texts) :: rest =>
      if key = k then (k, texts ++ [text]) :: rest
      else if key < k then (key, [text]) :: (k, texts) :: rest
      else (k, texts) :: add key text rest

end Notes

structure Record where
  actions : List Action := []
  notes : Notes := []
deriving Repr, BEq

structure StepRecord where
  description : String
  depth : Nat
  isFork : Bool
  record : Record
deriving Repr, BEq

structure StoryRecord where
  description : String
  steps : List StepRecord
deriving Repr, BEq

structure Transcript where
  description : String
  setup : Option Record
  stories : List StoryRecord
deriving Repr, BEq

def Transcript.story? (t : Transcript) (description : String) : Option StoryRecord :=
  t.stories.find? (·.description == description)

/-- A record under way: its actions are slots, filled or not. -/
structure Draft where
  slots : List Nat := []
  notes : Notes := []
deriving Repr, DecidableEq

namespace Draft

def take (d : Draft) : Message → Draft
  | .reserve slot => { d with slots := d.slots ++ [slot] }
  | .note text => { d with notes := d.notes.add d.slots.length text }

def absorb (d : Draft) (messages : List Message) : Draft := messages.foldl take d

def resolve (d : Draft) (slots : Slots) : Record := ⟨d.slots.map slots.action, d.notes⟩

end Draft

end Storyline
