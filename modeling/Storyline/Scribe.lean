import Storyline.Action

/-! Recording handles. A scribe sends notes and reservations down the channel it belongs to; a
reservation holds its place there at once, while the action for it may come at any later time. Slots are
numbered in the order of their reservation. -/

namespace Storyline

/-- All handles of one channel are alike. -/
structure Scribe where
  channel : Nat
deriving Repr, DecidableEq

inductive Message where
  | reserve (slot : Nat)
  | note (text : String)
deriving Repr, DecidableEq

/-- Messages wait in order until they are drained. After it is closed a channel takes no more. -/
structure Channel where
  queue : List Message := []
  isOpen : Bool := true
deriving Repr, DecidableEq

namespace Channel

def send (c : Channel) (m : Message) : Channel :=
  if c.isOpen then { c with queue := c.queue ++ [m] } else c

def drain (c : Channel) : List Message × Channel := (c.queue, { c with queue := [] })

def close (_ : Channel) : Channel := ⟨[], false⟩

end Channel

inductive SlotState where
  | waiting
  | filled (action : Action)
  | dropped
deriving Repr, Inhabited

structure Slots where
  states : List SlotState := []
deriving Repr

namespace Slots

def next (s : Slots) : Nat := s.states.length

def reserve (s : Slots) : Slots := ⟨s.states ++ [.waiting]⟩

def state (s : Slots) (n : Nat) : SlotState := (s.states[n]?).getD .dropped

/-- Only a slot that still waits changes. -/
def settle (s : Slots) (n : Nat) (state : SlotState) : Slots :=
  match s.state n with
  | .waiting => ⟨s.states.set n state⟩
  | _ => s

def fill (s : Slots) (n : Nat) (a : Action) : Slots := s.settle n (.filled a)

def drop (s : Slots) (n : Nat) : Slots := s.settle n .dropped

/-- The action in a slot; an empty one if it was never filled. -/
def action (s : Slots) (n : Nat) : Action :=
  match s.state n with
  | .filled a => a
  | _ => {}

end Slots

end Storyline
