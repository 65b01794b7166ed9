import Storyline.Rehearsal.Holdings

/-! One channel, step by step: handles that are cloned and closed, slots that are filled or dropped, and
a log that is drained and in the end dropped itself. -/

namespace Storyline.Rehearsal

inductive ChannelOp where
  | note (handle : Nat) (text : String)
  | reserve (handle : Nat) (name : String)
  | clone (handle : Nat)
  | close (handle : Nat)
  | fill (name : String) (delivery : Delivery)
  | drop (name : String)
  | drain
  | dropLog
  /-- Looks into the slots drained since the last look. -/
  | read

inductive ChannelAnswer where
  | ok
  | absent
  | noScribe
  | failed (e : Error)
  | handle (n : Nat)
  | drained (messages : List Message)
  | logClosed
  | slots (states : List SlotState)

structure ChannelSession where
  channel : Channel := {}
  slots : Slots := {}
  held : Holdings := []
  /-- Which handles are open, by number. -/
  handles : List Bool := [true]
  unread : List Nat := []

namespace ChannelSession

def isOpen (s : ChannelSession) (handle : Nat) : Bool := s.handles[handle]?.getD false

def fill (s : ChannelSession) (name : String) (d : Delivery) : ChannelAnswer × ChannelSession :=
  match s.held.find? name with
  | none => (.absent, s)
  | some slot =>
      let (result, slots) := deliver s.slots slot d
      let s := { s with slots, held := s.held.without name }
      match result with
      | .ok _ => (.ok, s)
      | .error e => (.failed e, s)

def reserve (s : ChannelSession) (name : String) : ChannelSession :=
  let slot := s.slots.next
  { s with
    channel := s.channel.send (.reserve slot)
    slots := dropHeld s.slots.reserve s.held name
    held := s.held.keep name slot }

def reserved : Message → Option Nat
  | .reserve slot => some slot
  | .note _ => none

def step (s : ChannelSession) : ChannelOp → ChannelAnswer × ChannelSession
  | .note handle text =>
      if s.isOpen handle then (.ok, { s with channel := s.channel.send (.note text) }) else (.noScribe, s)
  | .reserve handle name => if s.isOpen handle then (.ok, s.reserve name) else (.noScribe, s)
  | .clone handle =>
      if s.isOpen handle then (.handle s.handles.length, { s with handles := s.handles ++ [true] })
      else (.noScribe, s)
  | .close handle => (.ok, { s with handles := s.handles.set handle false })
  | .fill name d => s.fill name d
  | .drop name =>
      if (s.held.find? name).isSome then
        (.ok, { s with slots := dropHeld s.slots s.held name, held := s.held.without name })
      else (.absent, s)
  | .drain =>
      if s.channel.isOpen then
        let (messages, channel) := s.channel.drain
        (.drained messages, { s with channel, unread := s.unread ++ messages.filterMap reserved })
      else (.logClosed, s)
  | .dropLog => (.ok, { s with channel := s.channel.close })
  | .read => (.slots (s.unread.map s.slots.state), { s with unread := [] })

def run (s : ChannelSession) : List ChannelOp → List ChannelAnswer
  | [] => []
  | op :: rest =>
      let (answer, s) := s.step op
      answer :: s.run rest

end ChannelSession

end Storyline.Rehearsal
