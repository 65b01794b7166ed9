import Storyline.Scribe

/-! Slots under names. A name holds one slot at a time; whoever takes a slot takes it away. -/

namespace Storyline.Rehearsal

abbrev Holdings := List (String × Nat)

namespace Holdings

def find? (h : Holdings) (name : String) : Option Nat := h.lookup name

def without (h : Holdings) (name : String) : Holdings := h.filter (·.1 != name)

def keep (h : Holdings) (name : String) (slot : Nat) : Holdings := (name, slot) :: h.without name

end Holdings

def dropHeld (slots : Slots) (h : Holdings) (name : String) : Slots :=
  match h.find? name with
  | some slot => slots.drop slot
  | none => slots

/-- Fills a slot, or drops it if what was delivered cannot be recorded. -/
def deliver (slots : Slots) (slot : Nat) (d : Delivery) : Except Error Unit × Slots :=
  match d.action with
  | .ok a => (.ok (), slots.fill slot a)
  | .error e => (.error e, slots.drop slot)

end Storyline.Rehearsal
