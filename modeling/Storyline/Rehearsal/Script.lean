import Storyline.Backend
import Storyline.Rehearsal.Holdings
import Storyline.Report

/-! Scripted drivers: steps and hooks are lists of actions, and everything that happens to a driver is
written to a log that all drivers of a run share. -/

namespace Storyline.Rehearsal

inductive Act where
  | log (text : String)
  | pass (n : Nat)
  | fail (n : Nat) (detail : Option String)
  | detail (detail : Option String)
  | call (delivery : Delivery)
  | reserve (name : String)
  | fill (name : String) (delivery : Delivery)
  | drop (name : String)
  | later (name : String) (delivery : Delivery)
  | note (text : String)
  | stash
  | stashNote (text : String)
  | stashCall (delivery : Delivery)
  | count (name : String)
  | when (name : String) (eq : Nat) (script : List Act)
  | failWait (i : Interruption)
  | failResults (i : Interruption)
  | raise (i : Interruption)

instance : Inhabited Act := ⟨.stash⟩

abbrev Script := List Act

/-- What the drivers and observers of a run share. -/
structure World where
  log : List String := []
  held : Holdings := []
  stash : Option Scribe := none
  counters : List (String × Nat) := []
  made : Nat := 0
  /-- The driver that cannot be made. -/
  unmakable : Option Nat := none
  /-- What the observers in charge were told, once for each of them. -/
  reports : List PathReport := []
  transcripts : List Transcript := []

namespace World

def write (w : World) (line : String) : World := { w with log := w.log ++ [line] }

def counter (w : World) (name : String) : Nat := (w.counters.lookup name).getD 0

def count (w : World) (name : String) : World :=
  { w with counters := (name, w.counter name + 1) :: w.counters.filter (·.1 != name) }

end World

/-- A slot to be filled when the driver next settles its open work. -/
structure LaterFill where
  name : String
  slot : Nat
  delivery : Delivery

structure Player where
  number : Nat
  scribe : Option Scribe := none
  tally : Tally := {}
  later : List LaterFill := []
  waitFault : Option Interruption := none
  resultsFault : Option Interruption := none

/-- A call to a driver under way: what it sends, and the number of the next slot. -/
structure Turn where
  player : Player
  world : World
  next : Nat
  sent : List Command := []

abbrev Acting (β : Type) := ExceptT Interruption (StateM Turn) β

namespace Turn

def send (t : Turn) (c : Command) : Turn := { t with sent := t.sent ++ [c] }

def log (t : Turn) (text : String) : Turn :=
  { t with world := t.world.write s!"d{t.player.number}:{text}" }

def mode (t : Turn) : String := if t.player.scribe.isSome then "on" else "off"

def dropHeld (t : Turn) (name : String) : Turn :=
  match t.world.held.find? name with
  | none => t
  | some slot => { t.send (.drop slot) with world.held := t.world.held.without name }

def reserve (t : Turn) (scribe : Scribe) : Nat × Turn :=
  (t.next, { t.send (.reserve scribe) with next := t.next + 1 })

/-- Fills a slot; a slot whose delivery cannot be recorded is dropped. -/
def deliver (t : Turn) (slot : Nat) (d : Delivery) : Except Interruption Unit × Turn :=
  match d.action with
  | .ok a => (.ok (), t.send (.fill slot a))
  | .error e => (.error (.error e), t.send (.drop slot))

def tally (t : Turn) (f : Tally → Tally) : Turn :=
  { t with player.tally := f t.player.tally }

end Turn

namespace Acting

def change (f : Turn → Turn) : Acting Unit := fun t => (.ok (), f t)

def log (text : String) : Acting Unit := change (·.log text)

def raise (i : Interruption) : Acting Unit := fun t => (.error i, t)

def raiseIf (i : Option Interruption) : Acting Unit := fun t =>
  match i with
  | none => (.ok (), t)
  | some i => (.error i, t)

def deliver (slot : Nat) (d : Delivery) : Acting Unit := fun t => t.deliver slot d

def callThrough (scribe : Option Scribe) (d : Delivery) : Acting Unit := fun t =>
  match scribe with
  | none => (.ok (), t)
  | some scribe =>
      let (slot, t) := t.reserve scribe
      t.deliver slot d

def noteThrough (scribe : Option Scribe) (text : String) : Acting Unit := change fun t =>
  match scribe with
  | none => t
  | some scribe => t.send (.note scribe text)

/-- Reserves a slot under a name, which loses the slot it held. -/
def reserve (name : String) : Acting Unit := change fun t =>
  match t.player.scribe with
  | none => t
  | some scribe =>
      let (slot, t) := t.reserve scribe
      let t := t.dropHeld name
      { t with world.held := t.world.held.keep name slot }

def takeHeld (name : String) : Acting (Option Nat) := fun t =>
  (.ok (t.world.held.find? name), { t with world.held := t.world.held.without name })

def fill (name : String) (d : Delivery) : Acting Unit := do
  match ← takeHeld name with
  | none => log s!"fill:{name}:none"
  | some slot =>
      log s!"fill:{name}:found"
      deliver slot d

def later (name : String) (d : Delivery) : Acting Unit := do
  match ← takeHeld name with
  | none => pure ()
  | some slot => change fun t => { t with player.later := t.player.later ++ [⟨name, slot, d⟩] }

def failBy (n : Nat) (detail : Option String) (t : Tally) : Tally :=
  { t with failed := t.failed + n, failure := t.failure.or detail }

mutual

def perform : Act → Acting Unit
  | .log text => change fun t => t.log s!"log:{text}:{t.mode}"
  | .pass n => change (·.tally fun t => { t with passed := t.passed + n })
  | .fail n detail => change (·.tally (failBy n detail))
  | .detail detail => change (·.tally fun t => { t with failure := detail })
  | .call d => do
      callThrough (← fun t => (.ok t.player.scribe, t)) d
      change fun t => t.log s!"call:{d.actor}:{t.mode}"
  | .reserve name => reserve name
  | .fill name d => fill name d
  | .drop name => change (·.dropHeld name)
  | .later name d => later name d
  | .note text => do noteThrough (← fun t => (.ok t.player.scribe, t)) text
  | .stash => change fun t => { t with world.stash := t.player.scribe }
  | .stashNote text => do noteThrough (← fun t => (.ok t.world.stash, t)) text
  | .stashCall d => do callThrough (← fun t => (.ok t.world.stash, t)) d
  | .count name => change fun t => { t with world := t.world.count name }
  | .when name eq script => do
      if (← fun t => (.ok (t.world.counter name), t)) = eq then performAll script else pure ()
  | .failWait i => change fun t => { t with player.waitFault := some i }
  | .failResults i => change fun t => { t with player.resultsFault := some i }
  | .raise i => raise i

/-- One action after another; the first that is interrupted ends the script. -/
def performAll : List Act → Acting Unit
  | [] => pure ()
  | act :: rest => do
      perform act
      performAll rest

end

def settleAll : List LaterFill → Acting Unit
  | [] => pure ()
  | f :: rest => do
      deliver f.slot f.delivery
      log s!"settled:{f.name}"
      settleAll rest

/-- Makes the later fills in order; after an error the others are lost. -/
def settle : Acting Unit := do
  let fills ← fun t => (.ok t.player.later, { t with player.later := [] })
  settleAll fills

def wait : Acting Unit := do
  log "wait"
  settle
  let fault ← fun t => (.ok t.player.waitFault, { t with player.waitFault := none })
  raiseIf fault

def results : Acting Tally := do
  log "results"
  settle
  raiseIf (← fun t => (.ok t.player.resultsFault, t))
  fun t => (.ok t.player.tally, t)

variable {β : Type}

def reply (acting : Acting β) (state : Player × World) (next : Nat) :
    Reply (Player × World) Interruption β :=
  let (result, t) := acting ⟨state.1, state.2, next, []⟩
  ⟨result, (t.player, t.world), t.sent⟩

end Acting

def hold (scribe : Option Scribe) (line : String) (state : Player × World) (_ : Nat) :
    Reply (Player × World) Panic Unit :=
  let player := { state.1 with scribe }
  ⟨.ok (), (player, state.2.write s!"d{player.number}:{line}"), []⟩

/-- Drivers are numbered in the order they are made. -/
def makePlayer (w : World) (_ : Nat) : Reply World Panic Player :=
  let n := w.made + 1
  let w : World := { w.write s!"d{n}:new" with made := n }
  if w.unmakable = some n then ⟨.error (.text s!"no driver {n}"), w, []⟩ else ⟨.ok { number := n }, w, []⟩

def backend : Backend Script Player World where
  make := makePlayer
  wait := Acting.reply Acting.wait
  scribingOn scribe := hold (some scribe) "on"
  scribingOff := hold none "off"
  perform script := Acting.reply (Acting.performAll script)
  results := Acting.reply Acting.results

end Storyline.Rehearsal
