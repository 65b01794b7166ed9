import Storyline.Desk
import Storyline.Tally

/-! What a run needs to know of drivers: how one is made, and what each call to it does. A call may
change the driver and a world that all drivers share, and ends in an answer, an error or a panic. -/

namespace Storyline

/-- What a panic leaves behind; not every one has a text. -/
inductive Panic where
  | text (message : String)
  | other
deriving Repr, DecidableEq

def Panic.message : Panic → String
  | .text message => message
  | .other => "non-string panic payload"

inductive Interruption where
  | error (e : Error)
  | panic (p : Panic)
deriving Repr, DecidableEq

/-- The answer to a call, what is left after it, and what was sent meanwhile, in order. -/
structure Reply (σ ε β : Type) where
  result : Except ε β
  state : σ
  sent : List Command := []

/-- Drivers of type `δ` in a world `ω`, with steps and hooks of type `α`. Every call also learns the
number that the next slot reserved will have. -/
structure Backend (α δ ω : Type) where
  make : ω → Nat → Reply ω Panic δ
  wait : δ × ω → Nat → Reply (δ × ω) Interruption Unit
  scribingOn : Scribe → δ × ω → Nat → Reply (δ × ω) Panic Unit
  scribingOff : δ × ω → Nat → Reply (δ × ω) Panic Unit
  perform : α → δ × ω → Nat → Reply (δ × ω) Interruption Unit
  results : δ × ω → Nat → Reply (δ × ω) Interruption Tally

variable {α δ ω κ ε β : Type}

def Reply.beside {σ σ' : Type} (r : Reply σ ε β) (f : σ → σ') : Reply σ' ε β := ⟨r.result, f r.state, r.sent⟩

/-- The same drivers in a world with a part `κ` that they never touch. -/
def Backend.beside (b : Backend α δ ω) : Backend α δ (ω × κ) :=
  let lift {ε β : Type} (call : δ × ω → Nat → Reply (δ × ω) ε β) (s : δ × ω × κ) (next : Nat) :
      Reply (δ × ω × κ) ε β :=
    (call (s.1, s.2.1) next).beside fun (driver, world) => (driver, world, s.2.2)
  { make := fun w next => (b.make w.1 next).beside fun world => (world, w.2)
    wait := lift b.wait
    scribingOn := fun scribe => lift (b.scribingOn scribe)
    scribingOff := lift b.scribingOff
    perform := fun action => lift (b.perform action)
    results := lift b.results }

end Storyline
