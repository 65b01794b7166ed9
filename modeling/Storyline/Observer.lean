import Storyline.Report
import Storyline.Transcript.Record

/-! What a run tells those who watch it. Observers are values; being told something gives the observer as
it is afterwards, and perhaps an error. They may share a world `ω`, such as a file system. -/

namespace Storyline

inductive Event where
  | topic (description : String)
  | story (description : String) (deferred : Bool)
  | path (report : PathReport)
  | transcript (transcript : Transcript)
  | finish (summary : Summary)

abbrev Notify (τ ω : Type) := Event → τ → ω → Except Error Unit × τ × ω

variable {τ ω κ : Type}

/-- The same observers in a world with a part `ω` that they never touch. -/
def Notify.beside (f : Notify τ κ) : Notify τ (ω × κ) := fun e o (world, shared) =>
  let (r, o, shared) := f e o shared
  (r, o, world, shared)

/-- Observers in nested groups. -/
inductive Chain (τ : Type) where
  | observer (o : τ)
  | chain (members : List (Chain τ))
deriving Repr

/-- A group of observers and of no other groups. -/
def Chain.row (os : List τ) : Chain τ := .chain (os.map .observer)

def firstError (r r' : Except Error Unit) : Except Error Unit :=
  match r with
  | .ok _ => r'
  | .error e => .error e

namespace Chain

mutual

def notify (f : Notify τ ω) (e : Event) : Chain τ → ω → Except Error Unit × Chain τ × ω
  | .observer o, w =>
      let (r, o, w) := f e o w
      (r, .observer o, w)
  | .chain members, w =>
      let (r, members, w) := notifyAll f e members w
      (r, .chain members, w)

/-- Tells every member, whatever the others answered; the first error is the answer. -/
def notifyAll (f : Notify τ ω) (e : Event) : List (Chain τ) → ω → Except Error Unit × List (Chain τ) × ω
  | [], w => (.ok (), [], w)
  | member :: rest, w =>
      let (r, member, w) := member.notify f e w
      let (r', rest, w) := notifyAll f e rest w
      (firstError r r', member :: rest, w)

end

mutual

def toList : Chain τ → List τ
  | .observer o => [o]
  | .chain members => listOf members

def listOf : List (Chain τ) → List τ
  | [] => []
  | member :: rest => member.toList ++ listOf rest

end

end Chain

end Storyline
