/-! Step specifications. A specification is a sequence of nodes; a fork holds one alternative way to
go on, and two forks next to each other are two alternatives, not a chain. A deferred marker or a step
without an action ends its sequence: the builders drop whatever is declared after it. -/

namespace Storyline

/-- The description of the single step of a story whose whole body is one action. -/
def bodyStep : String := "$body$"

/-- A step without an action is pending: declared, not yet written. -/
structure Step (α : Type) where
  description : String
  action : Option α
  isFork : Bool := false
deriving Repr, DecidableEq

inductive Node (α : Type) where
  | step (step : Step α)
  | fork (alternative : List (Node α))
  | deferred
deriving Repr

abbrev Steps (α : Type) := List (Node α)

variable {α : Type}

instance : Inhabited (Node α) := ⟨.deferred⟩

namespace Step

def isPending (s : Step α) : Bool := s.action.isNone
def isBody (s : Step α) : Bool := s.description == bodyStep

end Step

namespace Node

/-- Nothing declared after such a node in its sequence is kept. -/
def terminates : Node α → Bool
  | .deferred => true
  | .step s => s.isPending
  | .fork _ => false

end Node

namespace Steps

def isTerminated (steps : Steps α) : Bool := steps.getLast?.any Node.terminates

/-- Adds a node at the end, unless the sequence has ended already. -/
def push (steps : Steps α) (node : Node α) : Steps α :=
  if steps.isTerminated then steps else steps ++ [node]

def append (steps : Steps α) (nodes : List (Node α)) : Steps α := nodes.foldl push steps

def ofNodes (nodes : List (Node α)) : Steps α := append [] nodes

def andThen (steps next : Steps α) : Steps α := append steps next

def andThenDeferred (steps : Steps α) : Steps α := push steps .deferred

/-- Marks the leading step, if the sequence starts with a step. -/
def markFork : Steps α → Steps α
  | .step s :: rest => .step { s with isFork := true } :: rest
  | steps => steps

def step (description : String) (action : α) : Steps α := [.step ⟨description, some action, false⟩]
def pending (description : String) : Steps α := [.step ⟨description, none, false⟩]
def deferred : Steps α := [.deferred]

end Steps

/-- An alternative, with its leading step marked as the start of a fork. -/
def Node.forkOf (alternative : Steps α) : Node α := .fork (Steps.markFork alternative)

/-- A fork group. One without alternatives is kept as an empty fork, for validation to find. -/
def Steps.fork (alternatives : List (Steps α)) : Steps α :=
  match alternatives with
  | [] => [.fork []]
  | _ => alternatives.map Node.forkOf

mutual

def Node.steps : Node α → List (Step α)
  | .step s => [s]
  | .fork alternative => Steps.steps alternative
  | .deferred => []

/-- The steps declared in a sequence, at any depth, in declaration order. -/
def Steps.steps : List (Node α) → List (Step α)
  | [] => []
  | node :: rest => node.steps ++ Steps.steps rest

end

end Storyline
