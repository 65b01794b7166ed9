import Storyline.Steps

/-! The linear ways through a specification. A fork's paths come out where the fork is declared and
the walk then goes on from the steps before it, so every leaf of the tree ends exactly one path. -/

namespace Storyline

variable {α : Type}

inductive Entry (α : Type) where
  | step (step : Step α)
  | deferred
deriving Repr, DecidableEq

structure Path (α : Type) where
  entries : List (Entry α)
deriving Repr, DecidableEq

namespace Entry

def step? : Entry α → Option (Step α)
  | .step s => some s
  | .deferred => none

@[simp] theorem step?_step (s : Step α) : (Entry.step s).step? = some s := rfl
@[simp] theorem step?_deferred : (Entry.deferred : Entry α).step? = none := rfl

def isDeferred : Entry α → Bool
  | .step _ => false
  | .deferred => true

end Entry

namespace Path

def steps (p : Path α) : List (Step α) := p.entries.filterMap Entry.step?

def isDeferred (p : Path α) : Bool := p.entries.getLast?.any Entry.isDeferred

def startsWithBody (p : Path α) : Bool := (p.entries.head?.bind Entry.step?).any Step.isBody

/-- The steps' descriptions in order. A path that starts with a whole-body step has none. -/
def description (p : Path α) : String :=
  if p.startsWithBody then "" else " > ".intercalate (p.steps.map Step.description)

end Path

mutual

/-- The paths that end inside `node` when it is reached along `trail`. -/
def Node.walk (trail : List (Entry α)) : Node α → List (Path α)
  | .deferred => [⟨trail ++ [.deferred]⟩]
  | .fork alternative => Steps.walk trail alternative
  | .step s => if s.isPending then [⟨trail ++ [.step s, .deferred]⟩] else []

/-- The paths that go on from `trail` through a sequence, in declaration order. The node after the
current one decides whether the trail ends here, ends in a marker, or is carried on. -/
def Steps.walk (trail : List (Entry α)) : List (Node α) → List (Path α)
  | [] => []
  | node :: rest =>
      node.walk trail ++
        if node.terminates then [] else
          match node, rest with
          | .step s, [] => [⟨trail ++ [.step s]⟩]
          | .step s, .deferred :: _ => [⟨trail ++ [.step s, .deferred]⟩]
          | .step s, _ :: _ => Steps.walk (trail ++ [.step s]) rest
          | _, [] => []
          | _, .deferred :: _ => [⟨trail ++ [.deferred]⟩]
          | _, _ :: _ => Steps.walk trail rest

end

def Steps.paths (steps : Steps α) : List (Path α) := Steps.walk [] steps

end Storyline
