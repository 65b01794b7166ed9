import Storyline.Error
import Storyline.Path

/-! Stories, topics and the suite that holds them. A topic is declared as a whole: if one of its
stories has a dead branch, the topic is refused and the suite stays as it was. -/

namespace Storyline

variable {α : Type}

/-- A story without a specification is deferred. -/
structure Story (α : Type) where
  description : String
  spec : Option (Steps α)
deriving Repr

structure Topic (α : Type) where
  description : String
  stories : List (Story α) := []
  before : Option α := none
  after : Option α := none
deriving Repr

structure Suite (α : Type) where
  topics : List (Topic α) := []
  beforeEach : Option α := none
  afterEach : Option α := none
deriving Repr

mutual

def Node.hasEmptyFork : Node α → Bool
  | .fork alternative => alternative.isEmpty || Steps.hasEmptyFork alternative
  | _ => false

def Steps.hasEmptyFork : List (Node α) → Bool
  | [] => false
  | node :: rest => node.hasEmptyFork || Steps.hasEmptyFork rest

end

namespace Story

def isDeferred (s : Story α) : Bool := s.spec.isNone

def paths (s : Story α) : List (Path α) := (s.spec.map Steps.paths).getD []

def validate (s : Story α) : Except StoryFault Unit :=
  match s.spec with
  | none => .ok ()
  | some spec =>
      if spec.isEmpty then .error (.emptyStory s.description)
      else if Steps.hasEmptyFork spec then .error (.emptyForkGroup s.description)
      else .ok ()

def ofBody (description : String) (action : α) : Story α :=
  ⟨description, some (Steps.step bodyStep action)⟩

end Story

/-- What a topic's body may declare. -/
inductive Declaration (α : Type) where
  | story (description : String) (spec : Steps α)
  | body (description : String) (action : α)
  | deferred (description : String)
  | before (hook : α)
  | after (hook : α)

namespace Topic

/-- Stories keep their order; of two hooks of one kind the later one stands. -/
def declare (topic : Topic α) : Declaration α → Topic α
  | .story description spec => { topic with stories := topic.stories ++ [⟨description, some spec⟩] }
  | .body description action => { topic with stories := topic.stories ++ [.ofBody description action] }
  | .deferred description => { topic with stories := topic.stories ++ [⟨description, none⟩] }
  | .before hook => { topic with before := some hook }
  | .after hook => { topic with after := some hook }

def ofDeclarations (description : String) (body : List (Declaration α)) : Topic α :=
  body.foldl declare { description }

/-- The first story at fault decides. -/
def validate (topic : Topic α) : Except StoryFault Unit := topic.stories.forM Story.validate

end Topic

namespace Suite

def topic (suite : Suite α) (description : String) (body : List (Declaration α)) :
    Except Error (Suite α) :=
  let topic := Topic.ofDeclarations description body
  match topic.validate with
  | .ok () => .ok { suite with topics := suite.topics ++ [topic] }
  | .error fault => .error (.story fault)

/-- Declares topics one after another and tells how each fared. A refused topic is left out. -/
def declareAll (suite : Suite α) :
    List (String × List (Declaration α)) → Suite α × List (Except Error Unit)
  | [] => (suite, [])
  | (description, body) :: rest =>
      match suite.topic description body with
      | .ok suite' =>
          let (final, results) := suite'.declareAll rest
          (final, .ok () :: results)
      | .error e =>
          let (final, results) := suite.declareAll rest
          (final, .error e :: results)

end Suite

end Storyline
