import Storyline.Proofs.Building
import Storyline.Proofs.Transcription
import Mathlib.Data.List.Flatten

/-! Validation finds the dead branches, and nothing else is in the way of a path: a story passes if and only
if its specification and every alternative in it have paths. Then the outline is a part of what the paths
come to, so no declared step is out of reach. Of topics that are declared one after another a suite holds
those whose stories all pass. -/

namespace Storyline

variable {α γ δ : Type}

mutual

def Node.alternatives : Node α → List (Steps α)
  | .fork alternative => alternative :: Steps.alternatives alternative
  | _ => []

def Steps.alternatives : List (Node α) → List (Steps α)
  | [] => []
  | node :: rest => node.alternatives ++ Steps.alternatives rest

end

namespace Steps

theorem hasEmptyFork_iff (nodes : List (Node α)) : hasEmptyFork nodes ↔ [] ∈ alternatives nodes := by
  induction nodes using alternatives.induct
    (motive_1 := fun node => node.hasEmptyFork ↔ [] ∈ node.alternatives) with
  | case1 alternative ih =>
    rw [Node.hasEmptyFork, Node.alternatives, Bool.or_eq_true, List.isEmpty_iff, ih, List.mem_cons,
      eq_comm]
  | case2 node h => cases node <;> simp_all [Node.hasEmptyFork, Node.alternatives]
  | case3 => simp [hasEmptyFork, alternatives]
  | case4 node rest ih ihrest => simp [hasEmptyFork, alternatives, ih, ihrest]

theorem alternatives_subset (nodes : List (Node α)) :
    ∀ part ∈ alternatives nodes, alternatives part ⊆ alternatives nodes := by
  induction nodes using alternatives.induct
    (motive_1 := fun node => ∀ part ∈ node.alternatives, alternatives part ⊆ node.alternatives) with
  | case1 alternative ih part hpart =>
    rw [Node.alternatives] at hpart ⊢
    rcases List.mem_cons.1 hpart with rfl | hpart
    · exact List.subset_cons_self _ _
    · exact List.subset_cons_of_subset _ (ih part hpart)
  | case2 node h => cases node <;> simp_all [Node.alternatives]
  | case3 => simp [alternatives]
  | case4 node rest ih ihrest =>
    intro part hpart
    rw [alternatives] at hpart ⊢
    rcases List.mem_append.1 hpart with hpart | hpart
    · exact List.subset_append_of_subset_left _ (ih part hpart)
    · exact List.subset_append_of_subset_right _ (ihrest part hpart)

theorem paths_ne_nil {spec : Steps α} (hspec : spec ≠ []) (hforks : ¬ hasEmptyFork spec) : spec.paths ≠ [] := by
  rw [(paths_eq_routes spec).1]
  intro hnone
  exact routes_ne_nil spec hspec hforks (List.map_eq_nil_iff.1 hnone)

/-- The steps that lead to all routes come first on the first one. -/
theorem cons_flatMap_sublist {x : δ} {rs : List γ} (f : γ → List δ) (hrs : rs ≠ []) :
    (x :: rs.flatMap f).Sublist (rs.flatMap fun r => x :: f r) := by
  obtain ⟨r, rs, rfl⟩ := List.exists_cons_of_ne_nil hrs
  have hlater : (rs.flatMap f).Sublist (rs.flatMap fun r => x :: f r) :=
    List.Sublist.flatMap_right rs fun r _ => List.sublist_cons_self x (f r)
  rw [List.flatMap_cons, List.flatMap_cons, List.cons_append]
  exact (hlater.append_left _).cons_cons x

/-- Without dead branches the routes come to every stop of the outline, in the outline's order. -/
theorem outline_sublist (nodes : List (Node α)) (before : List (Step α)) (hsealed : isSealed nodes)
    (hforks : ¬ hasEmptyFork nodes) : (outline before nodes).Sublist (routeStops before nodes) := by
  induction nodes using routes.induct
    (motive_1 := fun node => ∀ alternative, node = .fork alternative → ∀ before, isSealed alternative →
      ¬ hasEmptyFork alternative → (outline before alternative).Sublist (routeStops before alternative))
    generalizing before with
  | case1 alternative ih f hf before hsealed hforks =>
    cases hf
    exact ih before hsealed hforks
  | case2 node h f hf => exact (h f hf).elim
  | case3 => exact List.Sublist.slnil
  | case4 rest =>
    obtain rfl := (isSealed_cons.1 hsealed).1 rfl
    exact List.nil_sublist _
  | case5 alternative rest ihf ih =>
    obtain ⟨-, hfork, hrest⟩ := isSealed_cons.1 hsealed
    rw [Node.isSealed] at hfork
    simp only [hasEmptyFork, Node.hasEmptyFork, Bool.or_eq_true, not_or] at hforks
    have hsplit : routeStops before (.fork alternative :: rest) =
        routeStops before alternative ++ routeStops before rest := by
      simp [routeStops, routes, Node.routes]
    rw [hsplit, outline, Node.outline]
    exact (ihf alternative rfl before hfork hforks.1.2).append (ih before hrest hforks.2)
  | case6 s rest h =>
    obtain rfl := (isSealed_cons.1 hsealed).1 h
    simp [routeStops, routes, h, outline, stops, List.filterMap_cons]
  | case7 s rest h hrest =>
    obtain rfl := List.isEmpty_iff.1 hrest
    simp [routeStops, routes, h, outline, stops]
  | case8 s rest h hrest ih =>
    simp only [hasEmptyFork, Node.hasEmptyFork, Bool.false_or] at hforks
    have hroutes : routes rest ≠ [] := routes_ne_nil rest (by simpa using hrest) hforks
    have hsplit : routeStops before (.step s :: rest) = (routes rest).flatMap fun route =>
        ⟨before, s⟩ :: stops (before ++ [s]) (route.filterMap Entry.step?) := by
      simp [routeStops, routes, h, hrest, List.flatMap_map, stops]
    rw [hsplit, outline]
    have htail := ih (before ++ [s]) (isSealed_cons.1 hsealed).2.2 hforks
    exact (htail.cons_cons _).trans (cons_flatMap_sublist _ hroutes)

end Steps

namespace Story

def Built (story : Story α) : Prop := ∀ spec ∈ story.spec, spec.Built

/-- A story that is exercised as a whole. -/
structure Exercised (story : Story α) : Prop where
  runs : story.paths ≠ []
  /-- No declared step is out of reach. -/
  reached : ∀ s ∈ story.steps, ∃ path ∈ story.paths, s ∈ path.steps
  /-- Steps that are declared twice are reached twice, each after the steps that lead to it. -/
  outlined : story.outline.Sublist story.stops

variable {story : Story α}

/-- A story passes if and only if its specification and every alternative in it have paths. -/
theorem validate_ok_iff :
    story.validate = .ok () ↔ ∀ spec ∈ story.spec, ∀ part ∈ spec :: Steps.alternatives spec, part.paths ≠ [] := by
  cases hspec : story.spec with
  | none => simp [validate, hspec]
  | some spec =>
    have hvalid : story.validate = .ok () ↔ spec ≠ [] ∧ ¬ Steps.hasEmptyFork spec := by
      simp only [validate, hspec]
      by_cases hempty : spec = []
      · simp [hempty]
      · by_cases hforks : Steps.hasEmptyFork spec <;> simp [hempty, hforks]
    rw [hvalid]
    simp only [Option.mem_def, Option.some.injEq, forall_eq']
    constructor
    · rintro ⟨hne, hforks⟩
      refine List.forall_mem_cons.2 ⟨Steps.paths_ne_nil hne hforks, fun part hpart => ?_⟩
      rw [Steps.hasEmptyFork_iff] at hforks
      refine Steps.paths_ne_nil (ne_of_mem_of_not_mem hpart hforks) fun hdead => hforks ?_
      exact Steps.alternatives_subset spec part hpart ((Steps.hasEmptyFork_iff part).1 hdead)
    · intro hpaths
      refine ⟨?_, fun hforks => ?_⟩
      · rintro rfl
        exact hpaths [] List.mem_cons_self rfl
      · exact hpaths [] (List.mem_cons_of_mem _ ((Steps.hasEmptyFork_iff spec).1 hforks)) rfl

theorem exercised (hbuilt : story.Built) (hvalid : story.validate = .ok ()) (hdeferred : ¬ story.isDeferred) :
    story.Exercised := by
  cases hspec : story.spec with
  | none => exact absurd (by simp [isDeferred, hspec]) hdeferred
  | some spec =>
    have houtlined : story.outline.Sublist story.stops := by
      rw [outline, hspec, Option.map_some, Option.getD_some, stops_eq hspec]
      exact Steps.outline_sublist spec [] (Steps.built_iff_isSealed.1 (hbuilt spec hspec))
        (validate_forks hvalid hspec)
    refine ⟨?_, fun s hs => ?_, houtlined⟩
    · rw [paths, hspec, Option.map_some, Option.getD_some]
      exact validate_ok_iff.1 hvalid spec hspec spec List.mem_cons_self
    · rw [← story.outline_steps] at hs
      obtain ⟨stop, hstop, rfl⟩ := List.mem_map.1 hs
      obtain ⟨path, hpath, hstop⟩ := List.mem_flatMap.1 (houtlined.subset hstop)
      obtain ⟨taken, -, hprefix⟩ := mem_stops.1 hstop
      exact ⟨path, hpath, hprefix.subset (by simp)⟩

end Story

def Declaration.Built : Declaration α → Prop
  | .story _ spec => spec.Built
  | _ => True

namespace Topic

theorem ofDeclarations_built (description : String) {body : List (Declaration α)}
    (h : ∀ declaration ∈ body, declaration.Built) :
    ∀ story ∈ (ofDeclarations description body).stories, story.Built := by
  have hdeclare {topic : Topic α} {declaration : Declaration α} (htopic : ∀ story ∈ topic.stories, story.Built)
      (hdeclaration : declaration.Built) : ∀ story ∈ (topic.declare declaration).stories, story.Built := by
    cases declaration with
    | story description spec =>
      refine List.forall_mem_append.2 ⟨htopic, List.forall_mem_singleton.2 fun s hs => ?_⟩
      cases hs
      exact hdeclaration
    | body description action =>
      refine List.forall_mem_append.2 ⟨htopic, List.forall_mem_singleton.2 fun s hs => ?_⟩
      cases hs
      exact Steps.built_step bodyStep action
    | deferred description =>
      exact List.forall_mem_append.2 ⟨htopic, List.forall_mem_singleton.2 fun s hs => nomatch hs⟩
    | before hook => exact htopic
    | after hook => exact htopic
  have hfold (topic : Topic α) (htopic : ∀ story ∈ topic.stories, story.Built) :
      ∀ story ∈ (body.foldl declare topic).stories, story.Built := by
    induction body generalizing topic with
    | nil => exact htopic
    | cons declaration body ih =>
      obtain ⟨hfirst, hrest⟩ := List.forall_mem_cons.1 h
      exact ih hrest (topic.declare declaration) (hdeclare htopic hfirst)
  exact hfold { description } (List.forall_mem_nil _)

def isValid (topic : Topic α) : Bool := topic.validate.isOk

theorem isValid_iff {topic : Topic α} : topic.isValid ↔ topic.validate = .ok () := by
  rw [isValid]
  cases topic.validate <;> simp [Except.isOk, Except.toBool]

end Topic

namespace Suite

/-- A suite takes up the topics that are valid, in their order, and is otherwise left as it was. -/
theorem declareAll_eq (suite : Suite α) (declarations : List (String × List (Declaration α))) :
    let topics := declarations.map fun declared => Topic.ofDeclarations declared.1 declared.2
    suite.declareAll declarations = ({ suite with topics := suite.topics ++ topics.filter Topic.isValid },
      topics.map fun topic => topic.validate.mapError Error.story) := by
  induction declarations generalizing suite with
  | nil => simp [declareAll]
  | cons declared rest ih =>
    obtain ⟨description, body⟩ := declared
    cases hvalid : (Topic.ofDeclarations description body).validate with
    | ok _ => simp [declareAll, Suite.topic, hvalid, ih, Topic.isValid, Except.isOk, Except.toBool, Except.mapError]
    | error fault =>
      simp [declareAll, Suite.topic, hvalid, ih, Topic.isValid, Except.isOk, Except.toBool, Except.mapError]

end Suite

/-- Validation refuses dead branches and nothing else. A story that can be built passes if and only if it has
no specification, or its specification and every alternative in it have paths; then every declared step is on
one of its paths. Of topics that are declared one after another a suite holds those that are valid: whatever
it holds is deferred or exercised as a whole, and what is refused leaves nothing behind. -/
theorem dead_branches_refused :
    (∀ story : Story α, story.Built →
      (story.validate = .ok () ↔
        ∀ spec ∈ story.spec, ∀ part ∈ spec :: Steps.alternatives spec, part.paths ≠ []) ∧
      (story.validate = .ok () → story.isDeferred ∨ story.Exercised)) ∧
    ∀ (suite : Suite α) (declarations : List (String × List (Declaration α))), suite.topics = [] →
      (∀ declared ∈ declarations, ∀ declaration ∈ declared.2, declaration.Built) →
      let topics := declarations.map fun declared => Topic.ofDeclarations declared.1 declared.2
      let (declared, results) := suite.declareAll declarations
      declared = { suite with topics := topics.filter Topic.isValid } ∧
      results = topics.map (fun topic => topic.validate.mapError Error.story) ∧
      ∀ topic ∈ declared.topics, ∀ story ∈ topic.stories, story.isDeferred ∨ story.Exercised := by
  have hexercised (story : Story α) (hstory : story.Built) (hvalid : story.validate = .ok ()) :
      story.isDeferred ∨ story.Exercised := by
    by_cases hdeferred : story.isDeferred
    · exact .inl hdeferred
    · exact .inr (Story.exercised hstory hvalid hdeferred)
  refine ⟨fun story hstory => ⟨Story.validate_ok_iff, hexercised story hstory⟩, ?_⟩
  intro suite declarations hsuite hbuilt
  rw [Suite.declareAll_eq, hsuite, List.nil_append]
  refine ⟨rfl, rfl, fun topic htopic story hstory => ?_⟩
  obtain ⟨hmem, hvalid⟩ := List.mem_filter.1 htopic
  obtain ⟨declared, hdeclared, rfl⟩ := List.mem_map.1 hmem
  have hstories := Topic.ofDeclarations_built declared.1 (hbuilt declared hdeclared)
  exact hexercised story (hstories story hstory) (validate_stories (Topic.isValid_iff.1 hvalid) story hstory)

namespace Rehearsal

/-- A step that leads to a fork alone, of whose alternatives one begins with a fork. -/
def nested : Steps Script :=
  (Steps.step "a" [.pass 1]).andThen (Steps.fork [Steps.step "b" [],
    (Steps.fork [Steps.pending "c", Steps.step "d" []]).andThenDeferred])

/-- A fork of which one alternative leads nowhere. -/
def dead : Steps Script := (Steps.step "a" []).andThen (Steps.fork [Steps.step "b" [], Steps.fork []])

theorem dead_left_out :
    (Story.Exercised ⟨"s", some nested⟩ ∧ Story.validate ⟨"t", some dead⟩ ≠ .ok ()) ∧
    let (declared, results) := Suite.declareAll { beforeEach := some [.note "ready"] }
      [("T", [.story "s" nested, .deferred "later"]), ("U", [.body "whole" [], .story "t" dead]), ("V", [])]
    declared.topics.map (·.description) = ["T", "V"] ∧
    results = [.ok (), .error (.story (.emptyForkGroup "t")), .ok ()] ∧
    ∀ topic ∈ declared.topics, ∀ story ∈ topic.stories, story.isDeferred ∨ story.Exercised := by
  have hnested : nested.Built := by
    refine (Steps.built_step "a" _).andThen (.fork ?_)
    simp only [List.forall_mem_cons, List.not_mem_nil, false_imp_iff, implies_true, and_true]
    refine ⟨Steps.built_step "b" _, (Steps.Built.fork ?_).andThenDeferred⟩
    simp [Steps.built_pending, Steps.built_step]
  have hdead : dead.Built := by
    refine (Steps.built_step "a" _).andThen (.fork ?_)
    simp [Steps.built_step, Steps.Built.fork]
  obtain ⟨hstories, hsuites⟩ := dead_branches_refused (α := Script)
  have hdeclared := hsuites { beforeEach := some [.note "ready"] }
    [("T", [.story "s" nested, .deferred "later"]), ("U", [.body "whole" [], .story "t" dead]), ("V", [])] rfl
    (by simp [Declaration.Built, hnested, hdead])
  refine ⟨⟨?_, fun hvalid => ?_⟩, ?_, rfl, hdeclared.2.2⟩
  · obtain ⟨-, hpass⟩ := hstories ⟨"s", some nested⟩ (by rintro _ ⟨⟩; exact hnested)
    exact (hpass rfl).resolve_left (by decide)
  · obtain ⟨hvalidity, -⟩ := hstories ⟨"t", some dead⟩ (by rintro _ ⟨⟩; exact hdead)
    have hempty : [] ∈ Steps.alternatives dead := (Steps.hasEmptyFork_iff dead).1 rfl
    exact hvalidity.1 hvalid dead rfl [] (List.mem_cons_of_mem _ hempty) rfl
  · rfl

end Rehearsal

end Storyline
