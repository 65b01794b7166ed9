import Storyline.Proofs.Recording.Marks
import Storyline.Proofs.Recording.Suite

/-! The paths of a run in the order in which they have their turns, each with what it begins with, and what
is told meanwhile. A run comes to its end if no turn ends in a panic, and then every path that is selected
has had its turn. -/

namespace Storyline

variable {α δ ω τ : Type}

/-- A path that is run, with the world and the desk it begins with. -/
structure PathTurn (α ω : Type) where
  topic : Topic α
  story : Story α
  path : Path α
  world : ω
  desk : Desk

namespace PathTurn

def place (t : PathTurn α ω) : Topic α × Story α × Path α := (t.topic, t.story, t.path)

def result (t : PathTurn α ω) (b : Backend α δ ω) (suite : Suite α) : Except Panic PathReport :=
  (runPath b suite t.topic t.story t.path t.world t.desk).1

/-- What is told of a path, unless a panic ends the run. -/
def event? (t : PathTurn α ω) (b : Backend α δ ω) (suite : Suite α) : Option Event :=
  match t.result b suite with
  | .ok report => some (.path report)
  | .error _ => none

end PathTurn

namespace Selection

def paths (selection : Selection) (story : Story α) : List (Path α) :=
  story.paths.filter (selection.path ·.description)

/-- All paths that are to run, in declaration order. -/
def places (selection : Selection) (suite : Suite α) : List (Topic α × Story α × Path α) :=
  suite.topics.flatMap fun topic => (selection.stories topic).flatMap fun story =>
    (selection.paths story).map fun path => (topic, story, path)

end Selection

theorem Story.paths_deferred {story : Story α} (h : story.isDeferred) : story.paths = [] := by
  rw [paths, Option.isNone_iff_eq_none.1 h]
  rfl

theorem Story.map_undeferred {β : Type} (stories : List (Story α)) (f : Story α → β) :
    (stories.filter (!·.isDeferred)).map f =
      stories.filterMap fun story => if story.isDeferred then none else some (f story) := by
  rw [← List.filterMap_eq_map, List.filterMap_filter]
  refine List.filterMap_congr fun story _ => ?_
  cases story.isDeferred <;> rfl

def Running.enterStory (notify : Notify τ ω) (story : Story α) (s : Running τ ω) : Running τ ω :=
  (s.announce notify (.story story.description false)).record (·.beginStory story.description)

section Turns

variable (b : Backend α δ ω) (notify : Notify τ ω) (selection : Selection) (suite : Suite α)

def storyTurns (topic : Topic α) (story : Story α) (s : Running τ ω) : List (PathTurn α ω) :=
  if story.isDeferred then []
  else (reached (runSelectedPath b notify suite topic story) (selection.paths story)
    (s.enterStory notify story)).map fun (path, s) => ⟨topic, story, path, s.world, s.desk⟩

def topicTurns (topic : Topic α) (s : Running τ ω) : List (PathTurn α ω) :=
  (reached (runStory b notify selection suite topic) (selection.stories topic)
    (s.enterTopic notify topic)).flatMap fun (story, s) => storyTurns b notify selection suite topic story s

def suiteTurns (observer : τ) (world : ω) : List (PathTurn α ω) :=
  (reached (runTopic b notify selection suite) suite.topics (.start observer world)).flatMap
    fun (topic, s) => topicTurns b notify selection suite topic s

variable (topic : Topic α) (story : Story α) (path : Path α) (s : Running τ ω)

theorem runSelectedPath_result :
    (runSelectedPath b notify suite topic story path s).1 =
      ((⟨topic, story, path, s.world, s.desk⟩ : PathTurn α ω).result b suite).map fun _ => () := by
  unfold runSelectedPath PathTurn.result
  rcases runPath b suite topic story path s.world s.desk with ⟨_ | _, _, _⟩ <;> rfl

theorem runStory_result (h : ¬ story.isDeferred) :
    (runStory b notify selection suite topic story s).1 =
      (((selection.paths story).forM (runSelectedPath b notify suite topic story))
        (s.enterStory notify story)).1 := by
  rw [runStory_eq b notify selection suite topic story s h]
  exact bind_modify_result _ _ _

theorem runTopic_result :
    (runTopic b notify selection suite topic s).1 =
      (((selection.stories topic).forM (runStory b notify selection suite topic))
        (s.enterTopic notify topic)).1 := by
  by_cases hnone : selection.stories topic = []
  · rw [runTopic_none b notify selection suite topic s hnone, hnone]
    rfl
  · rw [runTopic_eq b notify selection suite topic s hnone]
    exact bind_modify_result _ _ _

theorem finishedTrace_of_ok (hne : selection.stories topic ≠ [])
    (hok : (runTopic b notify selection suite topic s).1 = .ok ()) :
    finishedTrace b notify selection suite topic s = some (topicTrace b notify selection suite topic s) := by
  rw [runTopic_result] at hok
  rw [finishedTrace, if_neg hne]
  split
  · rfl
  · rename_i herror
    rw [herror] at hok
    cases hok

theorem runSuite_eq (observer : τ) (world : ω) :
    runSuite b notify selection suite observer world =
      match (suite.topics.forM (runTopic b notify selection suite)) (.start observer world) with
      | (.error p, s) => (.error p, s)
      | (.ok _, s) =>
          (.ok (s.announce notify (.finish s.summary)).summary, s.announce notify (.finish s.summary)) := rfl

theorem runSuite_ok {observer : τ} {world : ω} {summary : Summary}
    (h : (runSuite b notify selection suite observer world).1 = .ok summary) :
    ∃ s, (suite.topics.forM (runTopic b notify selection suite)) (.start observer world) = (.ok (), s) ∧
      runSuite b notify selection suite observer world =
        (.ok (s.announce notify (.finish s.summary)).summary, s.announce notify (.finish s.summary)) := by
  rw [runSuite_eq] at h ⊢
  rcases hrun : (suite.topics.forM (runTopic b notify selection suite)) (.start observer world)
    with ⟨_ | _, s⟩ <;> rw [hrun] at h
  · cases h
  · exact ⟨s, rfl, rfl⟩

theorem runStory_error_iff (p : Panic) :
    (runStory b notify selection suite topic story s).1 = .error p ↔
      ∃ t ∈ storyTurns b notify selection suite topic story s, t.result b suite = .error p := by
  unfold storyTurns
  by_cases hdeferred : story.isDeferred
  · rw [runStory_deferred b notify selection suite topic story s hdeferred, if_pos hdeferred]
    constructor
    · intro h
      cases h
    · rintro ⟨t, ht, -⟩
      cases ht
  · have hpath (turn : Path α × Running τ ω) :
        (runSelectedPath b notify suite topic story turn.1 turn.2).1 = .error p ↔
          (⟨topic, story, turn.1, turn.2.world, turn.2.desk⟩ : PathTurn α ω).result b suite = .error p := by
      rw [runSelectedPath_result]
      cases PathTurn.result _ b suite <;> simp [Except.map]
    rw [runStory_result b notify selection suite topic story s hdeferred, forM_error_iff, if_neg hdeferred]
    simp only [hpath, List.mem_map, exists_exists_and_eq_and]

theorem runTopic_error_iff (p : Panic) :
    (runTopic b notify selection suite topic s).1 = .error p ↔
      ∃ t ∈ topicTurns b notify selection suite topic s, t.result b suite = .error p := by
  rw [runTopic_result, forM_error_iff]
  simp only [runStory_error_iff, topicTurns, List.mem_flatMap]
  exact ⟨fun ⟨turn, hturn, t, ht, hp⟩ => ⟨t, ⟨turn, hturn, ht⟩, hp⟩,
    fun ⟨t, ⟨turn, hturn, ht⟩, hp⟩ => ⟨turn, hturn, t, ht, hp⟩⟩

/-- A panic ends a run if it ends the turn of a path. -/
theorem runSuite_error_iff (observer : τ) (world : ω) (p : Panic) :
    (runSuite b notify selection suite observer world).1 = .error p ↔
      ∃ t ∈ suiteTurns b notify selection suite observer world, t.result b suite = .error p := by
  have hrun : (runSuite b notify selection suite observer world).1 = .error p ↔
      ((suite.topics.forM (runTopic b notify selection suite)) (.start observer world)).1 = .error p := by
    rw [runSuite_eq]
    rcases (suite.topics.forM (runTopic b notify selection suite)) (.start observer world) with ⟨_ | _, s⟩ <;> simp
  rw [hrun, forM_error_iff]
  simp only [runTopic_error_iff, suiteTurns, List.mem_flatMap]
  exact ⟨fun ⟨turn, hturn, t, ht, hp⟩ => ⟨t, ⟨turn, hturn, ht⟩, hp⟩,
    fun ⟨t, ⟨turn, hturn, ht⟩, hp⟩ => ⟨turn, hturn, t, ht, hp⟩⟩

/-- A run that comes to its end is one in which every turn comes to a report. -/
theorem runSuite_ok_iff (observer : τ) (world : ω) :
    (∃ summary, (runSuite b notify selection suite observer world).1 = .ok summary) ↔
      ∀ t ∈ suiteTurns b notify selection suite observer world, ∃ report, t.result b suite = .ok report := by
  have herror := runSuite_error_iff b notify selection suite observer world
  constructor
  · rintro ⟨summary, hok⟩ t ht
    cases hresult : t.result b suite with
    | error p => cases hok.symm.trans ((herror p).2 ⟨t, ht, hresult⟩)
    | ok report => exact ⟨report, rfl⟩
  · intro hreports
    cases hrun : (runSuite b notify selection suite observer world).1 with
    | error p =>
      obtain ⟨t, ht, hresult⟩ := (herror p).1 hrun
      obtain ⟨report, hreport⟩ := hreports t ht
      cases hreport.symm.trans hresult
    | ok summary => exact ⟨summary, rfl⟩

theorem storyTurns_places (h : (runStory b notify selection suite topic story s).1 = .ok ()) :
    (storyTurns b notify selection suite topic story s).map (·.place) =
      (selection.paths story).map fun path => (topic, story, path) := by
  unfold storyTurns
  by_cases hdeferred : story.isDeferred
  · simp [if_pos hdeferred, Selection.paths, Story.paths_deferred hdeferred]
  · rw [runStory_result b notify selection suite topic story s hdeferred] at h
    conv_rhs => rw [← reached_all _ _ _ h]
    simp [if_neg hdeferred, PathTurn.place]

theorem topicTurns_places (h : (runTopic b notify selection suite topic s).1 = .ok ()) :
    (topicTurns b notify selection suite topic s).map (·.place) =
      (selection.stories topic).flatMap fun story =>
        (selection.paths story).map fun path => (topic, story, path) := by
  rw [runTopic_result] at h
  rw [topicTurns, List.map_flatMap]
  exact flatMap_reached _ h fun turn _ => storyTurns_places b notify selection suite topic turn.1 turn.2

/-- In a run that comes to its end every selected path has its turn. -/
theorem suiteTurns_places (observer : τ) (world : ω) {summary : Summary}
    (h : (runSuite b notify selection suite observer world).1 = .ok summary) :
    (suiteTurns b notify selection suite observer world).map (·.place) = selection.places suite := by
  obtain ⟨s, hrun, -⟩ := runSuite_ok b notify selection suite h
  have hok : ((suite.topics.forM (runTopic b notify selection suite)) (.start observer world)).1 = .ok () :=
    congrArg Prod.fst hrun
  rw [suiteTurns, List.map_flatMap]
  exact flatMap_reached _ hok fun turn _ => topicTurns_places b notify selection suite turn.1 turn.2

def PathTurn.Declared (t : PathTurn α ω) (suite : Suite α) : Prop :=
  t.topic ∈ suite.topics ∧ t.story ∈ t.topic.stories ∧ t.path ∈ t.story.paths

section Invariant

variable {P : ω → Prop}
  (hpath : ∀ t : PathTurn α ω, t.Declared suite → P t.world →
    P (runPath b suite t.topic t.story t.path t.world t.desk).2.1)
  (hnotify : ∀ e o w, P w → P (notify e o w).2.2)

include hpath hnotify

theorem storyTurns_invariant (htopic : topic ∈ suite.topics) (hstory : story ∈ topic.stories)
    (h : P s.world) :
    P (runStory b notify selection suite topic story s).2.world ∧
      ∀ t ∈ storyTurns b notify selection suite topic story s, t.Declared suite ∧ P t.world := by
  by_cases hdeferred : story.isDeferred
  · rw [runStory_deferred b notify selection suite topic story s hdeferred, storyTurns, if_pos hdeferred]
    exact ⟨hnotify _ _ _ h, fun t ht => nomatch ht⟩
  · have hstep : ∀ path ∈ selection.paths story, ∀ s : Running τ ω, P s.world →
        P (runSelectedPath b notify suite topic story path s).2.world := by
      intro path hmem s hs
      have hrun := hpath ⟨topic, story, path, s.world, s.desk⟩ ⟨htopic, hstory, (List.mem_filter.1 hmem).1⟩ hs
      unfold runSelectedPath
      dsimp only at hrun
      rcases hr : runPath b suite topic story path s.world s.desk with ⟨_ | report, world, desk⟩ <;>
        rw [hr] at hrun
      · exact hrun
      · exact hnotify _ _ _ hrun
    obtain ⟨hlast, hturns⟩ := forM_invariant _ (fun s => P s.world) (selection.paths story)
      (s := s.enterStory notify story) hstep (hnotify _ _ _ h)
    rw [runStory_eq b notify selection suite topic story s hdeferred, storyTurns, if_neg hdeferred]
    refine ⟨modify_preserves _ (Running.record (·.endStory)) (fun s : Running τ ω => P s.world)
      (fun _ hs => hs) hlast, List.forall_mem_map.2 fun turn hturn => ?_⟩
    exact ⟨⟨htopic, hstory, (List.mem_filter.1 (mem_of_reached hturn)).1⟩, hturns turn hturn⟩

theorem topicTurns_invariant (htopic : topic ∈ suite.topics) (h : P s.world) :
    P (runTopic b notify selection suite topic s).2.world ∧
      ∀ t ∈ topicTurns b notify selection suite topic s, t.Declared suite ∧ P t.world := by
  by_cases hnone : selection.stories topic = []
  · rw [runTopic_none b notify selection suite topic s hnone, topicTurns, hnone]
    exact ⟨h, fun t ht => nomatch ht⟩
  · have hstep (story : Story α) (hmem : story ∈ selection.stories topic) (s : Running τ ω) (hs : P s.world) :=
      storyTurns_invariant b notify selection suite topic story s hpath hnotify htopic
        ((selected_sublist selection topic).subset hmem) hs
    obtain ⟨hlast, hturns⟩ := forM_invariant (runStory b notify selection suite topic)
      (fun s => P s.world) (selection.stories topic) (s := s.enterTopic notify topic)
      (fun story hmem s hs => (hstep story hmem s hs).1) (hnotify _ _ _ h)
    rw [runTopic_eq b notify selection suite topic s hnone]
    refine ⟨modify_preserves _ _ (fun s : Running τ ω => P s.world) (fun _ hs => hnotify _ _ _ hs) hlast,
      fun t ht => ?_⟩
    obtain ⟨turn, hturn, ht⟩ := List.mem_flatMap.1 ht
    exact (hstep turn.1 (mem_of_reached hturn) turn.2 (hturns turn hturn)).2 t ht

/-- What neither paths nor observers spoil of the world holds at every turn. -/
theorem suiteTurns_invariant (observer : τ) {world : ω} (h : P world) :
    ∀ t ∈ suiteTurns b notify selection suite observer world, t.Declared suite ∧ P t.world := by
  intro t ht
  have hstep (topic : Topic α) (hmem : topic ∈ suite.topics) (s : Running τ ω) (hs : P s.world) :=
    topicTurns_invariant b notify selection suite topic s hpath hnotify hmem hs
  obtain ⟨-, hturns⟩ := forM_invariant (runTopic b notify selection suite) (fun s => P s.world) suite.topics
    (s := .start observer world) (fun topic hmem s hs => (hstep topic hmem s hs).1) h
  obtain ⟨turn, hturn, ht⟩ := List.mem_flatMap.1 ht
  exact (hstep turn.1 (mem_of_reached hturn) turn.2 (hturns turn hturn)).2 t ht

end Invariant

end Turns

end Storyline
