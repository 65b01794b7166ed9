import Storyline.Proofs.Calls.Protocol
import Storyline.Proofs.Turns

/-! The calls of a whole run. Two runs stay alike if their paths and their observers keep them so, and a run
that is watched stays like the one that is not. What the log of the calls shows of drivers is that one was
asked for in each turn, and no others. -/

namespace Storyline

variable {α β γ δ δ' ω ω' τ τ' ε σ : Type}

/-- What an event adds to the totals, apart from what is answered to it. -/
def Summary.count (s : Summary) : Event → Summary
  | .path report => s.record report
  | .story _ true => { s with storiesDeferred := s.storiesDeferred + 1 }
  | _ => s

/-- An event is counted, and then told. -/
def Running.tell (notify : Notify τ ω) (e : Event) (s : Running τ ω) : Running τ ω :=
  { s with summary := s.summary.count e }.announce notify e

/-- Two runs of one suite whose paths and observers keep the states alike, perhaps with drivers and observers
of different kinds. -/
structure RunLikens (b' : Backend α δ' ω') (notify' : Notify τ' ω') (b : Backend α δ ω) (notify : Notify τ ω)
    (suite : Suite α) (R : Running τ' ω' → Running τ ω → Prop) : Prop where
  desk : ∀ {s' s}, R s' s → s'.desk = s.desk
  reseat : ∀ (f : Desk → Desk) {s' s}, R s' s →
    R { s' with desk := f s'.desk } { s with desk := f s.desk }
  tell : ∀ (e : Event) {s' s}, R s' s → R (s'.tell notify' e) (s.tell notify e)
  path : ∀ (topic : Topic α) (story : Story α) (path : Path α),
    Likens R (runSelectedPath b' notify' suite topic story path) (runSelectedPath b notify suite topic story path)

namespace RunLikens

variable {b' : Backend α δ' ω'} {notify' : Notify τ' ω'} {b : Backend α δ ω} {notify : Notify τ ω}
  {suite : Suite α} {R : Running τ' ω' → Running τ ω → Prop} (h : RunLikens b' notify' b notify suite R)

include h

theorem record (f : Recorder → Recorder) {s' : Running τ' ω'} {s : Running τ ω} (hs : R s' s) :
    R (s'.record f) (s.record f) := h.reseat (·.record f) hs

theorem story (selection : Selection) (topic : Topic α) (story : Story α) :
    Likens R (runStory b' notify' selection suite topic story) (runStory b notify selection suite topic story) := by
  intro s' s hs
  by_cases hdeferred : story.isDeferred
  · rw [runStory_deferred b' notify' selection suite topic story s' hdeferred,
      runStory_deferred b notify selection suite topic story s hdeferred]
    exact ⟨rfl, h.tell (.story story.description true) hs⟩
  · rw [runStory_eq b' notify' selection suite topic story s' hdeferred,
      runStory_eq b notify selection suite topic story s hdeferred]
    have hpaths : Likens R
        ((selection.paths story).forM (runSelectedPath b' notify' suite topic story))
        ((selection.paths story).forM (runSelectedPath b notify suite topic story)) :=
      likens_forM fun path _ => h.path topic story path
    refine likens_bind hpaths (fun _ s' s hs => ⟨rfl, h.record (·.endStory) hs⟩) _ _ ?_
    exact h.record _ (h.tell (.story story.description false) hs)

theorem topic (selection : Selection) (topic : Topic α) :
    Likens R (runTopic b' notify' selection suite topic) (runTopic b notify selection suite topic) := by
  intro s' s hs
  by_cases hnone : selection.stories topic = []
  · rw [runTopic_none b' notify' selection suite topic s' hnone, runTopic_none b notify selection suite topic s hnone]
    exact ⟨rfl, hs⟩
  · rw [runTopic_eq b' notify' selection suite topic s' hnone, runTopic_eq b notify selection suite topic s hnone]
    have hstories : Likens R ((selection.stories topic).forM (runStory b' notify' selection suite topic))
        ((selection.stories topic).forM (runStory b notify selection suite topic)) :=
      likens_forM fun story _ => h.story selection topic story
    refine likens_bind hstories (fun _ s' s hs => ⟨rfl, ?_⟩) _ _ ?_
    · change R (s'.announce notify' (.transcript s'.desk.transcript)) _
      rw [h.desk hs]
      exact h.tell (.transcript s.desk.transcript) hs
    · exact h.reseat (·.startTopic topic.description) (h.tell (.topic topic.description) hs)

theorem topics (selection : Selection) :
    Likens R (suite.topics.forM (runTopic b' notify' selection suite))
      (suite.topics.forM (runTopic b notify selection suite)) :=
  likens_forM fun topic _ => h.topic selection topic

theorem run (selection : Selection) (hsummary : ∀ {s' s}, R s' s → s'.summary = s.summary)
    (observer' : τ') (observer : τ) (world' : ω') (world : ω)
    (hstart : R (.start observer' world') (.start observer world)) :
    let run' := runSuite b' notify' selection suite observer' world'
    let run := runSuite b notify selection suite observer world
    run'.1 = run.1 ∧ R run'.2 run.2 := by
  intro run' run
  obtain ⟨hresult, hstate⟩ := h.topics selection _ _ hstart
  simp only [run', run, runSuite_eq]
  rcases htopics' : (suite.topics.forM (runTopic b' notify' selection suite)) (.start observer' world')
    with ⟨r', s'⟩
  rcases htopics : (suite.topics.forM (runTopic b notify selection suite)) (.start observer world) with ⟨r, s⟩
  rw [htopics', htopics] at hresult hstate
  obtain rfl : r' = r := hresult
  cases r' with
  | error p => exact ⟨rfl, hstate⟩
  | ok _ =>
    have hfinished := h.tell (.finish s.summary) hstate
    dsimp only
    rw [hsummary hstate]
    exact ⟨congrArg Except.ok (hsummary hfinished), hfinished⟩

end RunLikens

section Invariant

variable (b : Backend α δ ω) (notify : Notify τ ω) (selection : Selection) (suite : Suite α)
  {P : Running τ ω → Prop} (hpath : ∀ s world desk, P s → P { s with world, desk })
  (htell : ∀ e s, P s → P (s.tell notify e))

include hpath htell

/-- What neither paths nor observers spoil makes a run like itself. -/
theorem invariant_runLikens : RunLikens b notify b notify suite fun s' s => s' = s ∧ P s where
  desk := by
    rintro s' _ ⟨rfl, -⟩
    rfl
  reseat := by
    rintro f s' _ ⟨rfl, h⟩
    exact ⟨rfl, hpath s' s'.world (f s'.desk) h⟩
  tell := by
    rintro e s' _ ⟨rfl, h⟩
    exact ⟨rfl, htell e s' h⟩
  path := by
    rintro topic story path s' _ ⟨rfl, h⟩
    refine ⟨rfl, rfl, ?_⟩
    unfold runSelectedPath
    rcases runPath b suite topic story path s'.world s'.desk with ⟨_ | report, world, desk⟩
    · exact hpath s' world desk h
    · exact htell (.path report) { s' with world, desk } (hpath s' world desk h)

theorem topics_keep {s : Running τ ω} (h : P s) :
    P ((suite.topics.forM (runTopic b notify selection suite)) s).2 :=
  ((invariant_runLikens b notify suite hpath htell).topics selection s s ⟨rfl, h⟩).2.2

theorem runSuite_keeps {observer : τ} {world : ω} (h : P (.start observer world)) :
    P (runSuite b notify selection suite observer world).2 := by
  have htopics := topics_keep b notify selection suite hpath htell h
  rw [runSuite_eq]
  rcases hrun : (suite.topics.forM (runTopic b notify selection suite)) (.start observer world)
    with ⟨_ | _, s⟩ <;> rw [hrun] at htopics
  · exact htopics
  · exact htell (.finish s.summary) s htopics

end Invariant

def Running.unwatched (s : Running τ (List (Called α) × ω)) : Running τ ω :=
  ⟨s.world.2, s.observer, s.desk, s.summary⟩

section Watched

variable (b : Backend α δ ω) (notify : Notify τ ω) (selection : Selection) (suite : Suite α)

theorem watched_runLikens :
    RunLikens b.watched notify.beside b notify suite fun s' s => s'.unwatched = s where
  desk := by
    rintro s' _ rfl
    rfl
  reseat := by
    rintro f s' _ rfl
    rfl
  tell := by
    rintro e s' _ rfl
    rfl
  path := by
    rintro topic story path s' _ rfl
    have hwatched := runPath_watched b suite topic story path s'.world.1 s'.world.2 s'.desk
    unfold runSelectedPath Running.unwatched
    dsimp only
    rw [← hwatched]
    rcases runPath b.watched suite topic story path s'.world s'.desk with ⟨_ | report, world, desk⟩ <;>
      exact ⟨rfl, rfl⟩

/-- A run that is watched comes out as it would by itself. -/
theorem runSuite_watched (observer : τ) (log : List (Called α)) (world : ω) :
    let watched := runSuite b.watched notify.beside selection suite observer (log, world)
    (watched.1, watched.2.unwatched) = runSuite b notify selection suite observer world := by
  intro watched
  obtain ⟨hresult, hstate⟩ := (watched_runLikens b notify suite).run selection
    (by rintro s' _ rfl; rfl) observer observer (log, world) world rfl
  exact Prod.ext hresult hstate

theorem forM_adds {f : β → ExceptT ε (StateM σ) Unit} (measure : σ → Nat) (added : β → List γ)
    (step : ∀ x s s', f x s = (.ok (), s') → measure s' = measure s + (added x).length) (xs : List β) {s s' : σ}
    (hok : (xs.forM f) s = (.ok (), s')) : measure s' = measure s + (xs.flatMap added).length := by
  induction xs generalizing s with
  | nil =>
    cases hok
    rfl
  | cons x xs ih =>
    rw [forM_cons] at hok
    rcases hf : f x s with ⟨_ | _, s₁⟩ <;> rw [hf] at hok
    · cases hok
    · have hhead := step x s s₁ hf
      have htail := ih hok
      rw [List.flatMap_cons, List.length_append]
      omega

def Running.drivers (s : Running τ (List (Called α) × ω)) : Nat := Storyline.drivers s.world.1

theorem drivers_runSelectedPath (topic : Topic α) (story : Story α) (path : Path α)
    (s : Running τ (List (Called α) × ω)) :
    (runSelectedPath b.watched notify.beside suite topic story path s).2.drivers = s.drivers + 1 := by
  obtain ⟨-, calls, hlog, hkeeps⟩ :=
    calls_keep_protocol b suite topic story path s.world.1 s.world.2 s.desk
  have hdrivers : drivers (runPath b.watched suite topic story path s.world s.desk).2.1.1 = s.drivers + 1 := by
    rw [hlog, drivers_append, hkeeps.made, Running.drivers]
  unfold runSelectedPath Running.drivers
  rcases hrun : runPath b.watched suite topic story path s.world s.desk with ⟨_ | report, world, desk⟩ <;>
    rw [hrun] at hdrivers <;> exact hdrivers

theorem drivers_runStory (topic : Topic α) (story : Story α) {s s' : Running τ (List (Called α) × ω)}
    (hok : runStory b.watched notify.beside selection suite topic story s = (.ok (), s')) :
    s'.drivers = s.drivers + (selection.paths story).length := by
  by_cases hdeferred : story.isDeferred
  · rw [runStory_deferred b.watched notify.beside selection suite topic story s hdeferred] at hok
    cases hok
    rw [Selection.paths, Story.paths_deferred hdeferred]
    rfl
  · rw [runStory_eq b.watched notify.beside selection suite topic story s hdeferred] at hok
    obtain ⟨_, s₁, hpaths, hended⟩ := bind_eq_ok hok
    cases hended
    have hadds := forM_adds Running.drivers (fun path => [path]) (fun path s s' hpath => by
      have hone := drivers_runSelectedPath b notify suite topic story path s
      rwa [hpath] at hone) _ hpaths
    rw [List.flatMap_singleton'] at hadds
    exact hadds

theorem drivers_runTopic (topic : Topic α) {s s' : Running τ (List (Called α) × ω)}
    (hok : runTopic b.watched notify.beside selection suite topic s = (.ok (), s')) :
    s'.drivers = s.drivers + ((selection.stories topic).flatMap selection.paths).length := by
  by_cases hnone : selection.stories topic = []
  · rw [runTopic_none b.watched notify.beside selection suite topic s hnone] at hok
    cases hok
    rw [hnone]
    rfl
  · rw [runTopic_eq b.watched notify.beside selection suite topic s hnone] at hok
    obtain ⟨_, s₁, hstories, htold⟩ := bind_eq_ok hok
    cases htold
    have hadds := forM_adds Running.drivers _ (fun story s s' hstory =>
      drivers_runStory b notify selection suite topic story hstory) _ hstories
    exact hadds

/-- A run that comes to its end has asked for one driver for each selected path. -/
theorem drivers_runSuite (observer : τ) (world : ω) {summary : Summary}
    (h : (runSuite b.watched notify.beside selection suite observer ([], world)).1 = .ok summary) :
    (runSuite b.watched notify.beside selection suite observer ([], world)).2.drivers =
      (selection.places suite).length := by
  obtain ⟨s, htopics, hrun⟩ := runSuite_ok b.watched notify.beside selection suite h
  have hadds := forM_adds Running.drivers _ (fun topic s s' htopic =>
    drivers_runTopic b notify selection suite topic htopic) _ htopics
  calc
    _ = s.drivers := by
      rw [hrun]
      rfl
    _ = (suite.topics.flatMap fun topic => (selection.stories topic).flatMap selection.paths).length := by
      rw [hadds]
      exact Nat.zero_add _
    _ = _ := by simp [Selection.places, List.length_flatMap]

end Watched

end Storyline
