import Storyline.Proofs.Calls.Suite
import Storyline.Proofs.Containment

/-! What a run announces. A program says it from the suite and the selection alone, and whoever watches a run
without escaping panics is told just what is on it, whatever the drivers do and whatever the observers answer.
What is not selected is not on the program, and no driver is made for it. -/

namespace Storyline

variable {α δ ω τ : Type}

/-- What an event says of the suite, apart from how its paths have fared. -/
inductive Announcement where
  | topic (description : String)
  | story (description : String) (deferred : Bool)
  | path (story description : String)
  | transcript (description : String) (stories : List String)
  | finish
deriving Repr, DecidableEq

def Event.announcement : Event → Announcement
  | .topic description => .topic description
  | .story description deferred => .story description deferred
  | .path report => .path report.story report.description
  | .transcript t => .transcript t.description (t.stories.map (·.description))
  | .finish _ => .finish

namespace Selection

variable (selection : Selection)

/-- A deferred story is announced and no more; any other one is announced with its selected paths. -/
def storyProgram (story : Story α) : List Announcement :=
  if story.isDeferred then [.story story.description true]
  else .story story.description false ::
    (selection.paths story).map fun path => .path story.description path.reportedDescription

/-- A topic's transcript is announced with all of its stories that are told, also with those of which no path
is selected. -/
def topicProgram (topic : Topic α) : List Announcement :=
  match selection.stories topic with
  | [] => []
  | stories =>
      .topic topic.description :: stories.flatMap selection.storyProgram ++
        [.transcript (topic.description ++ transcriptSuffix)
          ((stories.filter (!·.isDeferred)).map (·.description))]

def program (suite : Suite α) : List Announcement :=
  suite.topics.flatMap selection.topicProgram ++ [.finish]

theorem topicProgram_eq {topic : Topic α} (h : selection.stories topic ≠ []) :
    selection.topicProgram topic =
      .topic topic.description :: (selection.stories topic).flatMap selection.storyProgram ++
        [.transcript (topic.description ++ transcriptSuffix)
          (((selection.stories topic).filter (!·.isDeferred)).map (·.description))] := by
  unfold topicProgram
  split
  · rename_i hnone
    exact absurd hnone h
  · rfl

end Selection

section Announced

variable (b : Backend α δ ω) (notify : Notify τ ω) (selection : Selection) (suite : Suite α) (topic : Topic α)
  (story : Story α) (s : Running τ ω)

theorem PathTurn.event?_announcement {t : PathTurn α ω} {report : PathReport}
    (h : t.result b suite = .ok report) :
    (t.event? b suite).map Event.announcement = some (.path t.story.description t.path.reportedDescription) := by
  have haccounts := t.accounts_of_result b suite h
  rw [PathTurn.event?, h, Option.map_some, Event.announcement, haccounts.story, haccounts.description]

theorem storyEvents_announced (h : (runStory b notify selection suite topic story s).1 = .ok ()) :
    (storyEvents b notify selection suite topic story s).map Event.announcement =
      selection.storyProgram story := by
  by_cases hdeferred : story.isDeferred
  · rw [storyEvents, storyTurns, if_pos hdeferred, hdeferred, Selection.storyProgram, if_pos hdeferred]
    rfl
  · have hreports : ∀ t ∈ storyTurns b notify selection suite topic story s,
        (t.event? b suite).map Event.announcement =
          some (.path t.story.description t.path.reportedDescription) := by
      intro t ht
      cases hresult : t.result b suite with
      | ok report => exact PathTurn.event?_announcement b suite hresult
      | error p =>
        rw [(runStory_error_iff b notify selection suite topic story s p).2 ⟨t, ht, hresult⟩] at h
        cases h
    have hplaces := congrArg (List.map fun place : Topic α × Story α × Path α =>
      Announcement.path place.2.1.description place.2.2.reportedDescription)
      (storyTurns_places b notify selection suite topic story s h)
    rw [List.map_map, List.map_map] at hplaces
    rw [storyEvents, List.map_cons, List.map_filterMap, List.filterMap_congr hreports,
      Selection.storyProgram, if_neg hdeferred]
    rw [Bool.not_eq_true] at hdeferred
    rw [Event.announcement, hdeferred, List.filterMap_eq_map']
    exact congrArg _ hplaces

theorem topicTrace_announced (h : (runTopic b notify selection suite topic s).1 = .ok ()) :
    (Event.transcript (topicTrace b notify selection suite topic s).transcript).announcement =
      .transcript (topic.description ++ transcriptSuffix)
        (((selection.stories topic).filter (!·.isDeferred)).map (·.description)) := by
  rw [runTopic_result] at h
  have htraces : (topicTrace b notify selection suite topic s).stories.map (·.description) =
      ((selection.stories topic).filter (!·.isDeferred)).map (·.description) := by
    rw [Story.map_undeferred]
    refine (List.map_filterMap ..).trans (filterMap_reached _ h fun turn _ _ => ?_)
    simp only [storyTrace]
    split <;> rfl
  rw [← htraces, topicTrace_transcript, Event.announcement, TopicTrace.ledger, List.map_map, List.map_map]
  rfl

theorem topicEvents_announced (h : (runTopic b notify selection suite topic s).1 = .ok ()) :
    (topicEvents b notify selection suite topic s).map Event.announcement = selection.topicProgram topic := by
  by_cases hnone : selection.stories topic = []
  · rw [topicEvents, if_pos hnone, Selection.topicProgram, hnone]
    rfl
  · have htranscript := topicTrace_announced b notify selection suite topic s h
    have hfinished := finishedTrace_of_ok b notify selection suite topic s hnone h
    rw [runTopic_result] at h
    have hstories : ((reached (runStory b notify selection suite topic) (selection.stories topic)
          (s.enterTopic notify topic)).flatMap fun turn =>
            (storyEvents b notify selection suite topic turn.1 turn.2).map Event.announcement) =
        (selection.stories topic).flatMap selection.storyProgram :=
      flatMap_reached _ h fun turn _ hok => storyEvents_announced b notify selection suite topic turn.1 turn.2 hok
    rw [topicEvents, if_neg hnone, selection.topicProgram_eq hnone, hfinished, ← hstories, ← htranscript]
    simp [List.map_flatMap, Event.announcement]

theorem suiteEvents_announced (observer : τ) (world : ω) {summary : Summary}
    (h : (runSuite b notify selection suite observer world).1 = .ok summary) :
    (suiteEvents b notify selection suite observer world).map Event.announcement = selection.program suite := by
  obtain ⟨s, htopics, -⟩ := runSuite_ok b notify selection suite h
  have hprograms : ((reached (runTopic b notify selection suite) suite.topics (.start observer world)).flatMap
        fun turn => (topicEvents b notify selection suite turn.1 turn.2).map Event.announcement) =
      suite.topics.flatMap selection.topicProgram :=
    flatMap_reached _ (congrArg Prod.fst htopics) fun turn _ hok =>
      topicEvents_announced b notify selection suite turn.1 turn.2 hok
  have hfinish : finishEvent? b notify selection suite observer world = some (.finish s.summary) := by
    rw [finishEvent?, htopics]
  rw [suiteEvents, hfinish, Selection.program, ← hprograms, List.map_append, List.map_flatMap]
  rfl

end Announced

/-- In a run that no panic escapes from, whoever watches it is told what is on the program, in its order and
to its end, whatever comes of the calls and whatever the observers answer. One driver is asked for in each
path that is selected; a topic of which nothing is selected leaves everything as it was, and so no driver is
asked for there. To write the calls down does not change the run. -/
theorem announced_as_programmed (b : Backend α δ ω) (notify : Notify τ ω) (selection : Selection)
    (suite : Suite α) (observer : τ) (world : ω)
    (hcontained : ∀ t ∈ suiteTurns b notify.keeping selection suite (observer, []) world,
      ∀ p, ¬ Escapes (t.calls b suite) p) :
    let run := runSuite b notify.keeping selection suite (observer, []) world
    let watched := runSuite b.watched notify.keeping.beside selection suite (observer, []) ([], world)
    (∃ summary, run.1 = .ok summary) ∧ run.2.told.map Event.announcement = selection.program suite ∧
    ((watched.1, watched.2.unwatched) = run ∧ watched.2.drivers = (selection.places suite).length) ∧
    ∀ topic ∈ suite.topics, selection.stories topic = [] →
      selection.topicProgram topic = [] ∧
      ∀ s, runTopic b.watched notify.keeping.beside selection suite topic s = (.ok (), s) := by
  intro run watched
  have hends : ∃ summary, run.1 = .ok summary := by
    refine (runSuite_ok_iff b notify.keeping selection suite (observer, []) world).2 fun t ht => ?_
    exact (t.result_ok_iff b suite).2 (hcontained t ht)
  have hwatched : (watched.1, watched.2.unwatched) = run :=
    runSuite_watched b notify.keeping selection suite (observer, []) [] world
  obtain ⟨summary, hok⟩ := hends
  have hok' : watched.1 = .ok summary := (congrArg Prod.fst hwatched).trans hok
  refine ⟨⟨summary, hok⟩, ?_, ⟨hwatched, ?_⟩, fun topic _ hnone => ⟨?_, fun s => ?_⟩⟩
  · have htold : run.2.told = suiteEvents b notify.keeping selection suite (observer, []) world :=
      told_runSuite b notify selection suite observer world
    rw [htold]
    exact suiteEvents_announced b notify.keeping selection suite (observer, []) world hok
  · exact drivers_runSuite b notify.keeping selection suite (observer, []) world hok'
  · rw [Selection.topicProgram, hnone]
  · exact runTopic_none b.watched notify.keeping.beside selection suite topic s hnone

namespace Rehearsal

/-- An observer that answers with an error every other time it is told something. -/
def grumbling : Notify Nat World := fun _ n world =>
  (if n % 2 = 0 then .ok () else .error ⟨.driver "gone", .library⟩, n + 1, world)

/-- Paths of which some are interrupted, in topics of which not all are selected. -/
def selective : Suite Script :=
  { topics := [
      { description := "T"
        stories := [
          ⟨"s", some ((Steps.step "a" []).andThen (Steps.fork [
            Steps.step "b" [.raise (.panic .other)], Steps.step "c" [], Steps.pending "d"]))⟩,
          ⟨"later", none⟩,
          ⟨"off", some (Steps.step "e" [])⟩,
          ⟨"last", some (Steps.step "f" [])⟩] },
      { description := "off", stories := [⟨"s", some (Steps.step "a" [])⟩] },
      { description := "U", stories := [⟨"off", none⟩] }] }

/-- What is called off is left out, and so are two of the paths. -/
def remaining : Selection := ⟨(· != "off"), (· != "off"), fun path => path != "a > c" && path != "f"⟩

theorem selective_announced :
    let run := runSuite backend grumbling.keeping remaining selective (0, []) {}
    let watched := runSuite backend.watched grumbling.keeping.beside remaining selective (0, []) ([], {})
    (∀ t ∈ suiteTurns backend grumbling.keeping remaining selective (0, []) {},
      ∀ p, ¬ Escapes (t.calls backend selective) p) ∧
    (∃ summary, run.1 = .ok summary) ∧
    run.2.told.map Event.announcement =
      [.topic "T", .story "s" false, .path "s" "a > b", .path "s" ("a > d" ++ deferredSuffix),
        .story "later" true, .story "last" false, .transcript ("T" ++ transcriptSuffix) ["s", "last"], .finish] ∧
    watched.2.drivers = 2 := by
  have hreports : ∀ t ∈ suiteTurns backend grumbling.keeping remaining selective (0, []) {},
      (t.result backend selective).isOk := by decide +kernel
  have hcontained : ∀ t ∈ suiteTurns backend grumbling.keeping remaining selective (0, []) {},
      ∀ p, ¬ Escapes (t.calls backend selective) p := by
    intro t ht
    refine (t.result_ok_iff backend selective).1 ?_
    have hreport := hreports t ht
    cases hresult : t.result backend selective with
    | ok report => exact ⟨report, rfl⟩
    | error p =>
      rw [hresult] at hreport
      cases hreport
  obtain ⟨hends, htold, ⟨-, hdrivers⟩, -⟩ :=
    announced_as_programmed backend grumbling remaining selective 0 {} hcontained
  refine ⟨hcontained, hends, htold.trans ?_, hdrivers.trans ?_⟩ <;> decide +kernel

end Rehearsal

end Storyline
