import Storyline.Proofs.Turns

/-! What a run tells those who watch it, from its turns: each story that is begun, with the report of every
path that had its turn to the end, and the transcript of each topic that comes to it. -/

namespace Storyline

variable {α δ ω τ β : Type}

def Event.report? : Event → Option PathReport
  | .path report => some report
  | _ => none

namespace Running

def told (s : Running (τ × List Event) ω) : List Event := s.observer.2

def reports (s : Running (τ × List Event) ω) : List PathReport := s.told.filterMap Event.report?

end Running

section Events

variable (b : Backend α δ ω) (notify : Notify τ ω) (selection : Selection) (suite : Suite α)

def storyEvents (topic : Topic α) (story : Story α) (s : Running τ ω) : List Event :=
  .story story.description story.isDeferred ::
    (storyTurns b notify selection suite topic story s).filterMap (·.event? b suite)

def topicEvents (topic : Topic α) (s : Running τ ω) : List Event :=
  if selection.stories topic = [] then []
  else
    .topic topic.description ::
      (reached (runStory b notify selection suite topic) (selection.stories topic)
        (s.enterTopic notify topic)).flatMap
          (fun (story, s) => storyEvents b notify selection suite topic story s) ++
      (finishedTrace b notify selection suite topic s).toList.map fun t => .transcript t.transcript

def finishEvent? (observer : τ) (world : ω) : Option Event :=
  match (suite.topics.forM (runTopic b notify selection suite)) (.start observer world) with
  | (.ok _, s) => some (.finish s.summary)
  | (.error _, _) => none

def suiteEvents (observer : τ) (world : ω) : List Event :=
  (reached (runTopic b notify selection suite) suite.topics (.start observer world)).flatMap
    (fun (topic, s) => topicEvents b notify selection suite topic s) ++
  (finishEvent? b notify selection suite observer world).toList

end Events

section Told

variable (b : Backend α δ ω) (notify : Notify τ ω) (selection : Selection) (suite : Suite α) (topic : Topic α)
  (s : Running (τ × List Event) ω)

theorem told_announce (e : Event) : (s.announce notify.keeping e).told = s.told ++ [e] := rfl

theorem told_forM (f : β → RunM (τ × List Event) ω Unit) (events : β × Running (τ × List Event) ω → List Event)
    (h : ∀ x s, (f x s).2.told = s.told ++ events (x, s)) (xs : List β) (s : Running (τ × List Event) ω) :
    ((xs.forM f) s).2.told = s.told ++ (reached f xs s).flatMap events := by
  have hloop := forM_reached f (fun done s' => s'.told = s.told ++ done.flatMap events) ?_ xs s []
    (List.append_nil _).symm
  · exact hloop
  · intro done x s' hdone
    rw [h, hdone, List.flatMap_append, List.flatMap_singleton, List.append_assoc]

theorem told_runSelectedPath (story : Story α) (path : Path α) :
    (runSelectedPath b notify.keeping suite topic story path s).2.told =
      s.told ++ ((⟨topic, story, path, s.world, s.desk⟩ : PathTurn α ω).event? b suite).toList := by
  unfold runSelectedPath PathTurn.event? PathTurn.result
  rcases runPath b suite topic story path s.world s.desk with ⟨_ | report, world, desk⟩
  · exact (List.append_nil _).symm
  · exact told_announce notify _ (.path report)

theorem told_runStory (story : Story α) :
    (runStory b notify.keeping selection suite topic story s).2.told =
      s.told ++ storyEvents b notify.keeping selection suite topic story s := by
  by_cases hdeferred : story.isDeferred
  · rw [runStory_deferred b notify.keeping selection suite topic story s hdeferred, storyEvents, storyTurns,
      if_pos hdeferred, hdeferred]
    exact told_announce notify _ _
  · have hpaths := told_forM (runSelectedPath b notify.keeping suite topic story)
      (fun turn => ((⟨topic, story, turn.1, turn.2.world, turn.2.desk⟩ : PathTurn α ω).event? b suite).toList)
      (fun path s => told_runSelectedPath b notify suite topic s story path)
      (selection.paths story) (s.enterStory notify.keeping story)
    have hevents : (reached (runSelectedPath b notify.keeping suite topic story) (selection.paths story)
        (s.enterStory notify.keeping story)).flatMap (fun turn =>
          ((⟨topic, story, turn.1, turn.2.world, turn.2.desk⟩ : PathTurn α ω).event? b suite).toList) =
        (storyTurns b notify.keeping selection suite topic story s).filterMap (·.event? b suite) := by
      rw [storyTurns, if_neg hdeferred, List.filterMap_map, List.filterMap_eq_flatMap_toList]
      rfl
    have hbegun : (s.enterStory notify.keeping story).told =
        s.told ++ [.story story.description story.isDeferred] := by
      rw [Bool.not_eq_true] at hdeferred
      rw [hdeferred]
      exact told_announce notify s _
    rw [hevents, hbegun, List.append_assoc] at hpaths
    rw [runStory_eq b notify.keeping selection suite topic story s hdeferred]
    refine modify_preserves _ _ (fun s' : Running (τ × List Event) ω =>
      s'.told = s.told ++ storyEvents b notify.keeping selection suite topic story s) ?_ hpaths
    exact fun _ h => h

/-- A topic tells its transcript if it comes to it, after its stories. -/
theorem told_runTopic :
    (runTopic b notify.keeping selection suite topic s).2.told =
      s.told ++ topicEvents b notify.keeping selection suite topic s := by
  by_cases hnone : selection.stories topic = []
  · rw [runTopic_none b notify.keeping selection suite topic s hnone, topicEvents, if_pos hnone]
    exact (List.append_nil _).symm
  · have hstories := told_forM (runStory b notify.keeping selection suite topic)
      (fun turn => storyEvents b notify.keeping selection suite topic turn.1 turn.2)
      (fun story s => told_runStory b notify selection suite topic s story)
      (selection.stories topic) (s.enterTopic notify.keeping topic)
    have hentered : (s.enterTopic notify.keeping topic).told = s.told ++ [.topic topic.description] := rfl
    rw [hentered, List.append_assoc] at hstories
    rw [runTopic_eq b notify.keeping selection suite topic s hnone, bind_modify, topicEvents, if_neg hnone,
      finishedTrace, if_neg hnone]
    rcases htold : ((selection.stories topic).forM (runStory b notify.keeping selection suite topic))
      (s.enterTopic notify.keeping topic) with ⟨_ | _, s'⟩ <;> rw [htold] at hstories
    · simpa using hstories
    · refine (told_announce notify s' (.transcript s'.desk.transcript)).trans ?_
      simp [hstories, TopicTrace.transcript, topicTrace, htold]

/-- Whoever watches a run is told what its turns tell, and last of all its summary. -/
theorem told_runSuite (observer : τ) (world : ω) :
    (runSuite b notify.keeping selection suite (observer, []) world).2.told =
      suiteEvents b notify.keeping selection suite (observer, []) world := by
  have htopics := told_forM (runTopic b notify.keeping selection suite)
    (fun turn => topicEvents b notify.keeping selection suite turn.1 turn.2)
    (fun topic s => told_runTopic b notify selection suite topic s) suite.topics (.start (observer, []) world)
  have hstart : (Running.start (observer, []) world : Running (τ × List Event) ω).told = [] := rfl
  rw [hstart, List.nil_append] at htopics
  rw [runSuite_eq]
  unfold suiteEvents finishEvent?
  rcases hrun : (suite.topics.forM (runTopic b notify.keeping selection suite)) (.start (observer, []) world)
    with ⟨_ | _, s⟩ <;> rw [hrun] at htopics
  · exact htopics.trans (List.append_nil _).symm
  · refine (told_announce notify s _).trans ?_
    rw [htopics]
    rfl

end Told

section Parts

variable (b : Backend α δ ω) (notify : Notify τ ω) (selection : Selection) (suite : Suite α)

theorem storyEvents_reports (topic : Topic α) (story : Story α) (s : Running τ ω) :
    (storyEvents b notify selection suite topic story s).filterMap Event.report? =
      (storyTurns b notify selection suite topic story s).filterMap fun t => (t.result b suite).toOption := by
  have hevent (t : PathTurn α ω) :
      (t.event? b suite).bind Event.report? = (t.result b suite).toOption := by
    unfold PathTurn.event?
    cases t.result b suite <;> rfl
  simp [storyEvents, List.filterMap_cons, Event.report?, List.filterMap_filterMap, hevent]

theorem topicEvents_reports (topic : Topic α) (s : Running τ ω) :
    (topicEvents b notify selection suite topic s).filterMap Event.report? =
      (topicTurns b notify selection suite topic s).filterMap fun t => (t.result b suite).toOption := by
  unfold topicEvents topicTurns
  split
  · rename_i hnone
    rw [hnone]
    rfl
  · simp [List.filterMap_cons, Event.report?, List.filterMap_flatMap, storyEvents_reports]

theorem storyEvents_transcripts (topic : Topic α) (story : Story α) (s : Running τ ω) :
    (storyEvents b notify selection suite topic story s).filterMap Event.transcript? = [] := by
  have hevent (t : PathTurn α ω) : (t.event? b suite).bind Event.transcript? = none := by
    unfold PathTurn.event?
    cases t.result b suite <;> rfl
  simp [storyEvents, List.filterMap_cons, Event.transcript?, List.filterMap_filterMap, hevent]

theorem topicEvents_transcripts (topic : Topic α) (s : Running τ ω) :
    (topicEvents b notify selection suite topic s).filterMap Event.transcript? =
      (finishedTrace b notify selection suite topic s).toList.map (·.transcript) := by
  unfold topicEvents
  split
  · rename_i hnone
    rw [finishedTrace, if_pos hnone]
    rfl
  · simp [List.filterMap_cons, Event.transcript?, List.filterMap_flatMap, storyEvents_transcripts,
      List.filterMap_map, Function.comp_def]

/-- What is picked from the events of a run comes from its topics, unless it is the end that is picked. -/
theorem filterMap_suiteEvents {pick : Event → Option β} (hpick : ∀ summary, pick (.finish summary) = none)
    (observer : τ) (world : ω) :
    (suiteEvents b notify selection suite observer world).filterMap pick =
      (reached (runTopic b notify selection suite) suite.topics (.start observer world)).flatMap
        fun (topic, s) => (topicEvents b notify selection suite topic s).filterMap pick := by
  have hfinish : (finishEvent? b notify selection suite observer world).toList.filterMap pick = [] := by
    unfold finishEvent?
    split <;> simp [hpick]
  rw [suiteEvents, List.filterMap_append, hfinish, List.append_nil, List.filterMap_flatMap]

/-- Whoever watches a run is told the transcripts of the topics that come to theirs, in order. -/
theorem told_transcripts (observer : τ) (world : ω) :
    (runSuite b notify.keeping selection suite (observer, []) world).2.transcripts =
      (suiteTrace b notify.keeping selection suite (observer, []) world).map (·.transcript) := by
  calc
    _ = (suiteEvents b notify.keeping selection suite (observer, []) world).filterMap Event.transcript? :=
      congrArg (List.filterMap _) (told_runSuite b notify selection suite observer world)
    _ = _ := by
      rw [filterMap_suiteEvents b notify.keeping selection suite fun _ => rfl]
      simp only [topicEvents_transcripts]
      rw [suiteTrace, finishedTraces, List.filterMap_eq_flatMap_toList, List.map_flatMap]

/-- Every turn is reported unless it ends in a panic, in order. -/
theorem told_reports (observer : τ) (world : ω) :
    (runSuite b notify.keeping selection suite (observer, []) world).2.reports =
      (suiteTurns b notify.keeping selection suite (observer, []) world).filterMap
        fun t => (t.result b suite).toOption := by
  calc
    _ = (suiteEvents b notify.keeping selection suite (observer, []) world).filterMap Event.report? :=
      congrArg (List.filterMap _) (told_runSuite b notify selection suite observer world)
    _ = _ := by
      rw [filterMap_suiteEvents b notify.keeping selection suite fun _ => rfl]
      simp only [topicEvents_reports, suiteTurns, List.filterMap_flatMap]

theorem forall₂_filterMap {β γ : Type} {R : β → γ → Prop} {f : β → Option γ} {xs : List β}
    (h : ∀ x ∈ xs, ∃ y, f x = some y ∧ R x y) : List.Forall₂ R xs (xs.filterMap f) := by
  induction xs with
  | nil => exact .nil
  | cons x xs ih =>
    obtain ⟨y, hy, hR⟩ := h x List.mem_cons_self
    rw [List.filterMap_cons_some hy]
    exact .cons hR (ih fun x' hx' => h x' (List.mem_cons_of_mem x hx'))

theorem reported_all (observer : τ) (world : ω) {summary : Summary}
    (h : (runSuite b notify.keeping selection suite (observer, []) world).1 = .ok summary) :
    List.Forall₂ (fun t report => t.result b suite = .ok report)
      (suiteTurns b notify.keeping selection suite (observer, []) world)
      (runSuite b notify.keeping selection suite (observer, []) world).2.reports := by
  rw [told_reports]
  refine forall₂_filterMap fun t ht => ?_
  obtain ⟨report, hresult⟩ := (runSuite_ok_iff b notify.keeping selection suite (observer, []) world).1
    ⟨summary, h⟩ t ht
  exact ⟨report, by rw [hresult]; rfl, hresult⟩

end Parts

end Storyline
