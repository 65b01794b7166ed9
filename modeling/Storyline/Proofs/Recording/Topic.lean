import Storyline.Proofs.Recording.Path

/-! A topic's records are the ones its trace tells: the first setup, and for each story the steps whose
visits were new. The stories share one list of known chains, from the topic's beginning to its end. -/

namespace Storyline

variable {α δ ω τ : Type}

namespace StoryTrace

def texted (st : StoryTrace) : List (String × Visit) := withTexts st.description st.visits

def draft (st : StoryTrace) : StoryDraft := ⟨st.description, newSteps st.visits⟩

section Concat

variable (description : String) (paths : List PathTrace) (p : PathTrace)

theorem setups_concat :
    (⟨description, paths ++ [p]⟩ : StoryTrace).setups =
      (⟨description, paths⟩ : StoryTrace).setups ++ p.setup.toList := by
  cases h : p.setup <;> simp [setups, h]

theorem visits_concat :
    (⟨description, paths ++ [p]⟩ : StoryTrace).visits =
      (⟨description, paths⟩ : StoryTrace).visits ++ p.visits := by
  simp [visits]

theorem texted_concat :
    (⟨description, paths ++ [p]⟩ : StoryTrace).texted =
      (⟨description, paths⟩ : StoryTrace).texted ++ withTexts description p.visits := by
  simp [texted, visits_concat, withTexts]

end Concat

end StoryTrace

namespace TopicTrace

def texted (t : TopicTrace) : List (String × Visit) := t.stories.flatMap (·.texted)

def ledger (t : TopicTrace) : Ledger := ⟨kept t.setups, t.stories.map (·.draft)⟩

end TopicTrace

theorem runSelectedPath_desk (b : Backend α δ ω) (notify : Notify τ ω) (suite : Suite α) (topic : Topic α)
    (story : Story α) (path : Path α) (s : Running τ ω) :
    (runSelectedPath b notify suite topic story path s).2.desk =
      (runPath b suite topic story path s.world s.desk).2.2 := by
  unfold runSelectedPath
  rcases runPath b suite topic story path s.world s.desk with ⟨_ | _, _, _⟩ <;> rfl

/-- All that a story's trace tells was sent through one scribe, and its visits are on record. -/
def Tells (channel : Nat) (past : List String) (st : StoryTrace) : Prop :=
  Logged channel past st.texted ∧ ∀ heard ∈ st.setups, heard.scribe = ⟨channel⟩

section Telling

variable (b : Backend α δ ω) (notify : Notify τ ω) (selection : Selection) (suite : Suite α) (topic : Topic α)
  (story : Story α) {name : String} {channel : Nat} {past : List String} {l : Ledger}

theorem paths_tell (paths : List (Path α)) (s : Running τ ω) (h : Telling name channel past l s.desk)
    (hscope : s.desk.recorder.scope = .scratch)
    (hstory : l.stories.getLast?.map (·.description) = some story.description) :
    let run := runSelectedPath b notify suite topic story
    let st : StoryTrace := ⟨story.description, pathTraces b suite topic (reached run paths s)⟩
    Telling name channel (knownAfter past (st.texted.map (·.1))) (l.tell st.setups st.visits)
      ((paths.forM run) s).2.desk ∧ Tells channel past st := by
  intro run st
  let trace (done : List (Path α × Running τ ω)) : StoryTrace :=
    ⟨story.description, pathTraces b suite topic done⟩
  have hloop := forM_reached run (fun done s =>
    Telling name channel (knownAfter past ((trace done).texted.map (·.1)))
      (l.tell (trace done).setups (trace done).visits) s.desk ∧
    s.desk.recorder.scope = .scratch ∧ Tells channel past (trace done)) ?_ paths s [] ?_
  · exact ⟨hloop.1, hloop.2.2⟩
  · rintro done path s ⟨htells, hscope, hlogged, hscribes⟩
    obtain ⟨htells', hscope', hlogged', hscribe⟩ := runPath_tells b suite topic story path s.world htells
      hscope (by rw [Ledger.tell_last, hstory])
    have hdone : trace (done ++ [(path, s)]) = ⟨story.description,
        (trace done).paths ++ [pathTrace b suite topic path s.world s.desk]⟩ := by
      simp [trace, pathTraces]
    rw [runSelectedPath_desk, hdone, StoryTrace.visits_concat, StoryTrace.setups_concat,
      StoryTrace.texted_concat, Tells, StoryTrace.texted_concat, StoryTrace.setups_concat, logged_append,
      ← Ledger.tell_tell, List.map_append, knownAfter_append]
    refine ⟨?_, hscope', ⟨hlogged, hlogged'⟩, ?_⟩
    · simpa [withTexts, Function.comp_def] using htells'
    · intro heard hmem
      rcases List.mem_append.1 hmem with hmem | hmem
      · exact hscribes heard hmem
      · exact hscribe heard (by simpa using hmem)
  · refine ⟨?_, hscope, trivial, by simp [trace, pathTraces, StoryTrace.setups]⟩
    simpa [trace, pathTraces, StoryTrace.texted, StoryTrace.visits, StoryTrace.setups, withTexts] using h

theorem tell_begun (l : Ledger) (description : String) (setups : List Heard) (visits : List Visit) :
    ({ l with stories := l.stories ++ [{ description }] } : Ledger).tell setups visits =
      ⟨l.setup.or (kept setups), l.stories ++ [⟨description, newSteps visits⟩]⟩ := by
  simp [Ledger.tell, Ledger.add, StoryDraft.add]

theorem runStory_eq (s : Running τ ω) (h : ¬ story.isDeferred) :
    runStory b notify selection suite topic story s =
      ((story.paths.filter (selection.path ·.description)).forM (runSelectedPath b notify suite topic story)
        >>= fun _ => modify (Running.record (·.endStory)) : RunM τ ω Unit)
        ((s.announce notify (.story story.description false)).record (·.beginStory story.description)) := by
  simp only [runStory, if_neg h]
  rfl

theorem runStory_deferred (s : Running τ ω) (h : story.isDeferred) :
    runStory b notify selection suite topic story s =
      (.ok (), { s with
        summary := { s.summary with storiesDeferred := s.summary.storiesDeferred + 1 } }.announce notify
          (.story story.description true)) := by
  simp only [runStory, if_pos h]
  rfl

theorem Records.endStory {d : Desk} (h : Records name channel past l d) :
    Records name channel past l (d.record (·.endStory)) where
  description := (Recorder.switch_description d.recorder .scratch).trans h.description
  isOpen := h.isOpen
  channel := h.channel
  past := (Recorder.switch_pastChains d.recorder .scratch).trans h.past
  ledger := (Recorder.ledger_switch d.recorder .scratch).trans h.ledger

theorem Records.beginStory {d : Desk} (h : Records name channel past l d) (description : String) :
    Telling name channel past { l with stories := l.stories ++ [{ description }] }
      (d.record (·.beginStory description)) where
  description := (Recorder.switch_description d.recorder .scratch).trans h.description
  isOpen := h.isOpen
  channel := h.channel
  past := (Recorder.switch_pastChains d.recorder .scratch).trans h.past
  ledger := (Recorder.ledger_beginStory d.recorder description).trans (by rw [h.ledger])
  inStory := rfl

/-- A story adds one record to those before it. A deferred one adds none. -/
theorem runStory_tells (s : Running τ ω) (h : Records name channel past l s.desk) :
    let s' := (runStory b notify selection suite topic story s).2
    match storyTrace b notify selection suite topic story s with
    | none => Records name channel past l s'.desk
    | some st =>
        Records name channel (knownAfter past (st.texted.map (·.1)))
          ⟨l.setup.or (kept st.setups), l.stories ++ [st.draft]⟩ s'.desk ∧ Tells channel past st := by
  intro s'
  unfold storyTrace
  by_cases hdeferred : story.isDeferred
  · simp only [s', runStory_deferred b notify selection suite topic story s hdeferred, if_pos hdeferred]
    exact h
  · rw [if_neg hdeferred]
    obtain ⟨htelling, htells⟩ := paths_tell b notify suite topic story
      (story.paths.filter (selection.path ·.description))
      ((s.announce notify (.story story.description false)).record (·.beginStory story.description))
      (h.beginStory story.description) rfl (by simp)
    rw [tell_begun] at htelling
    refine ⟨?_, htells⟩
    simp only [s', runStory_eq b notify selection suite topic story s hdeferred]
    refine modify_preserves _ _ (fun s : Running τ ω => Records name channel _ _ s.desk) ?_ htelling.toRecords
    exact fun _ h => h.endStory

end Telling

/-- What is on record when a topic's stories are through, or a panic has ended them. -/
theorem topicTrace_tells (b : Backend α δ ω) (notify : Notify τ ω) (selection : Selection) (suite : Suite α)
    (topic : Topic α) (s : Running τ ω) :
    let t := topicTrace b notify selection suite topic s
    let channel := s.desk.channel + 1
    Records (topic.description ++ transcriptSuffix) channel (knownAfter [] (t.texted.map (·.1))) t.ledger
      t.desk ∧
    Logged channel [] t.texted ∧ ∀ heard ∈ t.setups, heard.scribe = ⟨channel⟩ := by
  intro t channel
  let tell := runStory b notify selection suite topic
  -- the desk of a trace is not part of its ledger
  let trace (done : List (Story α × Running τ ω)) : TopicTrace :=
    ⟨topic.description, storyTraces b notify selection suite topic done, s.desk⟩
  have hloop := forM_reached tell (fun done s =>
    Records (topic.description ++ transcriptSuffix) channel (knownAfter [] ((trace done).texted.map (·.1)))
      (trace done).ledger s.desk ∧
    Logged channel [] (trace done).texted ∧ ∀ heard ∈ (trace done).setups, heard.scribe = ⟨channel⟩)
    ?_ (selection.stories topic) (s.enterTopic notify topic) [] ?_
  · exact hloop
  · rintro done story s ⟨hrecording, hlogged, hscribes⟩
    have hstory := runStory_tells b notify selection suite topic story s hrecording
    dsimp only at hstory
    cases htrace : storyTrace b notify selection suite topic story s with
    | none =>
      rw [htrace] at hstory
      have hdone : trace (done ++ [(story, s)]) = trace done := by simp [trace, storyTraces, htrace]
      rw [hdone]
      exact ⟨hstory, hlogged, hscribes⟩
    | some st =>
      rw [htrace] at hstory
      obtain ⟨hstory, hlogged', hscribes'⟩ := hstory
      have hstories : (trace (done ++ [(story, s)])).stories = (trace done).stories ++ [st] := by
        simp [trace, storyTraces, htrace]
      have htexted : (trace (done ++ [(story, s)])).texted = (trace done).texted ++ st.texted := by
        simp [TopicTrace.texted, hstories]
      have hsetups : (trace (done ++ [(story, s)])).setups = (trace done).setups ++ st.setups := by
        simp [TopicTrace.setups, hstories]
      refine ⟨?_, ?_, ?_⟩
      · simpa [htexted, hstories, hsetups, TopicTrace.ledger, knownAfter_append, kept_append]
          using hstory
      · rw [htexted, logged_append]
        exact ⟨hlogged, hlogged'⟩
      · rw [hsetups]
        intro heard hmem
        exact (List.mem_append.1 hmem).elim (hscribes heard) (hscribes' heard)
  · exact ⟨⟨rfl, rfl, rfl, rfl, rfl⟩, trivial, by simp [trace, storyTraces, TopicTrace.setups]⟩

/-- The transcript of a topic holds what its trace tells, with the actions that are in the slots by then. -/
theorem topicTrace_transcript (b : Backend α δ ω) (notify : Notify τ ω) (selection : Selection)
    (suite : Suite α) (topic : Topic α) (s : Running τ ω) :
    let t := topicTrace b notify selection suite topic s
    t.transcript = ⟨topic.description ++ transcriptSuffix, t.ledger.setup.map (·.resolve t.desk.slots),
      t.ledger.stories.map (StoryDraft.resolve t.desk.slots)⟩ := by
  intro t
  obtain ⟨hrecording, -, -⟩ := topicTrace_tells b notify selection suite topic s
  rw [TopicTrace.transcript, Desk.transcript, Recorder.finish_eq, hrecording.description, hrecording.ledger]

end Storyline
