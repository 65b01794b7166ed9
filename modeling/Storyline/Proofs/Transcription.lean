import Storyline.Proofs.Events
import Storyline.Proofs.Outline

/-! What a clean run puts on record. Every path visits all of its steps, the visits that are new are the
stops that no path before came to, and so each story's record is the outline of its specification. -/

namespace Storyline

variable {α δ ω τ : Type}

def Outcome.isErrored : Outcome → Bool
  | .errored _ => true
  | _ => false

/-- The path is run to its end, and neither an error nor a panic comes up. -/
def PathTurn.isClean (t : PathTurn α ω) (b : Backend α δ ω) (suite : Suite α) : Bool :=
  match t.result b suite with
  | .ok report => !report.outcome.isErrored
  | .error _ => false

/-- What a visit has in common with all others along its chain. -/
def Visit.heading (v : Visit) : List String × Bool := (v.chain, v.isFork)

def Stop.heading (stop : Stop α) : List String × Bool := (stop.chain, stop.step.isFork)

section Visits

variable (b : Backend α δ ω) {suite : Suite α} {topic : Topic α} {story : Story α} {path : Path α}

theorem visitsFrom_headings (before : List (Step α)) (turns : List (Step α × Scene δ ω)) :
    (visitsFrom b (before.map (·.description)) turns).map Visit.heading =
      (stops before (turns.map (·.1))).map Stop.heading := by
  induction turns generalizing before with
  | nil => rfl
  | cons turn turns ih =>
    have htail := ih (before ++ [turn.1])
    rw [List.map_append, List.map_singleton] at htail
    rw [visitsFrom, List.map_cons, htail]
    rfl

theorem playTrace_headings {s : Scene δ ω} {deferred : Bool}
    (h : (Performing.playPath b suite topic path s).1 = .ok deferred) :
    (playTrace b suite topic path s).visits.map Visit.heading =
      (stops [] path.played).map Stop.heading := by
  have hplayed : Performing.playPath b suite topic path s =
      (.ok deferred, (Performing.playPath b suite topic path s).2) := Prod.ext h rfl
  rw [Performing.playPath_eq] at hplayed
  obtain ⟨_, s₁, henter, hplayed⟩ := bind_eq_ok hplayed
  obtain ⟨_, s₂, hsetup, hplayed⟩ := bind_eq_ok hplayed
  obtain ⟨_, s₃, hbegin, hplayed⟩ := bind_eq_ok hplayed
  obtain ⟨_, s₄, hvisits, -⟩ := bind_eq_ok hplayed
  cases hbegin
  simp only [playTrace, henter, hsetup]
  have hheadings := visitsFrom_headings b [] (reached (Performing.visit b) path.played (s₂.record (·.beginPath)))
  rw [reached_all _ _ _ (congrArg Prod.fst hvisits)] at hheadings
  exact hheadings

theorem pathTrace_headings (t : PathTurn α ω) (h : t.isClean b suite) :
    (pathTrace b suite t.topic t.path t.world t.desk).visits.map Visit.heading =
      (stops [] t.path.played).map Stop.heading := by
  unfold PathTurn.isClean PathTurn.result at h
  cases hmade : (b.make t.world t.desk.slots.next).result with
  | error p => simp [runPath, hmade] at h
  | ok driver =>
    simp only [runPath, hmade] at h
    simp only [pathTrace, hmade]
    rcases hplayed : Performing.playPath b suite t.topic t.path ⟨driver, (b.make t.world t.desk.slots.next).state,
      t.desk.takeAll (b.make t.world t.desk.slots.next).sent⟩ with ⟨(e | p) | deferred, s⟩ <;>
      rw [hplayed] at h
    · simp [Performing.conclude, Except.map, Outcome.isErrored] at h
    · simp [Performing.conclude, Except.map, Outcome.isErrored] at h
    · exact playTrace_headings b (congrArg Prod.fst hplayed)

end Visits

theorem Steps.routes_played (nodes : List (Node α)) :
    ∀ route ∈ routes nodes, (Path.mk route).played = route.filterMap Entry.step? := by
  have hstep (s : Step α) (route : List (Entry α)) :
      (Path.mk (.step s :: route)).played = s :: (Path.mk route).played := by
    simp [Path.played, Entry.isDeferred]
  induction nodes using routes.induct
    (motive_1 := fun node => ∀ route ∈ node.routes, (Path.mk route).played = route.filterMap Entry.step?) with
  | case1 alternative ih route hroute => exact ih route (by simpa [Node.routes] using hroute)
  | case2 node h => cases node <;> simp_all [Node.routes]
  | case3 => simp [routes]
  | case4 rest => simp [routes, Path.played, Entry.isDeferred, List.filterMap_cons]
  | case5 alternative rest ihf ih =>
    simp only [routes, List.forall_mem_append]
    exact ⟨ihf, ih⟩
  | case6 s rest h => simp [routes, h, Path.played, Entry.isDeferred, List.filterMap_cons]
  | case7 s rest h hrest => simp [routes, h, hrest, Path.played, Entry.isDeferred]
  | case8 s rest h hrest ih =>
    intro route hroute
    simp only [routes, h, hrest] at hroute
    obtain ⟨tail, htail, rfl⟩ := List.mem_map.1 hroute
    rw [hstep, ih tail htail, List.filterMap_cons, Entry.step?_step]

namespace Story

def outline (story : Story α) : List (Stop α) := (story.spec.map (Steps.outline [])).getD []

def stops (story : Story α) : List (Stop α) := story.paths.flatMap fun path => Storyline.stops [] path.steps

variable {story : Story α}

theorem paths_eq {spec : Steps α} (h : story.spec = some spec) :
    story.paths = (Steps.routes spec).map Path.mk := by
  rw [paths, h, Option.map_some, Option.getD_some, (Steps.paths_eq_routes spec).1]

theorem stops_eq {spec : Steps α} (h : story.spec = some spec) :
    story.stops = Steps.routeStops [] spec := by
  rw [stops, paths_eq h, List.flatMap_map]
  rfl

theorem played_eq {path : Path α} (h : path ∈ story.paths) : path.played = path.steps := by
  cases hspec : story.spec with
  | none =>
    rw [paths, hspec] at h
    cases h
  | some spec =>
    rw [paths_eq hspec] at h
    obtain ⟨route, hroute, rfl⟩ := List.mem_map.1 h
    exact Steps.routes_played spec route hroute

end Story

/-- A topic whose steps can be told apart by what is written of them. -/
structure Topic.Legible (topic : Topic α) : Prop extends topic.Plain where
  valid : topic.validate = .ok ()
  /-- Building a specification keeps it sealed: `Steps.isSealed_append`, `Steps.isSealed_fork`. -/
  sealed : ∀ story ∈ topic.stories, ∀ spec ∈ story.spec, Steps.isSealed spec
  choices : ∀ story ∈ topic.stories, ∀ spec ∈ story.spec, spec.Apart

structure Selection.All (selection : Selection) (topic : Topic α) : Prop where
  entered : selection.topic topic.description
  stories : ∀ story ∈ topic.stories, selection.story story.description
  paths : ∀ story ∈ topic.stories, ∀ path ∈ story.paths, selection.path path.description

theorem Selection.All.stories_eq {selection : Selection} {topic : Topic α} (h : selection.All topic) :
    selection.stories topic = topic.stories := by
  rw [Selection.stories, if_pos h.entered]
  exact List.filter_eq_self.2 h.stories

section Legible

variable {topic : Topic α} {story : Story α}

theorem validate_stories (h : topic.validate = .ok ()) : ∀ story ∈ topic.stories, story.validate = .ok () := by
  unfold Topic.validate at h
  generalize topic.stories = stories at h ⊢
  induction stories with
  | nil => simp
  | cons story stories ih =>
    rw [List.forM_eq_forM, List.forM_cons] at h
    cases hvalid : story.validate with
    | error fault =>
      rw [hvalid] at h
      cases h
    | ok _ =>
      rw [hvalid] at h
      exact List.forall_mem_cons.2 ⟨hvalid, ih h⟩

theorem validate_forks {spec : Steps α} (h : story.validate = .ok ()) (hspec : story.spec = some spec) :
    ¬ Steps.hasEmptyFork spec := by
  intro hforks
  simp only [Story.validate, hspec, hforks, if_true] at h
  split at h <;> cases h

/-- The stops of a story that are new, one path after another, are its outline. -/
theorem Topic.Legible.firsts_stops (h : topic.Legible) (hstory : story ∈ topic.stories) :
    firsts Stop.chain [] story.stops = story.outline := by
  cases hspec : story.spec with
  | none =>
    rw [Story.stops, Story.paths, Story.outline, hspec]
    rfl
  | some spec =>
    rw [Story.stops_eq hspec, Story.outline, hspec, Option.map_some, Option.getD_some]
    exact Steps.firsts_routeStops spec [] [] (h.sealed story hstory spec hspec)
      (validate_forks (validate_stories h.valid story hstory) hspec) (h.choices story hstory spec hspec)
      fun _ _ => List.not_mem_nil

end Legible

section Stories

variable (b : Backend α δ ω) (notify : Notify τ ω) (selection : Selection) (suite : Suite α) (topic : Topic α)

/-- A story that is told without interruption is visited in all of its stops. -/
theorem storyTrace_headings {story : Story α} {s : Running τ ω} (hdeferred : ¬ story.isDeferred)
    (hselected : ∀ path ∈ story.paths, selection.path path.description)
    (hok : (runStory b notify selection suite topic story s).1 = .ok ())
    (hclean : ∀ t ∈ storyTurns b notify selection suite topic story s, t.isClean b suite) :
    (storyTrace b notify selection suite topic story s).map
        (fun st => (st.description, st.visits.map Visit.heading)) =
      some (story.description, story.stops.map Stop.heading) := by
  rw [runStory_result b notify selection suite topic story s hdeferred] at hok
  have hpaths : selection.paths story = story.paths := List.filter_eq_self.2 hselected
  set turns := reached (runSelectedPath b notify suite topic story) (selection.paths story)
    (s.enterStory notify story) with hturns
  have hclean : ∀ turn ∈ turns,
      (⟨topic, story, turn.1, turn.2.world, turn.2.desk⟩ : PathTurn α ω).isClean b suite := by
    rw [storyTurns, if_neg hdeferred] at hclean
    exact List.forall_mem_map.1 hclean
  have hvisits : (turns.flatMap fun turn =>
      (pathTrace b suite topic turn.1 turn.2.world turn.2.desk).visits.map Visit.heading) =
      (selection.paths story).flatMap fun path => (stops [] path.played).map Stop.heading :=
    flatMap_reached _ hok fun turn hturn _ => pathTrace_headings b _ (hclean turn hturn)
  have htrace : storyTrace b notify selection suite topic story s =
      some ⟨story.description, pathTraces b suite topic turns⟩ := by
    rw [storyTrace, if_neg hdeferred]
    rfl
  have hplayed : (story.paths.flatMap fun path => (stops [] path.played).map Stop.heading) =
      story.stops.map Stop.heading := by
    rw [Story.stops, List.map_flatMap]
    exact List.flatMap_congr fun path hpath => by rw [Story.played_eq hpath]
  rw [htrace, Option.map_some, StoryTrace.visits, pathTraces, List.flatMap_map, List.map_flatMap, hvisits, hpaths,
    hplayed]

theorem topicTrace_headings {s : Running τ ω} (hselected : selection.All topic)
    (hok : (runTopic b notify selection suite topic s).1 = .ok ())
    (hclean : ∀ t ∈ topicTurns b notify selection suite topic s, t.isClean b suite) :
    (topicTrace b notify selection suite topic s).stories.map
        (fun st => (st.description, st.visits.map Visit.heading)) =
      (topic.stories.filter (!·.isDeferred)).map fun story =>
        (story.description, story.stops.map Stop.heading) := by
  rw [runTopic_result] at hok
  rw [Story.map_undeferred, ← hselected.stories_eq]
  refine (List.map_filterMap ..).trans (filterMap_reached _ hok fun turn hturn hstory => ?_)
  have hmem : turn.1 ∈ topic.stories := (selected_sublist selection topic).subset (mem_of_reached hturn)
  by_cases hdeferred : turn.1.isDeferred
  · rw [if_pos hdeferred]
    simp [storyTrace, hdeferred]
  · rw [if_neg hdeferred]
    exact storyTrace_headings b notify selection suite topic hdeferred (hselected.paths turn.1 hmem) hstory
      fun t ht => hclean t (List.mem_flatMap.2 ⟨turn, hturn, ht⟩)

end Stories

section New

variable {b : Backend α δ ω} {notify : Notify τ ω} {selection : Selection} {suite : Suite α} {topic : Topic α}
  {s : Running τ ω}

/-- The visits of a story that are new are those whose texts come up first. -/
theorem Logged.filter_isNew {channel : Nat} {past : List String} {story : String} {visits : List Visit}
    (h : Logged channel past (withTexts story visits)) :
    visits.filter (·.isNew) = firsts (Visit.text · story) past visits := by
  induction visits generalizing past with
  | nil => rfl
  | cons v visits ih =>
    obtain ⟨⟨hnew, -, -⟩, hrest⟩ := h
    have htail : firsts (Visit.text · story) (past.insert (v.text story)) visits =
        firsts (Visit.text · story) (v.text story :: past) visits :=
      firsts_congr (fun w _ => by simp) fun _ _ _ _ => Iff.rfl
    rw [firsts, ← htail, ← ih hrest]
    by_cases hmem : v.text story ∈ past
    · have hold : v.isNew = false := by simpa [hmem] using hnew
      simp [hmem, hold]
    · have hnew : v.isNew = true := by simpa [hmem] using hnew
      simp [hmem, hnew]

theorem TopicTrace.mem_marks_of_append {t : TopicTrace} {earlier later : List StoryTrace} {st : StoryTrace}
    (h : t.stories = earlier ++ st :: later) {v : Visit} (hv : v ∈ st.visits) :
    ⟨earlier.length, st.description, v⟩ ∈ t.marks :=
  mem_marks.2 ⟨st, by simp [h], rfl, hv⟩

/-- Where texts tell chains apart, the new visits of a story are those whose chains come up first in it. -/
theorem story_filter_isNew {st : StoryTrace}
    (hapart : (topicTrace b notify selection suite topic s).TextsApart)
    (hst : st ∈ (topicTrace b notify selection suite topic s).stories) :
    st.visits.filter (·.isNew) = firsts Visit.chain [] st.visits := by
  obtain ⟨-, hlogged, -⟩ := topicTrace_tells b notify selection suite topic s
  set t := topicTrace b notify selection suite topic s
  obtain ⟨earlier, later, hstories⟩ := List.append_of_mem hst
  have htexted : t.texted = earlier.flatMap (·.texted) ++ (st.texted ++ later.flatMap (·.texted)) := by
    simp [TopicTrace.texted, hstories]
  rw [htexted, logged_append, logged_append] at hlogged
  rw [hlogged.2.1.filter_isNew]
  refine firsts_congr (fun v hv => ⟨fun hmem => ?_, fun hmem => (List.not_mem_nil hmem).elim⟩)
    fun v hv v' hv' => ⟨fun htext => ?_, fun hchain => ?_⟩
  · -- an earlier visit with the same text would be one of this story
    obtain ⟨x, hx, htext⟩ := List.mem_map.1 ((mem_knownAfter.1 hmem).resolve_left List.not_mem_nil)
    obtain ⟨st', hst', hx⟩ := List.mem_flatMap.1 hx
    obtain ⟨v', hv', rfl⟩ := List.mem_map.1 hx
    obtain ⟨before, between, rfl⟩ := List.append_of_mem hst'
    have hmark' : ⟨before.length, st'.description, v'⟩ ∈ t.marks :=
      TopicTrace.mem_marks_of_append (by rw [hstories, List.append_assoc, List.cons_append]) hv'
    have hsame := (hapart _ hmark' _ (TopicTrace.mem_marks_of_append hstories hv) htext).1
    simp at hsame
  · exact (hapart _ (TopicTrace.mem_marks_of_append hstories hv) _
      (TopicTrace.mem_marks_of_append hstories hv') htext).2
  · rw [Visit.text, Visit.text, hchain]

end New

/-- What is written of a step: its description, how many steps lead to it, and whether a fork begins. -/
def StepRecord.line (r : StepRecord) : String × Nat × Bool := (r.description, r.depth, r.isFork)

def Stop.line (stop : Stop α) : String × Nat × Bool :=
  (stop.step.description, stop.before.length, stop.step.isFork)

def lineOf (heading : List String × Bool) : String × Nat × Bool :=
  (heading.1.getLastD "", heading.1.length - 1, heading.2)

/-- What is written of visits or stops: a line for each that is new. -/
def linesOf (headings : List (List String × Bool)) : List (String × Nat × Bool) :=
  (firsts Prod.fst [] headings).map lineOf

theorem lineOf_stop (stop : Stop α) : lineOf stop.heading = stop.line := by
  simp [lineOf, Stop.heading, Stop.chain, Stop.line]

section Clean

variable {b : Backend α δ ω} {suite : Suite α} {topic : Topic α}

theorem storyDraft_lines {st : StoryTrace} (hnew : st.visits.filter (·.isNew) = firsts Visit.chain [] st.visits)
    (slots : Slots) :
    (st.draft.resolve slots).steps.map StepRecord.line = linesOf (st.visits.map Visit.heading) := by
  rw [linesOf, firsts_map, StoryTrace.draft, newSteps, hnew]
  simp only [StoryDraft.resolve, List.map_map]
  rfl

theorem Topic.Legible.outline_lines {story : Story α} (h : topic.Legible) (hstory : story ∈ topic.stories) :
    linesOf (story.stops.map Stop.heading) = story.outline.map Stop.line := by
  rw [linesOf, firsts_map, List.map_map, ← h.firsts_stops hstory]
  exact List.map_congr_left fun stop _ => lineOf_stop stop

theorem Topic.Legible.mem_outline {story : Story α} (h : topic.Legible) (hstory : story ∈ topic.stories)
    (stop : Stop α) :
    stop ∈ story.outline ↔ ∃ path ∈ story.paths, stop.before ++ [stop.step] <+: path.steps := by
  have hstops : stop ∈ story.stops ↔ ∃ path ∈ story.paths, stop.before ++ [stop.step] <+: path.steps := by
    simp [Story.stops, mem_stops]
  rw [← hstops]
  constructor
  · rw [← h.firsts_stops hstory]
    exact fun hmem => firsts_subset _ _ hmem
  · intro hmem
    cases hspec : story.spec with
    | none =>
      rw [Story.stops, Story.paths, hspec] at hmem
      cases hmem
    | some spec =>
      rw [Story.stops_eq hspec] at hmem
      rw [Story.outline, hspec]
      exact Steps.routeStops_subset _ _ hmem

theorem Story.outline_steps (story : Story α) : story.outline.map (·.step) = story.steps := by
  rw [Story.outline, Story.steps]
  cases story.spec with
  | none => rfl
  | some spec => exact Steps.outline_steps spec []

theorem runTopic_transcripts (notify : Notify τ ω) (selection : Selection) (s : Running (τ × List Event) ω)
    (hne : selection.stories topic ≠ []) (hok : (runTopic b notify.keeping selection suite topic s).1 = .ok ()) :
    (runTopic b notify.keeping selection suite topic s).2.transcripts =
      s.transcripts ++ [(topicTrace b notify.keeping selection suite topic s).transcript] := by
  have htold := congrArg (List.filterMap Event.transcript?) (told_runTopic b notify selection suite topic s)
  rw [List.filterMap_append, topicEvents_transcripts] at htold
  rw [finishedTrace_of_ok b notify.keeping selection suite topic s hne hok] at htold
  exact htold

/-- A legible topic that is run cleanly as a whole is put on record as it is declared: for each story that is
not deferred the transcript lists the declared steps in their order, each with the number of steps that lead
to it on its paths. -/
theorem clean_run_outlined (b : Backend α δ ω) (notify : Notify τ ω) (selection : Selection) (suite : Suite α)
    (topic : Topic α) (s : Running (τ × List Event) ω) (hlegible : topic.Legible)
    (hselected : selection.All topic)
    (hclean : ∀ t ∈ topicTurns b notify.keeping selection suite topic s, t.isClean b suite) :
    let run := runTopic b notify.keeping selection suite topic s
    run.1 = .ok () ∧
    (topic.stories ≠ [] → ∃ transcript, run.2.transcripts = s.transcripts ++ [transcript] ∧
      transcript.stories.map (fun record => (record.description, record.steps.map (·.line))) =
        (topic.stories.filter (!·.isDeferred)).map fun story =>
          (story.description, story.outline.map (·.line))) ∧
    ∀ story ∈ topic.stories, story.outline.map (·.step) = story.steps ∧
      ∀ stop, stop ∈ story.outline ↔ ∃ path ∈ story.paths, stop.before ++ [stop.step] <+: path.steps := by
  intro run
  have hok : run.1 = .ok () := by
    cases hrun : run.1 with
    | ok _ => rfl
    | error p =>
      obtain ⟨t, ht, herror⟩ := (runTopic_error_iff b notify.keeping selection suite topic s p).1 hrun
      have hturn := hclean t ht
      rw [PathTurn.isClean, herror] at hturn
      cases hturn
  refine ⟨hok, fun hne => ?_, fun story hstory => ⟨story.outline_steps, hlegible.mem_outline hstory⟩⟩
  set t := topicTrace b notify.keeping selection suite topic s
  refine ⟨t.transcript, runTopic_transcripts notify selection s (by rwa [hselected.stories_eq]) hok, ?_⟩
  have hapart := textsApart_of_plain b notify.keeping selection suite topic s hlegible.toPlain
  have hrecords : t.transcript.stories.map
        (fun record => (record.description, record.steps.map StepRecord.line)) =
      t.stories.map fun st => (st.description, linesOf (st.visits.map Visit.heading)) := by
    rw [topicTrace_transcript b notify.keeping selection suite topic s, TopicTrace.ledger, List.map_map,
      List.map_map]
    refine List.map_congr_left fun st hst => ?_
    exact congrArg (Prod.mk st.description) (storyDraft_lines (story_filter_isNew hapart hst) _)
  have hheadings := congrArg (List.map fun (entry : String × List (List String × Bool)) =>
    (entry.1, linesOf entry.2)) (topicTrace_headings b notify.keeping selection suite topic hselected hok hclean)
  rw [List.map_map, List.map_map] at hheadings
  refine hrecords.trans (hheadings.trans (List.map_congr_left fun story hstory => ?_))
  exact congrArg (Prod.mk story.description) (hlegible.outline_lines (List.mem_filter.1 hstory).1)

end Clean

namespace Rehearsal

/-- A topic with forks in forks, a step that is pending, and a story of one action. -/
def branching : Topic Script :=
  { description := "T"
    before := some [.note "prepared"]
    stories := [
      ⟨"s", some ((Steps.step "a" [.note "done"]).andThen (Steps.fork [
        (Steps.step "b" []).andThen (Steps.fork [Steps.step "c" [], Steps.step "d" [.pass 1]]),
        (Steps.step "e" []).andThen (Steps.pending "f")]))⟩,
      ⟨"later", none⟩,
      .ofBody "whole" [.fail 1 none]] }

theorem branching_outlined :
    let run := runTopic backend unwatched.keeping everything {} branching (.start ((), []) {})
    branching.Legible ∧ everything.All branching ∧
    (∀ t ∈ topicTurns backend unwatched.keeping everything {} branching (.start ((), []) {}),
      t.isClean backend {}) ∧
    ∃ transcript, run.2.transcripts = [transcript] ∧
      transcript.stories.map (fun record => (record.description, record.steps.map (·.line))) =
        [("s", [("a", 0, false), ("b", 1, true), ("c", 2, true), ("d", 2, true), ("e", 1, true), ("f", 2, false)]),
          ("whole", [("$body$", 0, false)])] := by
  have hlegible : branching.Legible := ⟨⟨by decide +kernel, by decide +kernel, by decide +kernel⟩, rfl,
    by decide +kernel, by decide +kernel⟩
  have hselected : everything.All branching := ⟨rfl, fun _ _ => rfl, fun _ _ _ _ => rfl⟩
  have hclean : ∀ t ∈ topicTurns backend unwatched.keeping everything {} branching (.start ((), []) {}),
      t.isClean backend {} := by decide +kernel
  obtain ⟨-, htold, -⟩ := clean_run_outlined backend unwatched everything {} branching (.start ((), []) {})
    hlegible hselected hclean
  obtain ⟨transcript, hone, hlines⟩ := htold (by simp [branching])
  exact ⟨hlegible, hselected, hclean, transcript, hone, hlines.trans (by decide +kernel)⟩

end Rehearsal

end Storyline
