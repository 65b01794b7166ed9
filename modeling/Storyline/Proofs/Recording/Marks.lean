import Storyline.Proofs.Enumeration
import Storyline.Proofs.Recording.Topic

/-! The visits of a topic, each with the story it was paid in, and which of them a record cannot tell
apart. Two chains have one record if their texts are the same, and nothing but separators in descriptions
and stories of one description can make the texts of two chains the same. -/

namespace Storyline

variable {α δ ω τ : Type}

/-- A visit to a step of the `story`-th story that was told. -/
structure Mark where
  story : Nat
  title : String
  visit : Visit

namespace Mark

def text (m : Mark) : String := m.visit.text m.title

/-- Both were paid in one story, and came to their steps through the same descriptions. -/
def SameChain (m m' : Mark) : Prop := m.story = m'.story ∧ m.visit.chain = m'.visit.chain

end Mark

namespace TopicTrace

variable {t : TopicTrace}

def marks (t : TopicTrace) : List Mark :=
  t.stories.zipIdx.flatMap fun (st, i) => st.visits.map fun v => ⟨i, st.description, v⟩

def steps (t : TopicTrace) : List StepDraft := t.ledger.stories.flatMap (·.steps)

theorem mem_marks {m : Mark} :
    m ∈ t.marks ↔ ∃ st, t.stories[m.story]? = some st ∧ m.title = st.description ∧ m.visit ∈ st.visits := by
  simp only [marks, List.mem_flatMap, List.mem_map, Prod.exists, List.mem_zipIdx_iff_getElem?]
  constructor
  · rintro ⟨st, i, hget, v, hv, rfl⟩
    exact ⟨st, hget, rfl, hv⟩
  · rintro ⟨st, hget, htitle, hv⟩
    exact ⟨st, m.story, hget, m.visit, hv, by rw [← htitle]⟩

theorem texted_eq (t : TopicTrace) : t.texted = t.marks.map fun m => (m.text, m.visit) := by
  have hstories : t.stories = t.stories.zipIdx.map Prod.fst := by simp
  rw [texted, hstories, List.flatMap_map, marks, List.map_flatMap]
  simp [StoryTrace.texted, withTexts, Mark.text, Function.comp_def]

theorem steps_eq (t : TopicTrace) : t.steps = (t.texted.filter (·.2.isNew)).map (·.2.draft) := by
  simp only [steps, ledger, List.flatMap_map, StoryTrace.draft, texted, List.filter_flatMap, List.map_flatMap]
  congr
  funext st
  simp [newSteps, StoryTrace.texted, withTexts, List.filter_map, Function.comp_def]

theorem title_eq {m m' : Mark} (hm : m ∈ t.marks) (hm' : m' ∈ t.marks) (h : m.story = m'.story) :
    m.title = m'.title := by
  obtain ⟨st, hget, htitle, -⟩ := mem_marks.1 hm
  obtain ⟨st', hget', htitle', -⟩ := mem_marks.1 hm'
  rw [h, hget'] at hget
  cases hget
  rw [htitle, htitle']

theorem text_eq {m m' : Mark} (hm : m ∈ t.marks) (hm' : m' ∈ t.marks) (h : m.SameChain m') :
    m.text = m'.text := by
  rw [Mark.text, Mark.text, Visit.text, Visit.text, title_eq hm hm' h.1, h.2]

/-- What a new visit puts on record stands in the record of its story. -/
theorem draft_mem {m : Mark} (hm : m ∈ t.marks) (hnew : m.visit.isNew) :
    ∃ record, t.ledger.stories[m.story]? = some record ∧ record.description = m.title ∧
      m.visit.draft ∈ record.steps := by
  obtain ⟨st, hget, htitle, hv⟩ := mem_marks.1 hm
  refine ⟨st.draft, by simp [ledger, hget], htitle.symm, ?_⟩
  exact List.mem_map_of_mem (List.mem_filter.2 ⟨hv, hnew⟩)

/-- No two chains that were visited have one text. -/
def TextsApart (t : TopicTrace) : Prop := ∀ m ∈ t.marks, ∀ m' ∈ t.marks, m.text = m'.text → m.SameChain m'

end TopicTrace

section Chains

variable (b : Backend α δ ω)

theorem visitsFrom_chain {trail : List String} {done : List (Step α × Scene δ ω)} {v : Visit}
    (hv : v ∈ visitsFrom b trail done) :
    ∀ d ∈ v.chain, d ∈ trail ∨ ∃ x ∈ done, x.1.description = d := by
  induction done generalizing trail with
  | nil => simp [visitsFrom] at hv
  | cons x done ih =>
    intro d hd
    rcases List.mem_cons.1 hv with rfl | hv
    · rcases List.mem_append.1 hd with hd | hd
      · exact .inl hd
      · exact .inr ⟨x, by simp, (List.mem_singleton.1 hd).symm⟩
    · rcases ih hv d hd with hd | ⟨y, hy, rfl⟩
      · rcases List.mem_append.1 hd with hd | hd
        · exact .inl hd
        · exact .inr ⟨x, by simp, (List.mem_singleton.1 hd).symm⟩
      · exact .inr ⟨y, List.mem_cons_of_mem _ hy, rfl⟩

theorem played_sublist (path : Path α) : path.played.Sublist path.steps :=
  (List.takeWhile_sublist _).filterMap _

theorem pathTrace_chain {suite : Suite α} {topic : Topic α} {path : Path α} {world : ω} {desk : Desk}
    {v : Visit} (hv : v ∈ (pathTrace b suite topic path world desk).visits) :
    ∀ d ∈ v.chain, ∃ step ∈ path.steps, step.description = d := by
  intro d hd
  unfold pathTrace at hv
  dsimp only at hv
  split at hv
  · simp at hv
  · unfold playTrace at hv
    split at hv
    · simp at hv
    · dsimp only at hv
      split at hv
      · simp at hv
      · obtain hd | ⟨x, hx, rfl⟩ := visitsFrom_chain b hv d hd
        · simp at hd
        · exact ⟨x.1, (played_sublist path).subset (mem_of_reached hx), rfl⟩

end Chains

def Story.steps (story : Story α) : List (Step α) := (story.spec.map Steps.steps).getD []

theorem path_steps {story : Story α} {path : Path α} (h : path ∈ story.paths) :
    path.steps.Sublist story.steps := by
  unfold Story.paths at h
  cases hspec : story.spec with
  | none => simp [hspec] at h
  | some spec =>
    rw [hspec] at h
    simp only [Option.map_some, Option.getD_some, Steps.paths, Steps.walk_eq_routes, List.mem_map,
      List.nil_append] at h
    obtain ⟨route, hroute, rfl⟩ := h
    simpa [Story.steps, hspec, Path.steps] using Steps.routes_sublist spec route hroute

/-- The stories of a topic can be told apart by their descriptions, and no description holds a
separator. -/
structure Topic.Plain (topic : Topic α) : Prop where
  apart : (topic.stories.map (·.description)).Nodup
  stories : ∀ story ∈ topic.stories, Storyline.Plain story.description
  steps : ∀ story ∈ topic.stories, ∀ step ∈ story.steps, Storyline.Plain step.description

theorem selected_sublist (selection : Selection) (topic : Topic α) :
    (selection.stories topic).Sublist topic.stories := by
  unfold Selection.stories
  split
  · exact List.filter_sublist
  · exact List.nil_sublist _

section Plain

variable (b : Backend α δ ω) (notify : Notify τ ω) (selection : Selection) (suite : Suite α) (topic : Topic α)
  (s : Running τ ω)

theorem storyTrace_eq_some {story : Story α} {st : StoryTrace}
    (h : storyTrace b notify selection suite topic story s = some st) :
    st.description = story.description ∧
    ∀ v ∈ st.visits, ∀ d ∈ v.chain, ∃ step ∈ story.steps, step.description = d := by
  unfold storyTrace at h
  split at h
  · simp at h
  · cases h
    refine ⟨rfl, fun v hv d hd => ?_⟩
    simp only [StoryTrace.visits, pathTraces, List.mem_flatMap, List.mem_map, Prod.exists] at hv
    obtain ⟨p, ⟨path, s', hreached, rfl⟩, hv⟩ := hv
    have hpath := (List.mem_filter.1 (mem_of_reached hreached)).1
    obtain ⟨step, hstep, hd⟩ := pathTrace_chain b hv d hd
    exact ⟨step, (path_steps hpath).subset hstep, hd⟩

theorem mem_stories {st : StoryTrace} (h : st ∈ (topicTrace b notify selection suite topic s).stories) :
    ∃ story ∈ topic.stories, st.description = story.description ∧
      ∀ v ∈ st.visits, ∀ d ∈ v.chain, ∃ step ∈ story.steps, step.description = d := by
  obtain ⟨⟨story, s'⟩, hreached, htrace⟩ := List.mem_filterMap.1 h
  have hstory : story ∈ selection.stories topic := mem_of_reached hreached
  refine ⟨story, ?_, storyTrace_eq_some b notify selection suite topic s' htrace⟩
  exact (selected_sublist selection topic).subset hstory

theorem storyTraces_titles (turns : List (Story α × Running τ ω)) :
    ((storyTraces b notify selection suite topic turns).map (·.description)).Sublist
      (turns.map (·.1.description)) := by
  induction turns with
  | nil => exact List.Sublist.refl _
  | cons turn turns ih =>
    obtain ⟨story, s⟩ := turn
    simp only [storyTraces, List.filterMap_cons, List.map_cons]
    cases htrace : storyTrace b notify selection suite topic story s with
    | none => exact ih.cons _
    | some st =>
      rw [← (storyTrace_eq_some b notify selection suite topic s htrace).1]
      exact ih.cons_cons _

theorem titles_sublist :
    ((topicTrace b notify selection suite topic s).stories.map (·.description)).Sublist
      (topic.stories.map (·.description)) := by
  have hturns := (reached_initial (runStory b notify selection suite topic) (selection.stories topic)
    (s.enterTopic notify topic)).sublist.trans (selected_sublist selection topic)
  have hdescriptions := hturns.map (·.description)
  rw [List.map_map] at hdescriptions
  exact (storyTraces_titles b notify selection suite topic _).trans hdescriptions

/-- Where descriptions hold no separators and no two stories share theirs, texts tell chains apart. -/
theorem textsApart_of_plain (h : topic.Plain) : (topicTrace b notify selection suite topic s).TextsApart := by
  intro m hm m' hm' htext
  obtain ⟨st, hget, htitle, hv⟩ := TopicTrace.mem_marks.1 hm
  obtain ⟨st', hget', htitle', hv'⟩ := TopicTrace.mem_marks.1 hm'
  obtain ⟨story, hstory, hdescription, hchain⟩ :=
    mem_stories b notify selection suite topic s (List.mem_of_getElem? hget)
  obtain ⟨story', hstory', hdescription', hchain'⟩ :=
    mem_stories b notify selection suite topic s (List.mem_of_getElem? hget')
  have hplain : ∀ d ∈ m.visit.chain, Plain d := by
    intro d hd
    obtain ⟨step, hstep, rfl⟩ := hchain m.visit hv d hd
    exact h.steps story hstory step hstep
  have hplain' : ∀ d ∈ m'.visit.chain, Plain d := by
    intro d hd
    obtain ⟨step, hstep, rfl⟩ := hchain' m'.visit hv' d hd
    exact h.steps story' hstory' step hstep
  obtain ⟨htitles, hchains⟩ := chainText_inj (by rw [htitle, hdescription]; exact h.stories story hstory)
    (by rw [htitle', hdescription']; exact h.stories story' hstory') hplain hplain' htext
  refine ⟨?_, hchains⟩
  have hnodup := (titles_sublist b notify selection suite topic s).nodup h.apart
  refine (List.getElem?_inj ?_ hnodup).1 ?_
  · rw [List.length_map]
    exact (List.getElem?_eq_some_iff.1 hget).1
  · rw [List.getElem?_map, List.getElem?_map, hget, hget']
    simp only [Option.map_some]
    rw [← htitle, ← htitle', htitles]

end Plain

end Storyline
