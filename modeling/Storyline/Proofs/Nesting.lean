import Storyline.Proofs.Lineage
import Storyline.Proofs.Transcription

/-! A story's steps as an outline. Its paths are taken one after another, each from its beginning as far as it
goes, and what is visited first is listed. So the list can be read as an outline wherever paths that begin in one
way are run one after another; a story that comes back to a step after another path is misread. -/

namespace Storyline

variable {α δ ω τ : Type}

def Path.descriptions (path : Path α) : List String := path.steps.map (·.description)

/-- The chains through which a story's steps were first reached, in the order of their listing. -/
def StoryTrace.chains (st : StoryTrace) : List (List String) := (st.visits.filter (·.isNew)).map (·.chain)

/-- A route begins with a step that can come next where its specification begins. -/
theorem Steps.routes_next {nodes : List (Node α)} {route : List (Entry α)} {d : String} {chain : List String}
    (hsealed : isSealed nodes) (hroute : route ∈ routes nodes)
    (hchain : d :: chain <+: (Path.mk route).descriptions) : ∃ s ∈ next nodes, s.description = d := by
  rw [Path.descriptions, Path.steps] at hchain
  cases hsteps : route.filterMap Entry.step? with
  | nil => simp [hsteps] at hchain
  | cons first steps =>
    rw [hsteps, List.map_cons] at hchain
    have hmem : (⟨[], first⟩ : Stop α) ∈ stops [] (route.filterMap Entry.step?) := by simp [hsteps, stops]
    obtain ⟨s, hs, hprefix⟩ := outline_next nodes [] hsealed _ (stops_outline nodes [] route hroute hmem)
    refine ⟨s, hs, ?_⟩
    rw [(List.cons_prefix_cons.1 hchain).1]
    simpa [Stop.chain] using hprefix

/-- Where no two steps that can come next at one place have one description, paths that begin in one way are
enumerated one after another. -/
theorem Steps.grouped_routes (nodes : List (Node α)) (hsealed : isSealed nodes) (hapart : Apart nodes) :
    Grouped ((routes nodes).map fun route => (Path.mk route).descriptions) := by
  induction nodes using routes.induct
    (motive_1 := fun node => ∀ alternative, node = .fork alternative → isSealed alternative → Apart alternative →
      Grouped ((routes alternative).map fun route => (Path.mk route).descriptions)) with
  | case1 alternative ih f hf hsealed hapart =>
    cases hf
    exact ih hsealed hapart
  | case2 node h f hf => exact (h f hf).elim
  | case3 => exact grouped_of_length_le (by simp [routes])
  | case4 rest => exact grouped_of_length_le (by simp [routes])
  | case5 alternative rest ihf ih =>
    obtain ⟨-, hfork, hrest⟩ := isSealed_cons.1 hsealed
    rw [Node.isSealed] at hfork
    obtain ⟨hapartFork, hapartRest, hnext⟩ := hapart.of_fork
    rw [routes, Node.routes, List.map_append]
    refine (ihf alternative rfl hfork hapartFork).append (ih hrest hapartRest) ?_
    rintro _ hfirst _ hlast (_ | ⟨d, chain⟩) hchain hchain'
    · rfl
    · obtain ⟨route, hroute, rfl⟩ := List.mem_map.1 hfirst
      obtain ⟨route', hroute', rfl⟩ := List.mem_map.1 hlast
      obtain ⟨s, hs, rfl⟩ := routes_next hfork hroute hchain
      obtain ⟨s', hs', heq⟩ := routes_next hrest hroute' hchain'
      exact absurd heq.symm (hnext s hs s' hs')
  | case6 s rest h => exact grouped_of_length_le (by simp [routes, h])
  | case7 s rest h hrest => exact grouped_of_length_le (by simp [routes, h, hrest])
  | case8 s rest h hrest ih =>
    have hroutes : (routes (.step s :: rest)).map (fun route => (Path.mk route).descriptions) =
        ((routes rest).map fun route => (Path.mk route).descriptions).map (s.description :: ·) := by
      simp [routes, h, hrest, Path.descriptions, Path.steps]
    rw [hroutes]
    exact (ih (isSealed_cons.1 hsealed).2.2 hapart.of_step).cons s.description

section Trace

variable (b : Backend α δ ω) (notify : Notify τ ω) (selection : Selection) (suite : Suite α) (topic : Topic α)

theorem stops_concat (before steps : List (Step α)) (s : Step α) :
    stops before (steps ++ [s]) = stops before steps ++ [⟨before ++ steps, s⟩] := by
  induction steps generalizing before with
  | nil => simp [stops]
  | cons first steps ih => simp [stops, ih]

theorem rooted_stops (steps : List (Step α)) : Rooted ((stops [] steps).map Stop.chain) := by
  induction steps using List.reverseRecOn with
  | nil => exact throughout_nil
  | append_singleton steps s ih =>
    rw [stops_concat, List.map_append, List.map_singleton]
    refine throughout_concat.2 ⟨ih, ?_⟩
    rw [Stop.chain, List.dropLast_concat, List.nil_append]
    rcases List.eq_nil_or_concat steps with rfl | ⟨front, last, rfl⟩
    · exact .inl rfl
    · rw [List.concat_eq_append, stops_concat]
      exact .inr (by simp [Stop.chain])

theorem pathTrace_taken (path : Path α) (world : ω) (desk : Desk) :
    ∃ taken, taken <+: path.played ∧
      (pathTrace b suite topic path world desk).visits.map Visit.chain = (stops [] taken).map Stop.chain := by
  have hvisits (turns : List (Step α × Scene δ ω)) :
      (visitsFrom b [] turns).map Visit.chain = (stops [] (turns.map (·.1))).map Stop.chain := by
    have hheadings := congrArg (List.map Prod.fst) (visitsFrom_headings b [] turns)
    rw [List.map_map, List.map_map] at hheadings
    exact hheadings
  unfold pathTrace
  dsimp only
  split
  · exact ⟨[], List.nil_prefix, rfl⟩
  · unfold playTrace
    split
    · exact ⟨[], List.nil_prefix, rfl⟩
    · dsimp only
      split
      · exact ⟨[], List.nil_prefix, rfl⟩
      · exact ⟨_, reached_initial _ _ _, hvisits _⟩

theorem pathTrace_tour {story : Story α} {path : Path α} (hpath : path ∈ story.paths) (world : ω) (desk : Desk) :
    let chains := (pathTrace b suite topic path world desk).visits.map Visit.chain
    Rooted chains ∧ ∀ chain ∈ chains, chain ≠ [] ∧ chain <+: path.descriptions := by
  intro chains
  obtain ⟨taken, htaken, hchains⟩ := pathTrace_taken b suite topic path world desk
  rw [Story.played_eq hpath] at htaken
  simp only [chains, hchains]
  refine ⟨rooted_stops taken, List.forall_mem_map.2 fun stop hstop => ⟨by simp [Stop.chain], ?_⟩⟩
  obtain ⟨before, hbefore, hvisited⟩ := mem_stops.1 hstop
  have hchain : stop.chain = (before ++ [stop.step]).map (·.description) := by simp [Stop.chain, hbefore]
  rw [hchain]
  exact (hvisited.trans htaken).map _

/-- Whatever is selected, where no two steps that can come next at one place have one description, paths that begin
in one way stand next to each other. -/
theorem selected_grouped {story : Story α} (h : ∀ spec ∈ story.spec, Steps.isSealed spec ∧ spec.Apart) :
    Grouped ((selection.paths story).map Path.descriptions) := by
  cases hspec : story.spec with
  | none =>
    rw [Selection.paths, Story.paths, hspec]
    exact grouped_of_length_le (by simp)
  | some spec =>
    obtain ⟨hsealed, hapart⟩ := h spec hspec
    have hgrouped := Steps.grouped_routes spec hsealed hapart
    have hpaths : (Steps.routes spec).map (fun route => (Path.mk route).descriptions) =
        story.paths.map Path.descriptions := by
      rw [Story.paths_eq hspec, List.map_map]
      rfl
    rw [hpaths] at hgrouped
    exact hgrouped.sublist (List.filter_sublist.map _)

/-- What is visited of a story, path by path: each is visited step by step from its beginning, as far as it goes. -/
theorem storyTrace_tours {story : Story α} {s : Running τ ω} {st : StoryTrace}
    (h : storyTrace b notify selection suite topic story s = some st) :
    ∃ tours : List (List String × List (List String)),
      (tours.map (·.1)).Sublist ((selection.paths story).map Path.descriptions) ∧
      st.visits.map Visit.chain = tours.flatMap (·.2) ∧
      ∀ tour ∈ tours, Rooted tour.2 ∧ ∀ chain ∈ tour.2, chain ≠ [] ∧ chain <+: tour.1 := by
  unfold storyTrace at h
  split at h
  · cases h
  cases h
  let turns := reached (runSelectedPath b notify suite topic story) (selection.paths story)
    (s.enterStory notify story)
  refine ⟨turns.map fun turn => (turn.1.descriptions,
    (pathTrace b suite topic turn.1 turn.2.world turn.2.desk).visits.map Visit.chain), ?_, ?_, ?_⟩
  · have hinitial := (reached_initial (runSelectedPath b notify suite topic story) (selection.paths story)
      (s.enterStory notify story)).sublist.map Path.descriptions
    rw [List.map_map] at hinitial ⊢
    exact hinitial
  · rw [List.flatMap_map, StoryTrace.visits, pathTraces, List.flatMap_map, List.map_flatMap]
    rfl
  · refine List.forall_mem_map.2 fun turn hturn => ?_
    exact pathTrace_tour b suite topic (List.mem_filter.1 (mem_of_reached hturn)).1 turn.2.world turn.2.desk

end Trace

/-- In every run of a topic, each step of a story is listed after the step that leads to it. The list can be read
as an outline, by taking each step to lie under the nearest one before it that is one less deep, exactly if none
as deep as the step's parent was listed in between. That is so in a story whose selected paths stand next to each
other if they begin in one way, whatever becomes of them. They do where no two steps that can come next at one
place have one description. -/
theorem steps_read_as_outline_iff (b : Backend α δ ω) (notify : Notify τ ω) (selection : Selection)
    (suite : Suite α) (topic : Topic α) (s : Running τ ω) (h : topic.Plain) :
    let t := topicTrace b notify selection suite topic s
    List.Forall₂ (fun st record =>
        record.description = st.description ∧ st.chains = firsts id [] (st.visits.map Visit.chain) ∧
        record.steps.map (fun step => (step.description, step.depth)) = st.chains.map entryOf ∧
        Rooted st.chains ∧ (record.chains = st.chains ↔ Unbroken st.chains) ∧
        ∃ story ∈ topic.stories, story.description = st.description ∧
          (Grouped ((selection.paths story).map Path.descriptions) → record.chains = st.chains))
      t.stories t.transcript.stories ∧
    ∀ story : Story α, (∀ spec ∈ story.spec, Steps.isSealed spec ∧ spec.Apart) →
      Grouped ((selection.paths story).map Path.descriptions) := by
  intro t
  refine ⟨?_, fun story hspec => selected_grouped selection hspec⟩
  have hapart := textsApart_of_plain b notify selection suite topic s h
  rw [topicTrace_transcript b notify selection suite topic s, TopicTrace.ledger, List.map_map,
    List.forall₂_map_right_iff]
  refine List.forall₂_same.2 fun st hst => ?_
  obtain ⟨⟨story, s'⟩, hturn, htrace⟩ := List.mem_filterMap.1 hst
  obtain ⟨tours, hwalks, hvisits, htours⟩ := storyTrace_tours b notify selection suite topic htrace
  have hchains : st.chains = firsts id [] (st.visits.map Visit.chain) := by
    rw [StoryTrace.chains, story_filter_isNew hapart hst, firsts_map]
    rfl
  have hentries : ((st.draft.resolve t.desk.slots).steps.map fun step => (step.description, step.depth)) =
      st.chains.map entryOf := by
    simp only [StoryTrace.draft, StoryDraft.resolve, newSteps, StoryTrace.chains, List.map_map]
    rfl
  have hne : ∀ chain ∈ st.chains, chain ≠ [] := by
    intro chain hchain
    rw [hchains, hvisits, mem_firsts] at hchain
    obtain ⟨tour, htour, hmem⟩ := List.mem_flatMap.1 hchain
    exact ((htours tour htour).2 chain hmem).1
  have hiff : (st.draft.resolve t.desk.slots).chains = st.chains ↔ Unbroken st.chains := by
    rw [StoryRecord.chains, hentries]
    exact readFrom_eq_iff hne
  refine ⟨rfl, hchains, hentries, ?_, hiff, story, ?_, ?_, fun hgrouped => hiff.2 ?_⟩
  · rw [hchains, hvisits]
    exact (rooted_flatMap fun tour htour => (htours tour htour).1).firsts
  · exact (selected_sublist selection topic).subset (mem_of_reached hturn)
  · exact (storyTrace_eq_some b notify selection suite topic s' htrace).1.symm
  · rw [hchains, hvisits]
    exact (hgrouped.sublist hwalks).unbroken fun tour htour =>
      ⟨(htours tour htour).1, fun chain hchain => ((htours tour htour).2 chain hchain).2⟩

namespace Rehearsal

/-- A story that comes back to its first step after another path. -/
def comingBack : Topic Script :=
  { description := "T"
    stories := [⟨"s", some (Steps.fork [
      (Steps.step "x" []).andThen (Steps.step "y" []), Steps.step "z" [],
      (Steps.step "x" []).andThen (Steps.step "w" [])])⟩] }

/-- The last step is read as one that lies under the other path's. -/
theorem comingBack_misread :
    let t := traceOf {} comingBack
    comingBack.Plain ∧
    t.stories.map (·.chains) = [[["x"], ["x", "y"], ["z"], ["x", "w"]]] ∧
    t.transcript.stories.map (·.chains) = [[["x"], ["x", "y"], ["z"], ["z", "w"]]] ∧
    ¬ List.Forall₂ (fun st record => record.chains = st.chains) t.stories t.transcript.stories := by
  intro t
  have hfirst : t.stories.map (·.chains) = [[["x"], ["x", "y"], ["z"], ["x", "w"]]] := by decide +kernel
  have hread : t.transcript.stories.map (·.chains) = [[["x"], ["x", "y"], ["z"], ["z", "w"]]] := by decide +kernel
  refine ⟨⟨by decide +kernel, by decide +kernel, by decide +kernel⟩, hfirst, hread, fun hall => ?_⟩
  have heq : t.transcript.stories.map (·.chains) = t.stories.map (·.chains) :=
    List.forall₂_eq_eq_eq ▸ (List.forall₂_map_left_iff.2 (List.forall₂_map_right_iff.2 hall.flip))
  rw [hfirst, hread] at heq
  exact absurd heq (by decide +kernel)

/-- A story with two alternatives that begin with one description, of which the first is interrupted. -/
def stayingOn : Topic Script :=
  { description := "T"
    stories := [⟨"s", some (Steps.fork [
      (Steps.step "x" []).andThen (Steps.step "y" [.raise (.panic .other)]),
      (Steps.step "x" []).andThen ((Steps.step "w" []).andThen (Steps.step "y" [])),
      (Steps.step "z" []).andThen (Steps.step "w" [])])⟩] }

theorem stayingOn_read :
    let t := traceOf {} stayingOn
    stayingOn.Plain ∧
    (∀ story ∈ stayingOn.stories, Grouped ((everything.paths story).map Path.descriptions)) ∧
    List.Forall₂ (fun st record => record.chains = st.chains) t.stories t.transcript.stories ∧
    t.stories.map (·.chains) =
      [[["x"], ["x", "y"], ["x", "w"], ["x", "w", "y"], ["z"], ["z", "w"]]] := by
  intro t
  have hplain : stayingOn.Plain := ⟨by decide +kernel, by decide +kernel, by decide +kernel⟩
  have hgrouped : ∀ story ∈ stayingOn.stories, Grouped ((everything.paths story).map Path.descriptions) := by
    decide +kernel
  obtain ⟨hrecords, -⟩ := steps_read_as_outline_iff backend unwatched everything {} stayingOn (.start () {}) hplain
  have hread : List.Forall₂ (fun st record => record.chains = st.chains) t.stories t.transcript.stories :=
    hrecords.imp fun _ _ ⟨_, _, _, _, _, story, hstory, _, hread⟩ => hread (hgrouped story hstory)
  exact ⟨hplain, hgrouped, hread, by decide +kernel⟩

end Rehearsal

end Storyline
