import Storyline.Proofs.Recording.Interleaving
import Storyline.Proofs.Recording.Sending
import Storyline.Proofs.Events

/-! Where the contents of transcripts come from, for drivers that send only while a hook or a step's action
runs. Every record holds what was sent through the scribe of its topic while one hook or action ran, in
the order it was sent: the setup what the topic's hook sent in the first setup, a step what its action
sent on the visit the step was listed for. Nothing else that is sent gets into a transcript. -/

namespace Storyline

variable {α δ ω τ : Type}

/-- A topic whose transcript holds just what its hook sent in the first setup, and of every visit that was
new what the step's action sent, all through the topic's own scribe. -/
structure TopicTrace.Attributed (t : TopicTrace) : Prop where
  description : t.transcript.description = t.description ++ transcriptSuffix
  setup : t.transcript.setup = t.setups.head?.map fun h => (({} : Draft).absorb h.sent).resolve t.desk.slots
  stories : t.transcript.stories = t.stories.map fun st =>
    ⟨st.description, (st.visits.filter (·.isNew)).map fun v =>
      ⟨v.chain.getLastD "", v.chain.length - 1, v.isFork,
        (({} : Draft).absorb v.heard.sent).resolve t.desk.slots⟩⟩
  setupScribe : ∀ h ∈ t.setups, h.scribe = t.desk.scribe
  stepScribe : ∀ st ∈ t.stories, ∀ v ∈ st.visits, v.heard.scribe = t.desk.scribe

theorem topicTrace_attributed {b : Backend α δ ω} (hb : b.SendsFromActions) (notify : Notify τ ω)
    (selection : Selection) (suite : Suite α) (topic : Topic α) (s : Running τ ω) :
    (topicTrace b notify selection suite topic s).Attributed := by
  set t := topicTrace b notify selection suite topic s with ht
  obtain ⟨hrecords, hlogged, hscribes⟩ := topicTrace_tells b notify selection suite topic s
  obtain ⟨hsetups, hvisits⟩ :=
    topicTrace_heard b (P := fun h => h.all = h.sent) (heardIn_all hb) notify selection suite topic s
  have htranscript := topicTrace_transcript b notify selection suite topic s
  dsimp only at htranscript
  rw [← ht] at hrecords hlogged hscribes hsetups hvisits htranscript
  have hscribe : t.desk.scribe = ⟨s.desk.channel + 1⟩ := congrArg Scribe.mk hrecords.channel
  refine ⟨?_, ?_, ?_, ?_, ?_⟩
  · rw [htranscript]
    rfl
  · rw [htranscript]
    simp only [TopicTrace.ledger, kept, Option.map_map]
    cases hfirst : t.setups with
    | nil => rfl
    | cons h rest =>
      have hall : h.all = h.sent := hsetups h (by simp [hfirst])
      simp [hall]
  · rw [htranscript]
    simp only [TopicTrace.ledger, List.map_map]
    refine List.map_congr_left fun st hst => ?_
    have hdraft : ∀ v ∈ st.visits.filter (·.isNew), v.draft.resolve t.desk.slots =
        ⟨v.chain.getLastD "", v.chain.length - 1, v.isFork,
          (({} : Draft).absorb v.heard.sent).resolve t.desk.slots⟩ := by
      intro v hv
      rw [StepDraft.resolve, Visit.draft, hvisits st hst v (List.mem_filter.1 hv).1]
    simp only [Function.comp_apply, StoryTrace.draft, StoryDraft.resolve, newSteps, List.map_map]
    rw [← List.map_congr_left hdraft]
    rfl
  · rw [hscribe]
    exact hscribes
  · intro st hst v hv
    have htexted : (v.text st.description, v) ∈ t.texted :=
      List.mem_flatMap.2 ⟨st, hst, List.mem_map_of_mem hv⟩
    rw [hscribe]
    exact hlogged.scribe htexted

/-- Observers are told the transcripts of a run's topics, each topic has a scribe of its own, and each
transcript holds just what hooks and actions sent when their records were made. A record keeps what it
takes in the order it was sent. -/
theorem transcripts_attributed (b : Backend α δ ω) (hb : b.SendsFromActions) (notify : Notify τ ω)
    (selection : Selection) (suite : Suite α) (observer : τ) (world : ω) :
    let traces := suiteTrace b notify.keeping selection suite (observer, []) world
    (runSuite b notify.keeping selection suite (observer, []) world).2.transcripts =
      traces.map (·.transcript) ∧
    traces.Pairwise (fun t t' => t.desk.scribe ≠ t'.desk.scribe) ∧
    (∀ t ∈ traces, t.Attributed) ∧
    ∀ ms : List Message, (({} : Draft).absorb ms).messages = ms := by
  refine ⟨told_transcripts b notify selection suite observer world, ?_, fun t ht => ?_, Draft.messages_absorb⟩
  · refine (channels_increase b notify.keeping selection suite (observer, []) world).imp fun hlt heq => ?_
    exact absurd (congrArg Scribe.channel heq) (Nat.ne_of_lt hlt)
  · obtain ⟨⟨topic, s⟩, -, hfinished⟩ := List.mem_filterMap.1 ht
    obtain ⟨-, rfl⟩ := finishedTrace_eq_some b notify.keeping selection suite topic s hfinished
    exact topicTrace_attributed hb notify.keeping selection suite topic s

namespace Rehearsal

/-- In the first topic the scribe is stashed away, in the second one it is used again. -/
def stashing : Suite Script :=
  { topics := [
      { description := "first", stories := [⟨"s", some (Steps.step "a" [.stash, .note "kept"])⟩] },
      { description := "second"
        before := some [.note "prepared"]
        stories := [⟨"s", some (Steps.step "b" [.stashNote "lost", .note "own"])⟩] }] }

theorem stashing_attributed :
    backend.SendsFromActions ∧
    let traces := suiteTrace backend unwatched.keeping everything stashing ((), []) {}
    let told := (runSuite backend unwatched.keeping everything stashing ((), []) {}).2.transcripts
    told = traces.map (·.transcript) ∧ (∀ t ∈ traces, t.Attributed) ∧
    told.map (fun t => t.setup.map (·.notes)) = [some [], some [(0, ["prepared"])]] ∧
    told.map (fun t => t.stories.map fun story => story.steps.map (·.record.notes)) =
      [[[[(0, ["kept"])]]], [[[(0, ["own"])]]]] := by
  obtain ⟨htold, -, hattributed, -⟩ :=
    transcripts_attributed backend backend_sendsFromActions unwatched everything stashing () {}
  refine ⟨backend_sendsFromActions, htold, hattributed, ?_, ?_⟩ <;> decide +kernel

end Rehearsal

end Storyline
