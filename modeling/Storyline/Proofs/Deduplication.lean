import Storyline.Proofs.Recording.Marks

/-! Which visits share a step record. Those whose chains have one text do, so records follow the chains
of steps as far as the texts of all visited chains can be told apart, and no further. Of two chains with
one text the one that is reached later is lost. -/

namespace Storyline

variable {α δ ω τ : Type}

instance (m m' : Mark) : Decidable (m.SameChain m') := inferInstanceAs (Decidable (_ ∧ _))

namespace TopicTrace

instance (t : TopicTrace) : Decidable t.TextsApart :=
  inferInstanceAs (Decidable (∀ m ∈ t.marks, ∀ m' ∈ t.marks, m.text = m'.text → m.SameChain m'))

/-- Visits share a record if they came to one step of one story the same way, and only then. -/
def RecordsFollowChains (t : TopicTrace) : Prop :=
  ∀ m ∈ t.marks, ∀ m' ∈ t.marks, (m.visit.record = m'.visit.record ↔ m.SameChain m')

/-- Every chain that was begun in a story has a step in the story's record. -/
def ChainsKept (t : TopicTrace) : Prop :=
  ∀ m ∈ t.marks, ∃ m₀ ∈ t.marks, m₀.visit.isNew ∧ m₀.SameChain m ∧
    ∃ record, t.ledger.stories[m.story]? = some record ∧ m₀.visit.draft ∈ record.steps

end TopicTrace

section

variable (b : Backend α δ ω) (notify : Notify τ ω) (selection : Selection) (suite : Suite α) (topic : Topic α)
  (s : Running τ ω)

theorem marks_logged :
    Logged (s.desk.channel + 1) []
      ((topicTrace b notify selection suite topic s).marks.map fun m => (m.text, m.visit)) := by
  rw [← TopicTrace.texted_eq]
  exact (topicTrace_tells b notify selection suite topic s).2.1

variable {b notify selection suite topic s} {m m' : Mark}
  (hm : m ∈ (topicTrace b notify selection suite topic s).marks)
  (hm' : m' ∈ (topicTrace b notify selection suite topic s).marks)

include hm hm' in
theorem record_eq_iff : m.visit.record = m'.visit.record ↔ m.text = m'.text :=
  (marks_logged b notify selection suite topic s).record_inj (List.mem_map_of_mem hm)
    (List.mem_map_of_mem hm')

include hm in
/-- The record that a visit belongs to is there because of a new visit with the same text. -/
theorem record_of_mark :
    let t := topicTrace b notify selection suite topic s
    ∃ m₀ ∈ t.marks, m₀.visit.isNew ∧ m₀.text = m.text ∧
      t.steps[m.visit.record]? = some m₀.visit.draft := by
  intro t
  have hlogged := marks_logged b notify selection suite topic s
  obtain ⟨x₀, hx₀, hnew, htext, hget⟩ := hlogged.new_of_record (List.mem_map_of_mem hm)
  obtain ⟨m₀, hm₀, rfl⟩ := List.mem_map.1 hx₀
  refine ⟨m₀, hm₀, hnew, htext, ?_⟩
  rw [TopicTrace.steps_eq, TopicTrace.texted_eq, List.getElem?_map, hget]
  rfl

include hm hm' in
theorem new_unique (hnew : m.visit.isNew) (hnew' : m'.visit.isNew) (htext : m.text = m'.text) : m = m' := by
  have hnodup := (marks_logged b notify selection suite topic s).new_nodup
  rw [List.filter_map, List.map_map] at hnodup
  exact List.inj_on_of_nodup_map hnodup (List.mem_filter.2 ⟨hm, hnew⟩) (List.mem_filter.2 ⟨hm', hnew'⟩) htext

end

section

variable (b : Backend α δ ω) (notify : Notify τ ω) (selection : Selection) (suite : Suite α) (topic : Topic α)
  (s : Running τ ω)

theorem recordsFollowChains_iff :
    let t := topicTrace b notify selection suite topic s
    t.RecordsFollowChains ↔ t.TextsApart := by
  intro t
  constructor
  · intro h m hm m' hm' htext
    exact (h m hm m' hm').1 ((record_eq_iff hm hm').2 htext)
  · intro h m hm m' hm'
    rw [record_eq_iff hm hm']
    exact ⟨h m hm m' hm', TopicTrace.text_eq hm hm'⟩

theorem chainsKept_iff :
    let t := topicTrace b notify selection suite topic s
    t.ChainsKept ↔ t.TextsApart := by
  intro t
  constructor
  · intro h m hm m' hm' htext
    -- the new visits of both chains have one text, so they are one visit
    obtain ⟨n, hn, hnew, hsame, -⟩ := h m hm
    obtain ⟨n', hn', hnew', hsame', -⟩ := h m' hm'
    have htexts : n.text = n'.text := by
      rw [TopicTrace.text_eq hn hm hsame, htext, TopicTrace.text_eq hn' hm' hsame']
    obtain rfl := new_unique hn hn' hnew hnew' htexts
    exact ⟨hsame.1.symm.trans hsame'.1, hsame.2.symm.trans hsame'.2⟩
  · intro h m hm
    obtain ⟨m₀, hm₀, hnew, htext, -⟩ := record_of_mark hm
    have hsame := h m₀ hm₀ m hm htext
    obtain ⟨record, hget, -, hmem⟩ := TopicTrace.draft_mem hm₀ hnew
    exact ⟨m₀, hm₀, hnew, hsame, record, hsame.1 ▸ hget, hmem⟩

end

/-- The number of a visit's record is that of a step in the transcript, which was listed for a visit with
the same text. So visits share records by text, and by chain exactly if no two chains have one text; the
same condition says whether every chain that was begun in a story has a step in the story's record. -/
theorem records_follow_chains_iff (b : Backend α δ ω) (notify : Notify τ ω) (selection : Selection)
    (suite : Suite α) (topic : Topic α) (s : Running τ ω) :
    let t := topicTrace b notify selection suite topic s
    t.transcript.stories = t.ledger.stories.map (StoryDraft.resolve t.desk.slots) ∧
    (∀ m ∈ t.marks, ∃ m₀ ∈ t.marks, m₀.visit.isNew ∧ m₀.text = m.text ∧
      t.steps[m.visit.record]? = some m₀.visit.draft) ∧
    (∀ m ∈ t.marks, ∀ m' ∈ t.marks, m.visit.record = m'.visit.record ↔ m.text = m'.text) ∧
    (t.RecordsFollowChains ↔ t.TextsApart) ∧
    (t.ChainsKept ↔ t.TextsApart) := by
  intro t
  refine ⟨?_, fun m hm => record_of_mark hm, fun m hm m' hm' => record_eq_iff hm hm',
    recordsFollowChains_iff b notify selection suite topic s, chainsKept_iff b notify selection suite topic s⟩
  rw [topicTrace_transcript b notify selection suite topic s]

namespace Rehearsal

/-- A story in which a step's description reads like two steps of another path, and a second story of the
same description. -/
def clashing : Topic Script :=
  { description := "T"
    stories := [
      ⟨"s", some (Steps.fork [Steps.step "a>b" [.note "joint"],
        (Steps.step "a" [.note "first"]).andThen (Steps.step "b" [.note "second"])])⟩,
      ⟨"s", some (Steps.step "a" [.note "again"])⟩] }

/-- The chain of two steps and the chain of the second story have no records of their own. -/
theorem clashing_chains_lost :
    let t := traceOf {} clashing
    ¬ t.RecordsFollowChains ∧ ¬ t.ChainsKept ∧
    t.marks.map (fun m => (m.story, m.visit.chain, m.visit.record)) =
      [(0, ["a>b"], 0), (0, ["a"], 1), (0, ["a", "b"], 0), (1, ["a"], 1)] ∧
    t.transcript.stories.map (fun story => story.steps.map (·.description)) = [["a>b", "a"], []] := by
  intro t
  have hclash : ¬ t.TextsApart := by decide +kernel
  exact ⟨mt (recordsFollowChains_iff _ _ _ _ _ _).1 hclash, mt (chainsKept_iff _ _ _ _ _ _).1 hclash,
    by decide +kernel, by decide +kernel⟩

end Rehearsal

end Storyline
