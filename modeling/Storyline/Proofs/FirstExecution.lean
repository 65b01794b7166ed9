import Storyline.Proofs.Deduplication
import Storyline.Proofs.Recording.Interleaving
import Storyline.Proofs.Recording.Sending

/-! Which execution of a hook or an action a record holds. A record stands for all scopes that were opened
for it and keeps what was heard in the first. That is what the first execution sent, unless the path was
interrupted in that scope before its hook or action was called, or other calls sent something in it. -/

namespace Storyline

variable {α δ ω τ : Type}

/-- What was heard while a hook or action ran for the first time, if it ever ran. -/
def firstCall (heard : List Heard) : Option (List Message) := (heard.filterMap (·.called)).head?

/-- A record holds exactly what was sent by the first execution, if there was one. -/
def HoldsFirstCall (record : Option Draft) (heard : List Heard) : Prop :=
  ∀ ms, firstCall heard = some ms → record = some (({} : Draft).absorb ms)

/-- What was heard in a scope, with what its slots hold. -/
def Heard.account (slots : Slots) (heard : Heard) : List (String ⊕ Action) := heard.all.map (Message.resolve slots)

/-- If the hook or action ever ran, then what it sent first is all that was heard in the first scope. -/
def OpensWithCall (heard : List Heard) : Prop :=
  ∀ ms, firstCall heard = some ms → heard.head?.map (·.all) = some ms

instance (record : Option Draft) (heard : List Heard) : Decidable (HoldsFirstCall record heard) :=
  inferInstanceAs (Decidable (∀ ms, firstCall heard = some ms → record = some (({} : Draft).absorb ms)))

theorem holdsFirstCall_kept_iff (heard : List Heard) :
    HoldsFirstCall (kept heard) heard ↔ OpensWithCall heard := by
  have hkept (ms : List Message) :
      kept heard = some (({} : Draft).absorb ms) ↔ heard.head?.map (·.all) = some ms := by
    cases heard with
    | nil => simp [kept]
    | cons h heard =>
      simp only [kept, List.head?_cons, Option.map_some, Option.some.injEq]
      exact ⟨Draft.absorb_injective, congrArg _⟩
  exact forall₂_congr fun ms _ => hkept ms

/-- The finished record tells what was heard in the first scope. -/
theorem account_kept (heard : List Heard) (slots : Slots) :
    (kept heard).map (fun d => (d.resolve slots).account) = heard.head?.map (·.account slots) := by
  have haccount (h : Heard) : ((({} : Draft).absorb h.all).resolve slots).account = h.account slots := by
    rw [Draft.account_resolve, Draft.messages_absorb, Heard.account]
  rw [kept, Option.map_map]
  exact congrArg (Option.map · heard.head?) (funext haccount)

instance (heard : List Heard) : Decidable (OpensWithCall heard) :=
  inferInstanceAs (Decidable (∀ ms, firstCall heard = some ms → heard.head?.map (·.all) = some ms))

/-- Where all that is heard was sent by the hook or action, its first execution can be missed only because
the scope that was opened first ended before it was called, and is missed if it sent anything. -/
theorem opensWithCall_iff {heard : List Heard} (h : ∀ x ∈ heard, x.all = x.sent) :
    OpensWithCall heard ↔
      ∀ first ∈ heard.head?, first.called = none → ∀ ms, firstCall heard = some ms → ms = [] := by
  cases heard with
  | nil => simp [OpensWithCall, firstCall]
  | cons first rest =>
    have hall := h first List.mem_cons_self
    cases hcalled : first.called with
    | none => simp [OpensWithCall, hall, Heard.sent, hcalled, eq_comm]
    | some sent => simp [OpensWithCall, firstCall, hall, Heard.sent, hcalled]

namespace TopicTrace

/-- The visits that came to one step of one story the same way. -/
def along (t : TopicTrace) (story : Nat) (chain : List String) : List Mark :=
  t.marks.filter fun m => m.story = story ∧ m.visit.chain = chain

/-- What was heard in the step's scope on each of these visits. -/
def heardAlong (t : TopicTrace) (story : Nat) (chain : List String) : List Heard :=
  (t.along story chain).map (·.visit.heard)

theorem mem_along {t : TopicTrace} {story : Nat} {chain : List String} {m : Mark} :
    m ∈ t.along story chain ↔ m ∈ t.marks ∧ m.story = story ∧ m.visit.chain = chain := by
  simp [along]

end TopicTrace

section

variable {b : Backend α δ ω} {notify : Notify τ ω} {selection : Selection} {suite : Suite α} {topic : Topic α}
  {s : Running τ ω}

theorem along_isNew {story : Nat} {chain : List String} {first : Mark} {rest : List Mark}
    (hapart : (topicTrace b notify selection suite topic s).TextsApart)
    (h : (topicTrace b notify selection suite topic s).along story chain = first :: rest) :
    first.visit.isNew := by
  set t := topicTrace b notify selection suite topic s with ht
  have hfind : t.marks.find? (fun m => m.story = story ∧ m.visit.chain = chain) = some first := by
    rw [← List.head?_filter]
    exact congrArg List.head? h
  obtain ⟨hfirst, before, after, hmarks, hbefore⟩ := List.find?_eq_some_iff_append.1 hfind
  have hlogged := marks_logged b notify selection suite topic s
  rw [← ht, hmarks, List.map_append, List.map_cons] at hlogged
  refine hlogged.isNew_iff.2 ⟨List.not_mem_nil, fun hmem => ?_⟩
  -- an earlier visit with the same text would have come the same way
  simp only [List.map_map, List.mem_map, Function.comp_apply] at hmem
  obtain ⟨m, hm, htext⟩ := hmem
  have hsame := hapart m (hmarks ▸ List.mem_append_left _ hm) first (hmarks ▸ by simp) htext
  have hnot := hbefore m hm
  simp only [Bool.not_eq_true', decide_eq_false_iff_not] at hnot
  simp only [decide_eq_true_eq] at hfirst
  exact hnot ⟨hsame.1.trans hfirst.1, hsame.2.trans hfirst.2⟩

theorem step_kept {m : Mark} (hapart : (topicTrace b notify selection suite topic s).TextsApart)
    (hm : m ∈ (topicTrace b notify selection suite topic s).marks) :
    let t := topicTrace b notify selection suite topic s
    (t.steps[m.visit.record]?).map (·.draft) = kept (t.heardAlong m.story m.visit.chain) := by
  intro t
  obtain ⟨m₀, hm₀, hnew, htext, hget⟩ := record_of_mark hm
  have hsame := hapart m₀ hm₀ m hm htext
  cases halong : t.along m.story m.visit.chain with
  | nil =>
    have hmem : m ∈ t.along m.story m.visit.chain := TopicTrace.mem_along.2 ⟨hm, rfl, rfl⟩
    simp [halong] at hmem
  | cons first rest =>
    have hfirst : first ∈ t.along m.story m.visit.chain := by simp [halong]
    obtain ⟨hmem, hstory, hchain⟩ := TopicTrace.mem_along.1 hfirst
    have htexts : m₀.text = first.text :=
      TopicTrace.text_eq hm₀ hmem ⟨hsame.1.trans hstory.symm, hsame.2.trans hchain.symm⟩
    obtain rfl := new_unique hm₀ hmem hnew (along_isNew hapart halong) htexts
    rw [hget, TopicTrace.heardAlong, halong]
    rfl

theorem step_listed {m : Mark} (hapart : (topicTrace b notify selection suite topic s).TextsApart)
    (hm : m ∈ (topicTrace b notify selection suite topic s).marks) :
    let t := topicTrace b notify selection suite topic s
    ∃ record step, t.ledger.stories[m.story]? = some record ∧ step ∈ record.steps ∧
      t.steps[m.visit.record]? = some step ∧ step.description = m.visit.chain.getLastD "" := by
  intro t
  obtain ⟨m₀, hm₀, hnew, htext, hget⟩ := record_of_mark hm
  have hsame := hapart m₀ hm₀ m hm htext
  obtain ⟨record, hrecord, -, hmem⟩ := TopicTrace.draft_mem hm₀ hnew
  exact ⟨record, m₀.visit.draft, hsame.1 ▸ hrecord, hmem, hget, by rw [Visit.draft, hsame.2]⟩

end

/-- With drivers that send from hooks and actions only, a record holds what its hook or action sent first if
the path that opened its scope first got as far as to call it. -/
theorem holdsFirstCall_of_called {b : Backend α δ ω} (hb : b.SendsFromActions) (notify : Notify τ ω)
    (selection : Selection) (suite : Suite α) {topic : Topic α} (h : topic.Plain) (s : Running τ ω) :
    let t := topicTrace b notify selection suite topic s
    ((∀ first ∈ t.setups.head?, first.called ≠ none) → HoldsFirstCall t.ledger.setup t.setups) ∧
    ∀ m ∈ t.marks, (∀ first ∈ (t.heardAlong m.story m.visit.chain).head?, first.called ≠ none) →
      HoldsFirstCall ((t.steps[m.visit.record]?).map (·.draft)) (t.heardAlong m.story m.visit.chain) := by
  intro t
  obtain ⟨hsetups, hvisits⟩ :=
    topicTrace_heard b (P := fun x => x.all = x.sent) (heardIn_all hb) notify selection suite topic s
  refine ⟨fun hcalled => ?_, fun m hm hcalled => ?_⟩
  · rw [TopicTrace.ledger, holdsFirstCall_kept_iff, opensWithCall_iff hsetups]
    exact fun first hfirst hnone => absurd hnone (hcalled first hfirst)
  · have halong : ∀ x ∈ t.heardAlong m.story m.visit.chain, x.all = x.sent := by
      intro x hx
      obtain ⟨m', hm', rfl⟩ := List.mem_map.1 hx
      obtain ⟨st, hget, -, hv⟩ := TopicTrace.mem_marks.1 (TopicTrace.mem_along.1 hm').1
      exact hvisits st (List.mem_of_getElem? hget) m'.visit hv
    rw [step_kept (textsApart_of_plain b notify selection suite topic s h) hm, holdsFirstCall_kept_iff,
      opensWithCall_iff halong]
    exact fun first hfirst hnone => absurd hnone (hcalled first hfirst)

/-- What a topic's transcript holds in its setup and for every step that was visited: what was heard in the
scope that was opened first, with what the slots hold in the end. -/
theorem transcript_accounts (b : Backend α δ ω) (notify : Notify τ ω) (selection : Selection) (suite : Suite α)
    {topic : Topic α} (h : topic.Plain) (s : Running τ ω) :
    let t := topicTrace b notify selection suite topic s
    t.transcript.setup.map Record.account = t.setups.head?.map (·.account t.desk.slots) ∧
    ∀ m ∈ t.marks, ∃ story step, t.transcript.stories[m.story]? = some story ∧ step ∈ story.steps ∧
      step.description = m.visit.chain.getLastD "" ∧
      some step.record.account = (t.heardAlong m.story m.visit.chain).head?.map (·.account t.desk.slots) := by
  intro t
  have htranscript : t.transcript = _ := topicTrace_transcript b notify selection suite topic s
  have hapart := textsApart_of_plain b notify selection suite topic s h
  refine ⟨?_, fun m hm => ?_⟩
  · rw [htranscript, Option.map_map]
    exact account_kept t.setups t.desk.slots
  · obtain ⟨record, step, hrecord, hmem, hget, hdescription⟩ := step_listed hapart hm
    have hkept : some step.draft = kept (t.heardAlong m.story m.visit.chain) := by
      rw [← step_kept hapart hm, hget]
      rfl
    refine ⟨record.resolve t.desk.slots, step.resolve t.desk.slots, ?_, List.mem_map_of_mem hmem,
      hdescription, ?_⟩
    · rw [htranscript, List.getElem?_map, hrecord]
      rfl
    · rw [← account_kept, ← hkept]
      rfl

/-- A topic's transcript is made of the setup that was opened first and of the steps that were visited
first. They hold what the first executions sent exactly if the scope that was opened first saw the first
execution, and nothing else. In any case what they tell, once finished, is what was heard in that scope. -/
theorem records_hold_first_call_iff (b : Backend α δ ω) (notify : Notify τ ω) (selection : Selection)
    (suite : Suite α) (topic : Topic α) (s : Running τ ω) (h : topic.Plain) :
    let t := topicTrace b notify selection suite topic s
    t.transcript = ⟨topic.description ++ transcriptSuffix, t.ledger.setup.map (·.resolve t.desk.slots),
      t.ledger.stories.map (StoryDraft.resolve t.desk.slots)⟩ ∧
    (HoldsFirstCall t.ledger.setup t.setups ↔ OpensWithCall t.setups) ∧
    (∀ m ∈ t.marks,
      (∃ record step, t.ledger.stories[m.story]? = some record ∧ step ∈ record.steps ∧
        t.steps[m.visit.record]? = some step ∧ step.description = m.visit.chain.getLastD "") ∧
      (HoldsFirstCall ((t.steps[m.visit.record]?).map (·.draft)) (t.heardAlong m.story m.visit.chain) ↔
        OpensWithCall (t.heardAlong m.story m.visit.chain))) ∧
    t.transcript.setup.map Record.account = t.setups.head?.map (·.account t.desk.slots) ∧
    ∀ m ∈ t.marks, ∃ story step, t.transcript.stories[m.story]? = some story ∧ step ∈ story.steps ∧
      step.description = m.visit.chain.getLastD "" ∧
      some step.record.account = (t.heardAlong m.story m.visit.chain).head?.map (·.account t.desk.slots) := by
  intro t
  have hapart := textsApart_of_plain b notify selection suite topic s h
  refine ⟨topicTrace_transcript b notify selection suite topic s, holdsFirstCall_kept_iff t.setups,
    fun m hm => ⟨step_listed hapart hm, ?_⟩, transcript_accounts b notify selection suite h s⟩
  rw [step_kept hapart hm]
  exact holdsFirstCall_kept_iff _

namespace Rehearsal

/-- A topic with two steps on each path. The first one is shared, and its driver is always ready. -/
def readyTopic : Topic Script :=
  { description := "T"
    before := some [.note "prepared"]
    stories := [⟨"s", some ((Steps.step "a" [.note "done"]).andThen
      (Steps.fork [Steps.step "b" [], Steps.step "c" [], Steps.step "d" []]))⟩] }

theorem records_hold_first_call_if_ready :
    let t := traceOf {} readyTopic
    readyTopic.Plain ∧ HoldsFirstCall t.ledger.setup t.setups ∧
    ∀ m ∈ t.marks, HoldsFirstCall ((t.steps[m.visit.record]?).map (·.draft))
      (t.heardAlong m.story m.visit.chain) := by
  intro t
  have hplain : readyTopic.Plain := ⟨by decide +kernel, by decide +kernel, by decide +kernel⟩
  have hopens : ∀ m ∈ t.marks, OpensWithCall (t.heardAlong m.story m.visit.chain) := by decide +kernel
  obtain ⟨-, hsetup, hsteps, -⟩ :=
    records_hold_first_call_iff backend unwatched everything {} readyTopic (.start () {}) hplain
  exact ⟨hplain, hsetup.2 (by decide +kernel), fun m hm => (hsteps m hm).2.2 (hopens m hm)⟩

def notReady : Act := .failWait (.error ⟨.driver "not ready", .library⟩)

/-- The driver of the first path is not ready when its setup begins. -/
def lateSuite : Suite Script := { beforeEach := some [.count "paths", .when "paths" 1 [notReady]] }

/-- The driver of the first path that is set up is not ready when its first step begins. -/
def lateTopic : Topic Script :=
  { readyTopic with before := some [.note "prepared", .count "setups", .when "setups" 1 [notReady]] }

/-- The setup and the step are on record without what their hook and action sent when they first ran. -/
theorem first_call_lost_to_wait :
    let t := traceOf lateSuite lateTopic
    lateTopic.Plain ∧ ¬ HoldsFirstCall t.ledger.setup t.setups ∧
    ¬ (∀ m ∈ t.marks, HoldsFirstCall ((t.steps[m.visit.record]?).map (·.draft))
      (t.heardAlong m.story m.visit.chain)) ∧
    firstCall t.setups = some [.note "prepared"] ∧ t.transcript.setup.map (·.notes) = some [] ∧
    firstCall (t.heardAlong 0 ["a"]) = some [.note "done"] ∧
    t.transcript.stories.map (fun story => story.steps.map fun step =>
      (step.description, step.record.notes)) = [[("a", []), ("d", [])]] := by
  refine ⟨⟨?_, ?_, ?_⟩, ?_, ?_, ?_, ?_, ?_, ?_⟩ <;> decide +kernel

end Rehearsal

end Storyline
