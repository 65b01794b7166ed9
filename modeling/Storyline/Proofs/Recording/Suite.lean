import Storyline.Proofs.Recording.Topic

/-! A whole run: which topics come to their transcripts. Every topic that is entered has a channel of its
own, so a scribe belongs to one topic. -/

namespace Storyline

variable {α δ ω τ : Type}

def Event.transcript? : Event → Option Transcript
  | .transcript t => some t
  | _ => none

/-- The same observers, beside someone who keeps all that is told. -/
def Notify.keeping (notify : Notify τ ω) : Notify (τ × List Event) ω := fun e (observer, told) world =>
  let (result, observer, world) := notify e observer world
  (result, (observer, told ++ [e]), world)

def Running.transcripts (s : Running (τ × List Event) ω) : List Transcript :=
  s.observer.2.filterMap Event.transcript?

/-- The trace of a topic that comes to its transcript: one with stories that no panic ends. -/
def finishedTrace (b : Backend α δ ω) (notify : Notify τ ω) (selection : Selection) (suite : Suite α)
    (topic : Topic α) (s : Running τ ω) : Option TopicTrace :=
  if selection.stories topic = [] then none
  else match ((selection.stories topic).forM (runStory b notify selection suite topic))
      (s.enterTopic notify topic) with
    | (.ok _, _) => some (topicTrace b notify selection suite topic s)
    | (.error _, _) => none

def finishedTraces (b : Backend α δ ω) (notify : Notify τ ω) (selection : Selection) (suite : Suite α)
    (turns : List (Topic α × Running τ ω)) : List TopicTrace :=
  turns.filterMap fun (topic, s) => finishedTrace b notify selection suite topic s

def suiteTrace (b : Backend α δ ω) (notify : Notify τ ω) (selection : Selection) (suite : Suite α)
    (observer : τ) (world : ω) : List TopicTrace :=
  finishedTraces b notify selection suite
    (reached (runTopic b notify selection suite) suite.topics (.start observer world))

section Topics

variable (b : Backend α δ ω) (notify : Notify τ ω) (selection : Selection) (suite : Suite α) (topic : Topic α)
  (s : Running τ ω)

theorem runTopic_none (h : selection.stories topic = []) :
    runTopic b notify selection suite topic s = (.ok (), s) := by
  simp only [runTopic, h]
  rfl

theorem runTopic_eq (h : selection.stories topic ≠ []) :
    runTopic b notify selection suite topic s =
      ((selection.stories topic).forM (runStory b notify selection suite topic) >>= fun _ =>
        modify fun s => s.announce notify (.transcript s.desk.transcript) : RunM τ ω Unit)
        (s.enterTopic notify topic) := by
  cases hstories : selection.stories topic with
  | nil => contradiction
  | cons story stories =>
    simp only [runTopic, hstories]
    rfl

theorem finishedTrace_eq_some {t : TopicTrace}
    (h : finishedTrace b notify selection suite topic s = some t) :
    selection.stories topic ≠ [] ∧ t = topicTrace b notify selection suite topic s := by
  unfold finishedTrace at h
  split at h
  · contradiction
  · rename_i hstories
    split at h
    · exact ⟨hstories, (Option.some.inj h).symm⟩
    · contradiction

theorem topicTrace_channel :
    (topicTrace b notify selection suite topic s).desk.channel = s.desk.channel + 1 :=
  (topicTrace_tells b notify selection suite topic s).1.channel

theorem runTopic_channel :
    (runTopic b notify selection suite topic s).2.desk.channel =
      if selection.stories topic = [] then s.desk.channel else s.desk.channel + 1 := by
  by_cases hnone : selection.stories topic = []
  · rw [runTopic_none b notify selection suite topic s hnone, if_pos hnone]
  · have hchannel := topicTrace_channel b notify selection suite topic s
    rw [runTopic_eq b notify selection suite topic s hnone, if_neg hnone]
    refine modify_preserves _ _ (fun s' : Running τ ω => s'.desk.channel = s.desk.channel + 1) ?_ hchannel
    exact fun _ h => h

/-- No two topics of a run have one channel. -/
theorem channels_increase (observer : τ) (world : ω) :
    (suiteTrace b notify selection suite observer world).Pairwise fun t t' =>
      t.desk.channel < t'.desk.channel := by
  let traces := finishedTraces b notify selection suite
  have hloop := forM_reached (runTopic b notify selection suite) (fun done s =>
    (traces done).Pairwise (fun t t' => t.desk.channel < t'.desk.channel) ∧
    ∀ t ∈ traces done, t.desk.channel ≤ s.desk.channel)
    ?_ suite.topics (.start observer world) [] ⟨List.Pairwise.nil, by simp [traces, finishedTraces]⟩
  · exact hloop.1
  · rintro done topic s ⟨hpairwise, hle⟩
    have hchannel := runTopic_channel b notify selection suite topic s
    cases hfinished : finishedTrace b notify selection suite topic s with
    | none =>
      have hdone : traces (done ++ [(topic, s)]) = traces done := by simp [traces, finishedTraces, hfinished]
      rw [hdone]
      refine ⟨hpairwise, fun t ht => Nat.le_trans (hle t ht) ?_⟩
      split at hchannel <;> omega
    | some t =>
      obtain ⟨hstories, rfl⟩ := finishedTrace_eq_some b notify selection suite topic s hfinished
      have hnew := topicTrace_channel b notify selection suite topic s
      have hdone : traces (done ++ [(topic, s)]) =
          traces done ++ [topicTrace b notify selection suite topic s] := by
        simp [traces, finishedTraces, hfinished]
      rw [if_neg hstories] at hchannel
      rw [hdone]
      refine ⟨List.pairwise_append.2 ⟨hpairwise, List.pairwise_singleton _ _, fun t ht t' ht' => ?_⟩,
        fun t ht => ?_⟩
      · rw [List.mem_singleton.1 ht', hnew]
        exact Nat.lt_succ_of_le (hle t ht)
      · rcases List.mem_append.1 ht with ht | ht
        · exact Nat.le_trans (hle t ht) (by omega)
        · exact Nat.le_of_eq (by rw [List.mem_singleton.1 ht, hnew, hchannel])

end Topics

end Storyline
