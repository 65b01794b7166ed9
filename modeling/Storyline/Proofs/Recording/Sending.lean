import Storyline.Proofs.Recording.Topic

/-! Drivers that send only while a hook or a step's action runs. All that is heard in a scope is then what
the hook or action of the scope sent, and nothing if it was not called. Scripted drivers are of this kind:
what they do when they wait is to fill slots that were reserved before, or to drop them. -/

namespace Storyline

variable {α δ ω τ β : Type}

/-- Notes and reservations come to a recorder, fills and drops go to slots that are already there. -/
def Command.sends : Command → Bool
  | .note .. | .reserve _ => true
  | .fill .. | .drop _ => false

/-- Drivers that use their scribes in hooks and actions only. Nothing that is sent outside of them may come
to a recorder between the opening of a scope and its end; what is sent while a driver is made or asked
for its results does not matter. -/
structure Backend.SendsFromActions (b : Backend α δ ω) : Prop where
  wait : ∀ s next, ∀ c ∈ (b.wait s next).sent, ¬ c.sends
  scribingOn : ∀ scribe s next, ∀ c ∈ (b.scribingOn scribe s next).sent, ¬ c.sends
  scribingOff : ∀ s next, ∀ c ∈ (b.scribingOff s next).sent, ¬ c.sends

/-- What was sent while the hook or action ran; nothing if it was not called. -/
def Heard.sent (h : Heard) : List Message := h.called.getD []

theorem arriving_eq_nil (d : Desk) {cs : List Command} (h : ∀ c ∈ cs, ¬ c.sends) : d.arriving cs = [] := by
  induction cs generalizing d with
  | nil => rfl
  | cons c cs ih =>
    obtain ⟨hc, hcs⟩ := List.forall_mem_cons.1 h
    rw [Desk.arriving, ih _ hcs]
    cases c <;> simp_all [Command.sends, Desk.message?]

section Heard

variable {b : Backend α δ ω} (hb : b.SendsFromActions)

include hb in
theorem heardScribed_all (action : α) (s : Scene δ ω) :
    (heardScribed b action s).all = (heardScribed b action s).sent := by
  have hon : s.arriving (s.ask (b.scribingOn s.desk.scribe)) = [] :=
    arriving_eq_nil _ (hb.scribingOn _ _ _)
  have hoff (s : Scene δ ω) : s.arriving (s.ask b.scribingOff) = [] := arriving_eq_nil _ (hb.scribingOff _ _)
  unfold heardScribed
  dsimp only
  split
  · exact hon
  · rw [hon, Heard.sent, Option.getD_some, List.nil_append]
    split
    · exact List.append_nil _
    · rw [hoff, List.append_nil]

include hb in
theorem heardIn_all (action : Option α) (s : Scene δ ω) :
    (heardIn b action s).all = (heardIn b action s).sent := by
  have hwait : s.arriving (s.ask b.wait) = [] := arriving_eq_nil _ (hb.wait _ _)
  unfold heardIn
  dsimp only
  split
  · rw [hwait, List.nil_append, heardScribed_all hb]
    rfl
  · exact hwait

end Heard

section Traces

variable (b : Backend α δ ω) {P : Heard → Prop} (hP : ∀ action s, P (heardIn b action s))

include hP

theorem visitsFrom_heard {trail : List String} {done : List (Step α × Scene δ ω)} {v : Visit}
    (hv : v ∈ visitsFrom b trail done) : P v.heard := by
  induction done generalizing trail with
  | nil => simp [visitsFrom] at hv
  | cons x done ih =>
    rcases List.mem_cons.1 hv with rfl | hv
    · exact hP _ _
    · exact ih hv

theorem pathTrace_heard (suite : Suite α) (topic : Topic α) (path : Path α) (world : ω) (desk : Desk) :
    (∀ h ∈ (pathTrace b suite topic path world desk).setup, P h) ∧
    ∀ v ∈ (pathTrace b suite topic path world desk).visits, P v.heard := by
  unfold pathTrace
  dsimp only
  split
  · simp
  · unfold playTrace
    split
    · simp
    · refine ⟨fun h hh => ?_, fun v hv => ?_⟩
      · cases hh
        exact hP _ _
      · dsimp only at hv
        split at hv
        · simp at hv
        · exact visitsFrom_heard b hP hv

/-- What holds of every scope holds of all that a topic's trace tells. -/
theorem topicTrace_heard (notify : Notify τ ω) (selection : Selection) (suite : Suite α) (topic : Topic α)
    (s : Running τ ω) :
    let t := topicTrace b notify selection suite topic s
    (∀ h ∈ t.setups, P h) ∧ ∀ st ∈ t.stories, ∀ v ∈ st.visits, P v.heard := by
  intro t
  have hpaths : ∀ st ∈ t.stories, ∀ p ∈ st.paths, (∀ h ∈ p.setup, P h) ∧ ∀ v ∈ p.visits, P v.heard := by
    intro st hst p hp
    obtain ⟨⟨story, s'⟩, -, htrace⟩ := List.mem_filterMap.1 hst
    dsimp only [storyTrace] at htrace
    split at htrace
    · contradiction
    · cases htrace
      obtain ⟨⟨path, s''⟩, -, rfl⟩ := List.mem_map.1 hp
      exact pathTrace_heard b hP suite topic path s''.world s''.desk
  refine ⟨fun h hh => ?_, fun st hst v hv => ?_⟩
  · obtain ⟨st, hst, hh⟩ := List.mem_flatMap.1 hh
    obtain ⟨p, hp, hsetup⟩ := List.mem_filterMap.1 hh
    exact (hpaths st hst p hp).1 h hsetup
  · obtain ⟨p, hp, hv⟩ := List.mem_flatMap.1 hv
    exact (hpaths st hst p hp).2 v hv

end Traces

namespace Rehearsal

def Acting.Silent (acting : Acting β) : Prop :=
  ∀ t : Turn, (∀ c ∈ t.sent, ¬ c.sends) → ∀ c ∈ (acting t).2.sent, ¬ c.sends

namespace Acting

variable {γ : Type}

theorem silent_bind {acting : Acting β} {next : β → Acting γ} (h : Silent acting)
    (hnext : ∀ x, Silent (next x)) : Silent (acting >>= next) := by
  intro t ht
  have hsent := h t ht
  rw [bind_apply]
  rcases hacting : acting t with ⟨_ | x, t'⟩ <;> rw [hacting] at hsent
  · exact hsent
  · exact hnext x t' hsent

theorem silent_log (text : String) : Silent (log text) := fun _ ht => ht

theorem silent_deliver (slot : Nat) (d : Delivery) : Silent (deliver slot d) := by
  intro t ht
  unfold deliver Turn.deliver
  split
  · exact List.forall_mem_append.2 ⟨ht, by simp [Command.sends]⟩
  · exact List.forall_mem_append.2 ⟨ht, by simp [Command.sends]⟩

theorem silent_settleAll (fills : List LaterFill) : Silent (settleAll fills) := by
  induction fills with
  | nil => exact fun _ ht => ht
  | cons f rest ih =>
    exact silent_bind (silent_deliver f.slot f.delivery) fun _ => silent_bind (silent_log _) fun _ => ih

theorem silent_settle : Silent settle :=
  silent_bind (fun _ ht => ht) silent_settleAll

theorem silent_raiseIf (i : Option Interruption) : Silent (raiseIf i) := by
  cases i <;> exact fun _ ht => ht

theorem silent_wait : Silent wait :=
  silent_bind (silent_log _) fun _ => silent_bind silent_settle fun _ =>
    silent_bind (fun _ ht => ht) silent_raiseIf

end Acting

/-- Whatever its hooks and steps are made of, a scripted driver sends from nowhere else. -/
theorem backend_sendsFromActions : backend.SendsFromActions where
  wait := fun s next => Acting.silent_wait ⟨s.1, s.2, next, []⟩ (by simp)
  scribingOn := by simp [backend, hold]
  scribingOff := by simp [backend, hold]

end Rehearsal

end Storyline
