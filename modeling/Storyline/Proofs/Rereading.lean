import Storyline.Proofs.Documents
import Storyline.Proofs.Keeping
import Storyline.Proofs.Recording.Interleaving
import Storyline.Proofs.Recording.Path

/-! Transcripts that are read again. Whatever happens to a recorder, its notes stay in order, and it counts no
further than things have happened. -/

namespace Storyline

structure StepDraft.Sized (n : Nat) (s : StepDraft) : Prop where
  depth : s.depth ≤ n
  draft : s.draft.Sized n

structure Ledger.Sized (n : Nat) (l : Ledger) : Prop where
  setup : ∀ d ∈ l.setup, d.Sized n
  stories : ∀ story ∈ l.stories, ∀ step ∈ story.steps, step.Sized n

theorem mem_modifyLast {β : Type} {f : β → β} {xs : List β} {x : β} (h : x ∈ modifyLast f xs) :
    x ∈ xs ∨ ∃ y ∈ xs, x = f y := by
  induction xs using List.reverseRecOn with
  | nil => cases h
  | append_singleton xs y _ =>
    rw [modifyLast_concat] at h
    rcases List.mem_append.1 h with h | h
    · exact .inl (List.mem_append_left _ h)
    · exact .inr ⟨y, by simp, List.mem_singleton.1 h⟩

namespace Ledger

variable {n : Nat} {l : Ledger}

theorem Sized.mono {m : Nat} (h : l.Sized n) (hle : n ≤ m) : l.Sized m where
  setup := fun d hd => (h.setup d hd).mono hle
  stories := fun story hstory step hstep =>
    have hsized := h.stories story hstory step hstep
    ⟨hsized.depth.trans hle, hsized.draft.mono hle⟩

theorem Sized.inScope {m : Nat} {f : Draft → Draft} (h : l.Sized n) (hle : n ≤ m)
    (hf : ∀ d : Draft, d.Sized n → (f d).Sized m) (scope : Scope) : (l.inScope scope f).Sized m := by
  cases scope with
  | scratch => exact h.mono hle
  | setup =>
    refine ⟨?_, (h.mono hle).stories⟩
    intro d hd
    obtain ⟨d', hd', rfl⟩ := Option.map_eq_some_iff.1 hd
    exact hf d' (h.setup d' hd')
  | step =>
    refine ⟨(h.mono hle).setup, ?_⟩
    intro story hstory step hstep
    rcases mem_modifyLast hstory with hstory | ⟨story', hstory', rfl⟩
    · exact (h.mono hle).stories story hstory step hstep
    · rcases mem_modifyLast hstep with hstep | ⟨step', hstep', rfl⟩
      · exact (h.mono hle).stories story' hstory' step hstep
      · have hsized := h.stories story' hstory' step' hstep'
        exact ⟨hsized.depth.trans hle, hf step'.draft hsized.draft⟩

theorem Sized.add (h : l.Sized n) {step : StepDraft} (hstep : step.Sized n) : (l.add [step]).Sized n := by
  refine ⟨h.setup, ?_⟩
  intro story hstory step' hstep'
  rcases mem_modifyLast hstory with hstory | ⟨story', hstory', rfl⟩
  · exact h.stories story hstory step' hstep'
  · rcases List.mem_append.1 hstep' with hstep' | hstep'
    · exact h.stories story' hstory' step' hstep'
    · obtain rfl := List.mem_singleton.1 hstep'
      exact hstep

end Ledger

/-- A recorder to which no more than `n` things have happened. -/
structure Recorder.Sized (n : Nat) (r : Recorder) : Prop where
  isOpen : r.channel.isOpen
  depth : r.depth ≤ n
  ledger : r.ledger.Sized n

namespace Recorder

variable {n : Nat} {r : Recorder}

theorem sized_new (topic : String) : (new topic).Sized 0 := ⟨rfl, Nat.le_refl 0, ⟨nofun, nofun⟩⟩

theorem Sized.mono {m : Nat} (h : r.Sized n) (hle : n ≤ m) : r.Sized m :=
  ⟨h.isOpen, h.depth.trans hle, h.ledger.mono hle⟩

theorem Sized.send (h : r.Sized n) (m : Message) : (r.send m).Sized (n + 1) := by
  have hledger : (r.send m).ledger = r.ledger.inScope r.scope (·.take m) := r.ledger_hear [m] h.isOpen
  refine ⟨?_, h.depth.trans (Nat.le_succ n), ?_⟩
  · simp [Recorder.send, Channel.send, h.isOpen]
  · rw [hledger]
    exact h.ledger.inScope (Nat.le_succ n) (fun d hd => hd.take m) r.scope

theorem Sized.closes {f : Recorder → Recorder} (h : r.Sized n) (hf : Closes f) (hdepth : (f r).depth ≤ n) :
    (f r).Sized n := by
  refine ⟨(hf.isOpen r).trans h.isOpen, hdepth, ?_⟩
  rw [hf.ledger r]
  exact h.ledger

theorem Sized.beginSetup (h : r.Sized n) : r.beginSetup.Sized n := by
  have hledger : r.beginSetup.ledger = { r.ledger with setup := r.ledger.setup.or (some {}) } :=
    r.ledger_setup [] h.isOpen
  refine ⟨?_, ?_, ?_⟩
  · rw [beginSetup_isOpen]
    exact h.isOpen
  · have hdepth : r.beginSetup.depth = r.depth := by
      unfold Recorder.beginSetup
      split_ifs
      · exact r.switch_depth .setup
      · exact r.switch_depth .scratch
    rw [hdepth]
    exact h.depth
  · rw [hledger]
    refine ⟨?_, h.ledger.stories⟩
    intro d hd
    rcases Option.or_eq_some_iff.1 hd with hd | ⟨-, hd⟩
    · exact h.ledger.setup d hd
    · obtain rfl := Option.some.inj hd
      exact Draft.sized_empty n

theorem Sized.beginStory (h : r.Sized n) (description : String) : (r.beginStory description).Sized n := by
  refine ⟨h.isOpen, ?_, ?_⟩
  · exact (r.switch_depth .scratch).trans_le h.depth
  · rw [r.ledger_beginStory]
    refine ⟨h.ledger.setup, ?_⟩
    intro story hstory step hstep
    rcases List.mem_append.1 hstory with hstory | hstory
    · exact h.ledger.stories story hstory step hstep
    · obtain rfl := List.mem_singleton.1 hstory
      cases hstep

theorem Sized.endStory (h : r.Sized n) : r.endStory.Sized n := by
  refine ⟨h.isOpen, (r.switch_depth .scratch).trans_le h.depth, ?_⟩
  have hledger : r.endStory.ledger = r.ledger := r.ledger_switch .scratch
  rw [hledger]
  exact h.ledger

theorem Sized.beginStep (h : r.Sized n) (description : String) (isFork : Bool) :
    (r.beginStep description isFork).Sized (n + 1) := by
  refine ⟨?_, ?_, ?_⟩
  · rw [beginStep_isOpen]
    exact h.isOpen
  · rw [beginStep_depth]
    exact Nat.succ_le_succ h.depth
  · rw [ledger_beginStep]
    refine Ledger.Sized.mono ?_ (Nat.le_succ n)
    split_ifs
    · exact h.ledger.add ⟨h.depth, Draft.sized_empty n⟩
    · exact h.ledger

end Recorder

/-! What stands in the slots. -/

def SlotState.Recordable : SlotState → Prop
  | .filled a => a.Recordable
  | .waiting | .dropped => True

def Slots.Recordable (s : Slots) : Prop := ∀ state ∈ s.states, state.Recordable

namespace Slots.Recordable

variable {s : Slots}

theorem reserve (h : s.Recordable) : s.reserve.Recordable :=
  List.forall_mem_append.2 ⟨h, List.forall_mem_singleton.2 trivial⟩

theorem settle (h : s.Recordable) (slot : Nat) {state : SlotState} (hstate : state.Recordable) :
    (s.settle slot state).Recordable := by
  unfold Slots.settle
  split
  · intro state' hmem
    rcases List.mem_or_eq_of_mem_set hmem with hmem | rfl
    · exact h state' hmem
    · exact hstate
  · exact h

theorem action (h : s.Recordable) (slot : Nat) : (s.action slot).Recordable := by
  unfold Slots.action
  split
  · rename_i a ha
    unfold Slots.state at ha
    cases hget : s.states[slot]? with
    | none =>
      rw [hget] at ha
      cases ha
    | some state =>
      rw [hget] at ha
      obtain rfl : state = .filled a := ha
      exact h _ (List.mem_of_getElem? hget)
  · exact ⟨nofun, nofun⟩

end Slots.Recordable

/-- A delivery of which nothing is recorded that cannot be: its status is one, its request is not null, and
whatever is recorded of its payloads has no fractions in it. -/
structure Delivery.Recordable (d : Delivery) : Prop where
  status : ∀ n ∈ d.status, n ≤ 0xFFFF
  request : ∀ v, d.request.record = .ok v → v.recordable ∧ v ≠ .null
  body : ∀ v, d.body.record = .ok v → v.recordable

theorem Delivery.Recordable.action {d : Delivery} (h : d.Recordable) {a : Action} (ha : d.action = .ok a) :
    a.Recordable := by
  rw [Delivery.action, Response.capture] at ha
  cases hbody : d.body.record with
  | error e =>
    rw [hbody] at ha
    cases ha
  | ok body =>
    cases hrequest : d.request.record with
    | error e =>
      rw [hbody, hrequest] at ha
      cases ha
    | ok request =>
      rw [hbody, hrequest] at ha
      cases ha
      refine ⟨?_, ?_⟩
      · intro v hv
        obtain rfl := Option.some.inj hv
        exact h.request _ hrequest
      · intro r hr
        obtain rfl := Option.some.inj hr
        exact ⟨h.status, h.body _ hbody⟩

/-! What a transcript is made of. -/

theorem Draft.Sized.resolve {n : Nat} {d : Draft} (h : d.Sized n) (hn : n ≤ 0xFFFFFFFFFFFFFFFF) {slots : Slots}
    (hslots : slots.Recordable) : (d.resolve slots).Recordable := by
  refine ⟨List.forall_mem_map.2 fun slot _ => hslots.action slot, h.ascending, ?_⟩
  intro key hkey
  exact ((h.placed key hkey).trans h.length).trans hn

theorem Ledger.Sized.resolve {n : Nat} {l : Ledger} (h : l.Sized n) (hn : n ≤ 0xFFFFFFFFFFFFFFFF) {slots : Slots}
    (hslots : slots.Recordable) (description : String) :
    Transcript.Recordable ⟨description, l.setup.map (·.resolve slots), l.stories.map (·.resolve slots)⟩ := by
  refine ⟨?_, List.forall_mem_map.2 fun story hstory => List.forall_mem_map.2 fun step hstep => ?_⟩
  · intro r hr
    obtain ⟨d, hd, rfl⟩ := Option.map_eq_some_iff.1 hr
    exact (h.setup d hd).resolve hn hslots
  · have hstep := h.stories story hstory step hstep
    exact ⟨hstep.depth.trans hn, hstep.draft.resolve hn hslots⟩

namespace Rehearsal

variable {s : Slots}

theorem recordable_dropHeld (h : s.Recordable) (held : Holdings) (name : String) :
    (dropHeld s held name).Recordable := by
  unfold dropHeld
  split
  · exact h.settle _ trivial
  · exact h

theorem recordable_deliver (h : s.Recordable) (slot : Nat) {d : Delivery} (hd : d.Recordable) :
    (deliver s slot d).2.Recordable := by
  unfold deliver
  split
  · rename_i a ha
    exact h.settle slot (hd.action ha)
  · exact h.settle slot trivial

def RecordingOp.delivery? : RecordingOp → Option Delivery
  | .fill _ d => some d
  | .call d => some d
  | _ => none

/-- A recording to which no more than `n` things have happened, and which was handed nothing that cannot be
recorded. -/
structure Recording.Sized (n : Nat) (s : Recording) : Prop where
  recorder : s.recorder.Sized n
  slots : s.slots.Recordable

theorem Recording.Sized.step {n : Nat} {s : Recording} (h : s.Sized n) {op : RecordingOp}
    (hop : ∀ d ∈ op.delivery?, d.Recordable) : (s.step op).2.Sized (n + 1) := by
  have hle := Nat.le_succ n
  have hdepth : s.recorder.depth ≤ n + 1 := h.recorder.depth.trans hle
  have hstay := h.recorder.mono hle
  cases op with
  | beginScratch =>
    exact ⟨hstay.closes closes_beginScratch ((s.recorder.switch_depth .scratch).trans_le hdepth), h.slots⟩
  | beginSetup => exact ⟨hstay.beginSetup, h.slots⟩
  | beginStory description => exact ⟨hstay.beginStory description, h.slots⟩
  | endStory => exact ⟨hstay.endStory, h.slots⟩
  | beginPath => exact ⟨hstay.closes closes_beginPath (Nat.zero_le _), h.slots⟩
  | endPath => exact ⟨hstay.closes closes_endPath (Nat.zero_le _), h.slots⟩
  | beginStep description isFork => exact ⟨h.recorder.beginStep description isFork, h.slots⟩
  | endScope =>
    exact ⟨hstay.closes closes_endScope ((s.recorder.switch_depth .scratch).trans_le hdepth), h.slots⟩
  | note text => exact ⟨h.recorder.send (.note text), h.slots⟩
  | reserve name => exact ⟨h.recorder.send _, recordable_dropHeld h.slots.reserve _ _⟩
  | drop name => exact ⟨hstay, recordable_dropHeld h.slots _ _⟩
  | fill name d =>
    rw [Recording.step]
    split
    · exact ⟨hstay, h.slots⟩
    · exact ⟨hstay, recordable_deliver h.slots _ (hop d rfl)⟩
  | call d => exact ⟨h.recorder.send _, recordable_deliver h.slots.reserve _ (hop d rfl)⟩
  | stash => exact ⟨hstay, h.slots⟩
  | stashNote text =>
    rw [Recording.step]
    split
    · exact ⟨h.recorder.send (.note text), h.slots⟩
    · exact ⟨hstay, h.slots⟩
  | other => exact ⟨hstay, h.slots⟩

theorem Recording.Sized.after {n : Nat} {s : Recording} (h : s.Sized n) {ops : List RecordingOp}
    (hops : ∀ op ∈ ops, ∀ d ∈ op.delivery?, d.Recordable) : (s.after ops).Sized (n + ops.length) := by
  induction ops generalizing n s with
  | nil => exact h
  | cons op ops ih =>
    have hstep := h.step (hops op List.mem_cons_self)
    have hafter := ih hstep fun op' hop' => hops op' (List.mem_cons_of_mem op hop')
    rw [List.length_cons, Nat.add_comm ops.length, ← Nat.add_assoc]
    exact hafter

theorem transcriptOf_recordable (topic : String) {ops : List RecordingOp}
    (hops : ∀ op ∈ ops, ∀ d ∈ op.delivery?, d.Recordable) (hcount : ops.length ≤ 0xFFFFFFFFFFFFFFFF) :
    (transcriptOf topic ops).Recordable := by
  have hstart : (Recording.ofTopic topic).Sized 0 := ⟨Recorder.sized_new topic, nofun⟩
  have hafter := hstart.after hops
  rw [Nat.zero_add] at hafter
  rw [transcriptOf, Recording.transcript, Recorder.finish_eq]
  exact hafter.recorder.ledger.resolve hcount hafter.slots _

end Rehearsal

/-- What a recorder finishes with can be read from its document, and is what was recorded, if the document nests no
deeper than documents may; otherwise it is refused. It never is where no request and no body comes closer to that
limit, by itself, than the eight containers around it. Requests are not null here, which would be read as none. -/
theorem recorded_document_reads (topic : String) (ops : List Rehearsal.RecordingOp)
    (hops : ∀ op ∈ ops, ∀ d ∈ op.delivery?, d.Recordable) (hcount : ops.length ≤ 0xFFFFFFFFFFFFFFFF) :
    let t := Rehearsal.transcriptOf topic ops
    Json.document Transcript.decode t.document = (if t.toValue.height ≤ Json.maxDepth then some t else none) ∧
    ((∀ a ∈ t.actions, a.Shallow (Json.maxDepth - 8)) → Json.document Transcript.decode t.document = some t) := by
  intro t
  have hreads : Json.document Transcript.decode t.document =
      if t.toValue.height ≤ Json.maxDepth then some t else none :=
    Transcript.document_reads (Rehearsal.transcriptOf_recordable topic hops hcount)
  refine ⟨hreads, fun hshallow => hreads.trans (if_pos ?_)⟩
  exact Transcript.height_le hshallow

namespace Rehearsal

/-- A recording of one setup, with a note and what is handed over. -/
def exchange (request body : Value) : List RecordingOp :=
  [.beginSetup, .note "knock", .call ⟨"visitor", some 200, .value request, .value body⟩]

def nestedArrays : Nat → Value
  | 0 => .array []
  | n + 1 => .array [nestedArrays n]

theorem exchange_recordable {request body : Value} (hrequest : request.recordable ∧ request ≠ .null)
    (hbody : body.recordable) : ∀ op ∈ exchange request body, ∀ d ∈ op.delivery?, d.Recordable := by
  intro op hop d hd
  have hd : d = ⟨"visitor", some 200, .value request, .value body⟩ := by
    simp only [exchange, List.mem_cons, List.not_mem_nil, or_false] at hop
    rcases hop with rfl | rfl | rfl
    · cases hd
    · cases hd
    · exact (Option.some.inj hd).symm
  subst hd
  refine ⟨?_, ?_, ?_⟩
  · intro n hn
    obtain rfl := Option.some.inj hn
    decide
  · rintro v ⟨⟩
    exact hrequest
  · rintro v ⟨⟩
    exact hbody

theorem text_exchange_reads :
    let t := transcriptOf "door" (exchange (.text "hello") .null)
    t.toValue.height ≤ Json.maxDepth ∧ Json.document Transcript.decode t.document = some t := by
  have hops : ∀ op ∈ exchange (.text "hello") .null, ∀ d ∈ op.delivery?, d.Recordable :=
    exchange_recordable ⟨rfl, nofun⟩ rfl
  have hheight : (transcriptOf "door" (exchange (.text "hello") .null)).toValue.height ≤ Json.maxDepth := by
    decide +kernel
  have hreads := (recorded_document_reads "door" _ hops (by decide)).1
  rw [if_pos hheight] at hreads
  exact ⟨hheight, hreads⟩

def requests (t : Transcript) : List Value := t.actions.filterMap (·.request)

theorem recordable_nestedArrays (n : Nat) : (nestedArrays n).recordable := by
  induction n with
  | zero => rfl
  | succ n ih => exact Bool.and_eq_true_iff.2 ⟨ih, rfl⟩

/-- A request that is null is lost, and a body in two hundred arrays makes the whole document unreadable. -/
theorem null_and_deep_not_read :
    Json.document Transcript.decode (transcriptOf "door" (exchange .null .null)).document ≠
      some (transcriptOf "door" (exchange .null .null)) ∧
    Json.document Transcript.decode
      (transcriptOf "door" (exchange (.bool true) (nestedArrays 200))).document = none := by
  refine ⟨?_, ?_⟩
  · have hfree : (transcriptOf "door" (exchange .null .null)).toValue.floatFree := by decide +kernel
    rw [Transcript.document, Json.document_pretty Transcript.decode hfree]
    intro h
    have hrequests := congrArg (Option.map fun t => (requests t).length) h
    revert hrequests
    decide +kernel
  · have hops : ∀ op ∈ exchange (.bool true) (nestedArrays 200), ∀ d ∈ op.delivery?, d.Recordable :=
      exchange_recordable ⟨rfl, nofun⟩ (recordable_nestedArrays 200)
    have hreads := Transcript.document_reads (transcriptOf_recordable "door" hops (by decide))
    rwa [if_neg (by decide +kernel)] at hreads

end Rehearsal

end Storyline
