import Storyline.Desk
import Storyline.Proofs.Recording.Sites
import Storyline.Rehearsal.Recording

/-! Slots that are filled late. A reservation takes its place in a record at once, and the action for it may come at
any time until the recording is finished, whatever has been recorded in between and whether or not the record is
still open. So it does not matter when a slot is filled, nor in which order slots are. -/

namespace Storyline

/-- What happens while a topic is recorded. Reservations are numbered, one after another. -/
inductive Move where
  | direct (d : Direction)
  | note (text : String)
  | reserve
  | fill (slot : Nat) (actor : String) (request : Payload) (response : Response)
  | drop (slot : Nat)

/-- A recording and, once it is finished, its transcript. -/
structure Sitting where
  desk : Desk
  finished : Option Transcript := none

namespace Sitting

def atDesk (s : Sitting) (f : Desk → Desk) : Sitting := { s with desk := f s.desk }

/-- Makes a move and says how it went. To fill a slot with a request that cannot be recorded is to drop it. -/
def play (s : Sitting) : Move → Except Error Unit × Sitting
  | .direct d => (.ok (), s.atDesk (·.record d.apply))
  | .note text => (.ok (), s.atDesk fun desk => desk.take (.note desk.scribe text))
  | .reserve => (.ok (), s.atDesk fun desk => desk.take (.reserve desk.scribe))
  | .fill slot actor request response =>
      match request.record with
      | .ok v => (.ok (), s.atDesk (·.take (.fill slot (.of actor v response))))
      | .error e => (.error e, s.atDesk (·.take (.drop slot)))
  | .drop slot => (.ok (), s.atDesk (·.take (.drop slot)))

def after (s : Sitting) (moves : List Move) : Sitting := moves.foldl (fun s m => (s.play m).2) s

def finish (s : Sitting) : Sitting where
  desk := s.desk.record fun r => { r with channel := r.channel.close }
  finished := some s.desk.transcript

end Sitting

namespace Move

/-- The slot that a move settles, with the action that is delivered for it, if there is one. -/
def outcome? : Move → Option (Nat × Option Action)
  | .fill slot actor request response => some (slot, request.record.toOption.map (.of actor · response))
  | .drop slot => some (slot, none)
  | _ => none

def isReservation : Move → Bool
  | .reserve => true
  | _ => false

/-- What reaches the recorder of some moves, if the next reservation has a given number. -/
def signals : Nat → List Move → List Signal
  | _, [] => []
  | next, .direct d :: rest => .direction d :: signals next rest
  | next, .note text :: rest => .message (.note text) :: signals next rest
  | next, .reserve :: rest => .message (.reserve next) :: signals (next + 1) rest
  | next, _ :: rest => signals next rest

/-- Slots are filled and dropped when they have been reserved. -/
def Reserved : Nat → List Move → Prop
  | _, [] => True
  | next, .reserve :: rest => Reserved (next + 1) rest
  | next, m :: rest => (∀ outcome ∈ m.outcome?, outcome.1 < next) ∧ Reserved next rest

/-- Moves as drivers can make them, who have a handle for each slot they have reserved, and use it up. -/
structure Owned (next : Nat) (moves : List Move) : Prop where
  once : ((moves.filterMap outcome?).map (·.1)).Nodup
  reserved : Reserved next moves

/-- The action that is delivered for a slot; an empty one if none is. -/
def delivered (moves : List Move) (n : Nat) : Action := ((moves.filterMap outcome?).lookup n).join.getD {}

theorem lookup_cons (m : Move) (rest : List Move) (n : Nat) :
    ((m :: rest).filterMap outcome?).lookup n =
      (m.outcome?.toList.lookup n).or ((rest.filterMap outcome?).lookup n) := by
  rw [← List.lookup_append, List.filterMap_cons]
  cases m.outcome? <;> rfl

end Move

def SlotState.settled : Option Action → SlotState
  | some action => .filled action
  | none => .dropped

def Message.slot? : Message → Option Nat
  | .reserve slot => some slot
  | .note _ => none

section Slots

variable (slots : Slots) (n k : Nat) (state : SlotState)

theorem Slots.next_settle : (slots.settle k state).next = slots.next := by
  unfold settle
  split
  · simp [next]
  · rfl

theorem Slots.next_reserve : slots.reserve.next = slots.next + 1 := by
  simp [reserve, next]

theorem Slots.state_reserve (h : n < slots.next) : slots.reserve.state n = slots.state n := by
  simp [reserve, Slots.state, List.getElem?_append_left h]

theorem Slots.state_reserve_next : slots.reserve.state slots.next = .waiting := by
  simp [reserve, Slots.state, next]

theorem Slots.state_settle :
    (slots.settle k state).state n =
      match slots.state n with
      | .waiting => if k = n then state else .waiting
      | settled => settled := by
  have hset (hk : slots.state k = .waiting) :
      Slots.state ⟨slots.states.set k state⟩ n = if k = n then state else slots.state n := by
    have hlt : k < slots.states.length := by
      by_contra hge
      rw [Slots.state, List.getElem?_eq_none (by omega)] at hk
      cases hk
    by_cases hn : k = n
    · subst hn
      simp [Slots.state, hlt]
    · simp [Slots.state, hn]
  by_cases hn : k = n
  · subst hn
    unfold settle
    cases hk : slots.state k with
    | waiting => simpa using hset hk
    | _ => simp [hk]
  · have hsame : (slots.settle k state).state n = slots.state n := by
      unfold settle
      split
      · rename_i hk
        rw [hset hk, if_neg hn]
      · rfl
    rw [hsame]
    cases slots.state n <;> simp [hn]

end Slots

namespace Sitting

variable (s : Sitting) (m : Move) (moves : List Move)

theorem play_slots : (s.play m).2.desk.slots =
    match m.outcome? with
    | some (slot, action) => s.desk.slots.settle slot (.settled action)
    | none => if m.isReservation then s.desk.slots.reserve else s.desk.slots := by
  cases m with
  | fill slot actor request response =>
    simp only [play, Move.outcome?]
    cases request.record <;> rfl
  | note text => simp [play, atDesk, Desk.take, Desk.send, Desk.record, Move.outcome?, Move.isReservation]
  | reserve => simp [play, atDesk, Desk.take, Desk.send, Desk.record, Move.outcome?, Move.isReservation]
  | _ => rfl

/-- What a move does to the recorder. Fills and drops do not reach it. -/
theorem play_recorder : (s.play m).2.desk.recorder =
    s.desk.recorder.after (Move.signals s.desk.slots.next [m]) := by
  cases m with
  | fill slot actor request response =>
    simp only [play]
    cases request.record <;> rfl
  | note text => simp [play, atDesk, Desk.take, Desk.send, Desk.record, Move.signals, Recorder.after, Recorder.take]
  | reserve => simp [play, atDesk, Desk.take, Desk.send, Desk.record, Move.signals, Recorder.after, Recorder.take]
  | _ => rfl

theorem play_next : (s.play m).2.desk.slots.next = s.desk.slots.next + if m.isReservation then 1 else 0 := by
  rw [play_slots]
  cases m <;> simp [Slots.next_settle, Slots.next_reserve, Move.outcome?, Move.isReservation]

theorem play_state {n : Nat} (h : n < s.desk.slots.next) :
    (s.play m).2.desk.slots.state n =
      match s.desk.slots.state n with
      | .waiting => (m.outcome?.toList.lookup n).elim .waiting .settled
      | settled => settled := by
  rw [play_slots]
  cases m.outcome? with
  | some outcome =>
    obtain ⟨slot, action⟩ := outcome
    dsimp only
    rw [Slots.state_settle]
    by_cases hslot : slot = n
    · simp [hslot]
    · have hne : (n == slot) = false := beq_false_of_ne (Ne.symm hslot)
      simp [hslot, List.lookup_cons, hne]
  | none =>
    have hsame : (if m.isReservation then s.desk.slots.reserve else s.desk.slots).state n =
        s.desk.slots.state n := by
      split
      · exact Slots.state_reserve _ _ h
      · rfl
    dsimp only
    rw [hsame]
    cases s.desk.slots.state n <;> rfl

theorem after_state {n : Nat} (h : n < s.desk.slots.next) :
    (s.after moves).desk.slots.state n =
      match s.desk.slots.state n with
      | .waiting => ((moves.filterMap Move.outcome?).lookup n).elim .waiting .settled
      | settled => settled := by
  induction moves generalizing s with
  | nil =>
    change s.desk.slots.state n = _
    cases s.desk.slots.state n <;> rfl
  | cons m rest ih =>
    change ((s.play m).2.after rest).desk.slots.state n = _
    rw [ih _ (by rw [play_next]; omega), play_state s m h, Move.lookup_cons]
    cases s.desk.slots.state n with
    | waiting => rcases m.outcome?.toList.lookup n with _ | _ | action <;> rfl
    | _ => rfl

end Sitting

theorem lookup_eq_some_iff {β : Type} {entries : List (Nat × β)} (h : (entries.map (·.1)).Nodup) {n : Nat} {x : β} :
    entries.lookup n = some x ↔ (n, x) ∈ entries := by
  induction entries with
  | nil => simp
  | cons entry entries ih =>
    obtain ⟨k, y⟩ := entry
    rw [List.map_cons, List.nodup_cons] at h
    rw [List.lookup_cons, List.mem_cons, ← ih h.2]
    by_cases hk : n = k
    · subst hk
      have hnot : entries.lookup n ≠ some x := fun hx =>
        h.1 (List.mem_map.2 ⟨_, (ih h.2).1 hx, rfl⟩)
      simp [hnot, eq_comm]
    · simp [hk, beq_false_of_ne hk]

namespace Move

variable {next n : Nat} {moves moves' : List Move}

theorem lookup_perm (h : Owned next moves) (hperm : moves'.Perm moves) (n : Nat) :
    (moves'.filterMap outcome?).lookup n = (moves.filterMap outcome?).lookup n := by
  have houtcomes := hperm.filterMap outcome?
  have honce' := ((houtcomes.map (·.1)).nodup_iff).2 h.once
  refine Option.ext fun x => ?_
  rw [lookup_eq_some_iff honce', lookup_eq_some_iff h.once]
  exact houtcomes.mem_iff

theorem signals_cons (next : Nat) (m : Move) (rest : List Move) :
    signals next (m :: rest) = signals next [m] ++ signals (next + if m.isReservation then 1 else 0) rest := by
  cases m <;> rfl

theorem signals_filter (next : Nat) (moves : List Move) :
    signals next (moves.filter (·.outcome?.isNone)) = signals next moves := by
  induction moves generalizing next with
  | nil => rfl
  | cons m rest ih =>
    cases hm : m.outcome?.isNone with
    | true => rw [List.filter_cons, if_pos hm, signals_cons, ih, ← signals_cons]
    | false =>
      rw [List.filter_cons, if_neg (by simp [hm]), ih]
      cases m with
      | fill => rfl
      | drop => rfl
      | _ => cases hm

theorem reserved_cons {m : Move} (hm : m.isReservation = false) :
    Reserved next (m :: moves) ↔ (∀ outcome ∈ m.outcome?, outcome.1 < next) ∧ Reserved next moves := by
  cases m with
  | reserve => cases hm
  | _ => exact Iff.rfl

theorem delivered_cons {m : Move} (h : ∀ outcome ∈ m.outcome?, outcome.1 ≠ n) :
    delivered (m :: moves) n = delivered moves n := by
  rw [delivered, lookup_cons, delivered]
  cases hm : m.outcome? with
  | none => rfl
  | some outcome =>
    obtain ⟨slot, action⟩ := outcome
    have hne : (n == slot) = false := beq_false_of_ne (h (slot, action) hm).symm
    simp [List.lookup_cons, hne]

theorem delivered_fill (h : Owned next moves) {actor : String} {request : Payload} {response : Response} {v : Value}
    (hfill : .fill n actor request response ∈ moves) (hv : request.record = .ok v) :
    delivered moves n = .of actor v response := by
  have hmem : (n, some (Action.of actor v response)) ∈ moves.filterMap outcome? :=
    List.mem_filterMap.2 ⟨_, hfill, by simp [outcome?, hv, Except.toOption]⟩
  rw [delivered, (lookup_eq_some_iff h.once).2 hmem]
  rfl

/-- A slot that is never filled, or with a request that cannot be recorded, gets no action. -/
theorem delivered_none (h : Owned next moves)
    (hnone : ∀ actor request response v, .fill n actor request response ∈ moves → request.record ≠ .ok v) :
    delivered moves n = {} := by
  rw [delivered]
  rcases hlookup : (moves.filterMap outcome?).lookup n with _ | _ | action
  · rfl
  · rfl
  · obtain ⟨m, hm, houtcome⟩ := List.mem_filterMap.1 ((lookup_eq_some_iff h.once).1 hlookup)
    cases m with
    | fill slot actor request response =>
      cases hv : request.record with
      | error e => simp [outcome?, hv, Except.toOption] at houtcome
      | ok v =>
        obtain rfl : slot = n := by simpa [outcome?] using congrArg (Option.map Prod.fst) houtcome
        exact absurd hv (hnone actor request response v hm)
    | _ => simp [outcome?] at houtcome

end Move

namespace Sitting

variable (s : Sitting) {moves : List Move}

theorem after_recorder (moves : List Move) :
    (s.after moves).desk.recorder = s.desk.recorder.after (Move.signals s.desk.slots.next moves) := by
  induction moves generalizing s with
  | nil => rfl
  | cons m rest ih =>
    change ((s.play m).2.after rest).desk.recorder = _
    rw [ih, play_recorder, play_next, Move.signals_cons _ m rest]
    exact List.foldl_append.symm

theorem after_finished (moves : List Move) : (s.after moves).finished = s.finished := by
  induction moves generalizing s with
  | nil => rfl
  | cons m rest ih =>
    refine (ih (s.play m).2).trans ?_
    cases m with
    | fill slot actor request response =>
      simp only [play]
      cases request.record <;> rfl
    | _ => rfl

/-- A slot of the recording holds what has been delivered for it, however late. -/
theorem after_action (h : Move.Reserved s.desk.slots.next moves) {n : Nat} (hn : s.desk.slots.next ≤ n) :
    (s.after moves).desk.slots.action n = Move.delivered moves n := by
  induction moves generalizing s with
  | nil =>
    have hnone : s.desk.slots.states[n]? = none := List.getElem?_eq_none hn
    change s.desk.slots.action n = {}
    rw [Slots.action, Slots.state, hnone]
    rfl
  | cons m rest ih =>
    change ((s.play m).2.after rest).desk.slots.action n = _
    cases hm : m.isReservation with
    | true =>
      obtain rfl : m = .reserve := by cases m <;> first | rfl | cases hm
      have hnext : (s.play .reserve).2.desk.slots.next = s.desk.slots.next + 1 := s.play_next .reserve
      rcases Nat.eq_or_lt_of_le hn with rfl | hlt
      · -- the slot that is reserved now waits for what the other moves deliver
        have hwaiting : (s.play .reserve).2.desk.slots.state s.desk.slots.next = .waiting := by
          rw [play_slots]
          exact s.desk.slots.state_reserve_next
        rw [Slots.action, after_state _ _ (by omega), hwaiting, Move.delivered, Move.lookup_cons]
        rcases (rest.filterMap Move.outcome?).lookup s.desk.slots.next with _ | _ | action <;> rfl
      · exact ih _ (by rw [hnext]; exact h) (by omega)
    | false =>
      have hnext : (s.play m).2.desk.slots.next = s.desk.slots.next := by simp [play_next, hm]
      obtain ⟨hbefore, hrest⟩ := (Move.reserved_cons hm).1 h
      rw [ih _ (by rwa [hnext]) (by omega), Move.delivered_cons fun outcome hmem => ?_]
      have := hbefore outcome hmem
      omega

end Sitting

theorem Recorder.finish_congr (r : Recorder) {slots slots' : Slots} (h : ∀ n, slots.action n = slots'.action n) :
    r.finish slots = r.finish slots' := by
  have hdraft (d : Draft) : d.resolve slots = d.resolve slots' := by
    rw [Draft.resolve, Draft.resolve, funext h]
  have hstep : StepDraft.resolve slots = StepDraft.resolve slots' := by
    funext step
    rw [StepDraft.resolve, StepDraft.resolve, hdraft]
  have hstory : StoryDraft.resolve slots = StoryDraft.resolve slots' := by
    funext story
    rw [StoryDraft.resolve, StoryDraft.resolve, hstep]
  rw [finish_eq, finish_eq, hstory, funext hdraft]

theorem Draft.slots_absorb (d : Draft) (ms : List Message) :
    (d.absorb ms).slots = d.slots ++ ms.filterMap Message.slot? := by
  induction ms generalizing d with
  | nil => simp
  | cons m ms ih =>
    change ((d.take m).absorb ms).slots = _
    rw [ih]
    cases m <;> simp [take, Message.slot?, List.filterMap_cons]

theorem Recorder.le_of_sentTo (site : Site) (r : Recorder) (next : Nat) (moves : List Move) :
    ∀ slot ∈ (sentTo site r (Move.signals next moves)).filterMap Message.slot?, next ≤ slot := by
  induction moves generalizing r next with
  | nil => simp [Move.signals, sentTo]
  | cons m rest ih =>
    cases m with
    | direct d => exact ih (d.apply r) next
    | note text =>
      intro slot hslot
      refine ih (r.send (.note text)) next slot ?_
      simp only [Move.signals, sentTo, List.filterMap_append, List.mem_append] at hslot
      refine hslot.resolve_left fun hnote => ?_
      split at hnote <;> simp [Message.slot?] at hnote
    | reserve =>
      intro slot hslot
      simp only [Move.signals, sentTo, List.filterMap_append, List.mem_append] at hslot
      rcases hslot with hslot | hslot
      · split at hslot <;> simp [Message.slot?] at hslot
        omega
      · have := ih (r.send (.reserve next)) (next + 1) slot hslot
        omega
    | fill => exact ih r next
    | drop => exact ih r next

section Transcript

open Move Recorder

variable (d : Desk) (topic : String) {moves moves' : List Move}

def Sitting.begin : Sitting := ⟨d.startTopic topic, none⟩

/-- A record has the actions reserved while it was open, with what has been delivered for them. -/
theorem transcript_record? (h : Reserved d.slots.next moves) {site : Site} (hsite : site ≠ .scratch) :
    let sent := sentTo site (new topic) (signals d.slots.next moves)
    (((Sitting.begin d topic).after moves).desk.transcript.record? site).getD {} =
      ⟨(sent.filterMap Message.slot?).map (delivered moves), (({} : Draft).absorb sent).notes⟩ := by
  intro sent
  have hdraft : ((((Sitting.begin d topic).after moves).desk.recorder.ledger.record? site).getD {}) =
      ({} : Draft).absorb sent := by
    rw [Sitting.after_recorder]
    exact ledger_after_new topic _ hsite
  have hrecord : ((((Sitting.begin d topic).after moves).desk.transcript.record? site).getD {}) =
      (({} : Draft).absorb sent).resolve ((Sitting.begin d topic).after moves).desk.slots := by
    rw [Desk.transcript, finish_record?, ← hdraft]
    exact Option.getD_map (Draft.resolve · _) ({} : Draft) _
  rw [hrecord, Draft.resolve, Draft.slots_absorb]
  refine congrArg (Record.mk · _) (List.map_congr_left fun slot hslot => ?_)
  exact Sitting.after_action _ h (le_of_sentTo site (new topic) _ _ slot hslot)

/-- Neither the order of fills and drops matters nor where they stand among the other moves. -/
theorem transcript_perm (h : Owned d.slots.next moves) (h' : Owned d.slots.next moves') (hperm : moves'.Perm moves)
    (hfilter : moves'.filter (·.outcome?.isNone) = moves.filter (·.outcome?.isNone)) :
    ((Sitting.begin d topic).after moves').desk.transcript =
      ((Sitting.begin d topic).after moves).desk.transcript := by
  have hsignals : signals d.slots.next moves' = signals d.slots.next moves := by
    rw [← signals_filter, hfilter, signals_filter]
  have hrecorder : ((Sitting.begin d topic).after moves').desk.recorder =
      ((Sitting.begin d topic).after moves).desk.recorder := by
    rw [Sitting.after_recorder, Sitting.after_recorder]
    exact congrArg (new topic).after hsignals
  rw [Desk.transcript, Desk.transcript, hrecorder]
  refine finish_congr _ fun n => ?_
  rcases Nat.lt_or_ge n d.slots.next with hn | hn
  · -- a slot of an earlier recording
    rw [Slots.action, Slots.action, Sitting.after_state _ _ hn, Sitting.after_state _ _ hn, lookup_perm h hperm]
  · rw [Sitting.after_action _ h'.reserved hn, Sitting.after_action _ h.reserved hn, delivered, delivered,
      lookup_perm h hperm]

end Transcript

open Move Recorder in
/-- While a topic is recorded, its record at any site of the transcript comes to have the actions that have been
reserved while the record was open, in the order of the reservations, each with what is delivered for it until the
recording is finished: the action it is filled with, or an empty one. So fills and drops can be made in any other
order and at any other time as long as the handles allow it, and those that come later change nothing. To fill a slot
fails if the request cannot be written as JSON, and for no other reason. -/
theorem fills_in_any_order (d : Desk) (topic : String) (moves : List Move) (h : Owned d.slots.next moves) :
    let start := Sitting.begin d topic
    let transcript := (start.after moves).desk.transcript
    (∀ site, site ≠ .scratch →
      let sent := sentTo site (new topic) (signals d.slots.next moves)
      (transcript.record? site).getD {} =
        ⟨(sent.filterMap Message.slot?).map (delivered moves), (({} : Draft).absorb sent).notes⟩) ∧
    (∀ n actor request response v, .fill n actor request response ∈ moves → request.record = .ok v →
      delivered moves n = .of actor v response) ∧
    (∀ n, (∀ actor request response v, .fill n actor request response ∈ moves → request.record ≠ .ok v) →
      delivered moves n = {}) ∧
    (∀ moves', Owned d.slots.next moves' → moves'.Perm moves →
      moves'.filter (·.outcome?.isNone) = moves.filter (·.outcome?.isNone) →
      (start.after moves').desk.transcript = transcript) ∧
    (∀ later, ((start.after moves).finish.after later).finished = some transcript) ∧
    ∀ (s : Sitting) n actor request response,
      (s.play (.fill n actor request response)).1.isOk ↔ ∃ v, request.toValue = .ok v := by
  intro start transcript
  refine ⟨fun site hsite => transcript_record? d topic h.reserved hsite, fun _ _ _ _ _ => delivered_fill h,
    fun _ => delivered_none h, fun moves' h' hperm hfilter => transcript_perm d topic h h' hperm hfilter,
    fun later => Sitting.after_finished _ later, fun s n actor request response => ?_⟩
  simp only [Sitting.play, Payload.record]
  cases request.toValue <;> simp [Except.mapError, Except.isOk, Except.toBool]

namespace Rehearsal

/-- Two slots are reserved in the setup. -/
def setupMoves : List Move := [.direct .beginSetup, .reserve, .note "between", .reserve]

def answered : Move := .fill 0 "visitor" (.value (.int 7)) ⟨some 200, .null⟩

/-- The second slot is filled with a request that cannot be recorded, a third is left in a record that is thrown
away, and a fourth is never filled. -/
def laterMoves : List Move :=
  [.direct .endScope, .fill 1 "visitor" (.refused "no") ⟨none, .null⟩, .reserve, .direct .beginScratch,
    .direct (.beginStory "s"), .direct .beginPath, .direct (.beginStep "a" false), .reserve, .direct .endPath]

/-- The first slot is filled at once, or after all the other moves. -/
theorem answered_late :
    let d : Desk := ⟨.new "", {}, 0⟩
    let start := Sitting.begin d "T"
    let prompt := setupMoves ++ answered :: laterMoves
    let late := setupMoves ++ (laterMoves ++ [answered])
    Move.Owned 0 prompt ∧ Move.Owned 0 late ∧
    (start.after late).desk.transcript = (start.after prompt).desk.transcript ∧
    (start.after late).desk.transcript.setup.map (fun record => (record.actions.map (·.actor), record.notes)) =
      some ([some "visitor", none], [(1, ["between"])]) ∧
    (start.after late).desk.transcript.stories.map (fun story => story.steps.map (·.record.actions.map (·.actor))) =
      [[[none]]] := by
  intro d start prompt late
  have hprompt : Move.Owned 0 prompt :=
    ⟨by decide, by simp [prompt, setupMoves, answered, laterMoves, Move.Reserved, Move.outcome?]⟩
  have hlate : Move.Owned 0 late :=
    ⟨by decide, by simp [late, setupMoves, answered, laterMoves, Move.Reserved, Move.outcome?]⟩
  obtain ⟨-, -, -, hperm, -⟩ := fills_in_any_order d "T" prompt hprompt
  refine ⟨hprompt, hlate, hperm late hlate ?_ rfl, ?_, ?_⟩
  · exact (List.perm_append_singleton answered laterMoves).append_left setupMoves
  · decide +kernel
  · decide +kernel

end Rehearsal

end Storyline
