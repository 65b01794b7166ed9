import Storyline.Proofs.Deferral
import Mathlib.Data.List.Nodup

/-! Sessions with a recorder, in which slots are held under names, as moves. A name holds one slot at a time and a
slot that is filled or dropped is no longer held, so nothing is settled twice, nor before it is reserved. -/

namespace Storyline.Rehearsal

/-- What is delivered for a slot. A response that cannot be captured comes to nothing. -/
def deliveryMove (slot : Nat) (d : Delivery) : Move :=
  match Response.capture d.status d.body with
  | .ok response => .fill slot d.actor d.request response
  | .error _ => .drop slot

namespace Recording

def movesOf (s : Recording) : RecordingOp → List Move
  | .beginScratch => [.direct .beginScratch]
  | .beginSetup => [.direct .beginSetup]
  | .beginStory description => [.direct (.beginStory description)]
  | .endStory => [.direct .endStory]
  | .beginPath => [.direct .beginPath]
  | .endPath => [.direct .endPath]
  | .beginStep description isFork => [.direct (.beginStep description isFork)]
  | .endScope => [.direct .endScope]
  | .note text => [.note text]
  | .reserve name => .reserve :: (s.held.find? name).toList.map .drop
  | .drop name => (s.held.find? name).toList.map .drop
  | .fill name d => (s.held.find? name).toList.map (deliveryMove · d)
  | .call d => [.reserve, deliveryMove s.slots.next d]
  | .stashNote text => if s.hasStash then [.note text] else []
  | .stash | .other => []

def moves (s : Recording) : List RecordingOp → List Move
  | [] => []
  | op :: rest => s.movesOf op ++ moves (s.step op).2 rest

/-- The names hold different slots, and slots that have been reserved. -/
structure HoldsOwn (s : Recording) : Prop where
  apart : (s.held.map (·.2)).Nodup
  reserved : ∀ entry ∈ s.held, entry.2 < s.slots.next

/-- The session as a sitting, with a channel of some number. -/
def sitting (s : Recording) (channel : Nat) : Sitting := ⟨⟨s.recorder, s.slots, channel⟩, none⟩

end Recording

section Moves

variable (s : Recording) (channel : Nat)

open Recording

theorem play_deliveryMove (slot : Nat) (d : Delivery) (t : Sitting) :
    (t.play (deliveryMove slot d)).2 = t.atDesk fun desk => { desk with slots := (deliver desk.slots slot d).2 } := by
  unfold deliveryMove deliver Delivery.action
  cases Response.capture d.status d.body with
  | error e => rfl
  | ok response =>
    simp only [Sitting.play]
    cases d.request.record <;> rfl

theorem after_movesOf (op : RecordingOp) :
    (s.sitting channel).after (s.movesOf op) = (s.step op).2.sitting channel := by
  cases op with
  | reserve name =>
    simp only [movesOf, Recording.step, Recording.reserve, dropHeld]
    cases s.held.find? name <;>
      simp [Sitting.after, Sitting.play, Sitting.atDesk, sitting, Desk.take, Desk.send, Desk.record]
  | drop name =>
    simp only [movesOf, Recording.step, dropHeld]
    cases s.held.find? name <;> rfl
  | fill name d =>
    simp only [movesOf, Recording.step]
    cases s.held.find? name with
    | none => rfl
    | some slot => exact play_deliveryMove slot d (s.sitting channel)
  | call d =>
    refine (play_deliveryMove s.slots.next d _).trans ?_
    simp [Recording.step, Recording.reserve, Sitting.play, Sitting.atDesk, sitting, Desk.take, Desk.send, Desk.record]
  | note text =>
    simp [movesOf, Recording.step, Sitting.after, Sitting.play, Sitting.atDesk, sitting, Desk.take, Desk.send,
      Desk.record]
  | stashNote text =>
    simp only [movesOf, Recording.step]
    split <;>
      simp [Sitting.after, Sitting.play, Sitting.atDesk, sitting, Desk.take, Desk.send, Desk.record]
  | _ => rfl

theorem after_moves (ops : List RecordingOp) :
    (s.sitting channel).after (s.moves ops) = (s.after ops).sitting channel := by
  induction ops generalizing s with
  | nil => rfl
  | cons op rest ih =>
    change (s.sitting channel).after (s.movesOf op ++ (s.step op).2.moves rest) = _
    rw [Sitting.after, List.foldl_append]
    change ((s.sitting channel).after (s.movesOf op)).after _ = _
    rw [after_movesOf, ih]
    rfl

end Moves

def settled (moves : List Move) : List Nat := (moves.filterMap Move.outcome?).map (·.1)

section Handles

variable {s s' : Recording} {name : String} {slot : Nat}

open Recording Move

theorem settled_append (moves moves' : List Move) : settled (moves ++ moves') = settled moves ++ settled moves' := by
  simp [settled]

theorem mem_held (h : s.held.find? name = some slot) : (name, slot) ∈ s.held := by
  rw [Holdings.find?] at h
  generalize s.held = held at h
  induction held with
  | nil => cases h
  | cons entry held ih =>
    rw [List.lookup_cons] at h
    by_cases hname : name = entry.1
    · subst hname
      obtain rfl : entry.2 = slot := by simpa using h
      exact List.mem_cons_self
    · rw [beq_false_of_ne hname] at h
      exact List.mem_cons_of_mem _ (ih h)

theorem not_mem_without (h : s.HoldsOwn) (hslot : s.held.find? name = some slot) :
    slot ∉ (s.held.without name).map (·.2) := by
  intro hmem
  obtain ⟨entry, hentry, rfl⟩ := List.mem_map.1 hmem
  obtain ⟨hheld, hname⟩ := List.mem_filter.1 hentry
  have heq := List.inj_on_of_nodup_map h.apart hheld (mem_held hslot) rfl
  exact absurd (congrArg Prod.fst heq) (by simpa using hname)

theorem without_sublist (held : Holdings) (name : String) : (held.without name).Sublist held :=
  List.filter_sublist

theorem lt_of_held (h : s.HoldsOwn) : ∀ slot ∈ s.held.map (·.2), slot < s.slots.next :=
  List.forall_mem_map.2 h.reserved

theorem HoldsOwn.of_sublist (h : s.HoldsOwn) (hheld : s'.held.Sublist s.held)
    (hnext : s.slots.next ≤ s'.slots.next) : s'.HoldsOwn where
  apart := (hheld.map _).nodup h.apart
  reserved := fun entry hentry => Nat.lt_of_lt_of_le (h.reserved entry (hheld.subset hentry)) hnext

/-- Some moves with the session before and after them: they settle slots that were held or are new, each once, and
it is held no longer. -/
structure Spends (s : Recording) (moves : List Move) (s' : Recording) : Prop where
  owns : s'.HoldsOwn
  once : (settled moves).Nodup
  own : ∀ slot ∈ settled moves, slot ∈ s.held.map (·.2) ∨ s.slots.next ≤ slot
  spent : ∀ slot ∈ settled moves, slot ∉ s'.held.map (·.2) ∧ slot < s'.slots.next
  kept : ∀ slot ∈ s'.held.map (·.2), slot ∈ s.held.map (·.2) ∨ s.slots.next ≤ slot
  next : s.slots.next ≤ s'.slots.next
  reserved : ∀ rest, Reserved s'.slots.next rest → Reserved s.slots.next (moves ++ rest)

theorem Spends.idle (h : s.HoldsOwn) {moves : List Move} (hidle : ∀ m ∈ moves, m.outcome? = none ∧ ¬ m.isReservation)
    (hheld : s'.held.Sublist s.held) (hnext : s'.slots.next = s.slots.next) : Spends s moves s' := by
  have hsettled : settled moves = [] := by
    rw [settled, List.map_eq_nil_iff, List.filterMap_eq_nil_iff]
    exact fun m hm => (hidle m hm).1
  constructor
  · exact HoldsOwn.of_sublist h hheld (Nat.le_of_eq hnext.symm)
  · simp [hsettled]
  · simp [hsettled]
  · simp [hsettled]
  · exact fun slot hslot => .inl ((hheld.map _).subset hslot)
  · exact Nat.le_of_eq hnext.symm
  · intro rest hrest
    rw [hnext] at hrest
    clear hsettled
    induction moves with
    | nil => exact hrest
    | cons m moves ih =>
      obtain ⟨⟨houtcome, hreservation⟩, hmoves⟩ := List.forall_mem_cons.1 hidle
      refine (reserved_cons (by simpa using hreservation)).2 ⟨by simp [houtcome], ih hmoves⟩

theorem Spends.release (h : s.HoldsOwn) (hslot : s.held.find? name = some slot) {m : Move} {action : Option Action}
    (hm : m.outcome? = some (slot, action)) (hheld : s'.held = s.held.without name)
    (hnext : s'.slots.next = s.slots.next) : Spends s [m] s' := by
  have hmem := mem_held hslot
  have hlt := h.reserved _ hmem
  have hsublist := without_sublist s.held name
  have hsettled : settled [m] = [slot] := by simp [settled, hm]
  have hreservation : m.isReservation = false := by cases m <;> first | rfl | cases hm
  constructor
  · exact HoldsOwn.of_sublist h (hheld ▸ hsublist) (Nat.le_of_eq hnext.symm)
  · simp [hsettled]
  · simp only [hsettled, List.mem_singleton]
    rintro _ rfl
    exact .inl (List.mem_map_of_mem hmem)
  · simp only [hsettled, List.mem_singleton]
    rintro _ rfl
    rw [hheld, hnext]
    exact ⟨not_mem_without h hslot, hlt⟩
  · intro slot hslot
    rw [hheld] at hslot
    exact .inl ((hsublist.map _).subset hslot)
  · exact Nat.le_of_eq hnext.symm
  · intro rest hrest
    rw [hnext] at hrest
    refine (reserved_cons hreservation).2 ⟨fun outcome houtcome => ?_, hrest⟩
    rw [hm] at houtcome
    cases houtcome
    exact hlt

theorem outcome_deliveryMove (slot : Nat) (d : Delivery) :
    ∃ action, (deliveryMove slot d).outcome? = some (slot, action) := by
  unfold deliveryMove
  split
  · exact ⟨_, rfl⟩
  · exact ⟨_, rfl⟩

theorem next_deliver (slots : Slots) (slot : Nat) (d : Delivery) : (deliver slots slot d).2.next = slots.next := by
  unfold deliver
  split
  · exact slots.next_settle slot _
  · exact slots.next_settle slot _

theorem next_dropHeld (slots : Slots) (held : Holdings) (name : String) :
    (dropHeld slots held name).next = slots.next := by
  unfold dropHeld
  split
  · exact slots.next_settle _ _
  · rfl

theorem Spends.exchange (h : s.HoldsOwn) (name : String) :
    Spends s (.reserve :: (s.held.find? name).toList.map .drop) (s.step (.reserve name)).2 := by
  have hnext : (s.step (.reserve name)).2.slots.next = s.slots.next + 1 :=
    (next_dropHeld ..).trans s.slots.next_reserve
  have hheld : (s.step (.reserve name)).2.held = (name, s.slots.next) :: s.held.without name := rfl
  have hsublist := without_sublist s.held name
  have hsettled : settled (.reserve :: (s.held.find? name).toList.map .drop) = (s.held.find? name).toList := by
    cases s.held.find? name <;> rfl
  constructor
  · constructor
    · rw [hheld, List.map_cons, List.nodup_cons]
      refine ⟨fun hmem => ?_, (hsublist.map _).nodup h.apart⟩
      exact Nat.lt_irrefl _ (lt_of_held h _ ((hsublist.map _).subset hmem))
    · rw [hheld, hnext]
      refine List.forall_mem_cons.2 ⟨Nat.lt_succ_self _, fun entry hentry => ?_⟩
      exact Nat.lt_succ_of_lt (h.reserved entry (hsublist.subset hentry))
  · rw [hsettled]
    cases s.held.find? name <;> simp
  · intro slot hslot
    rw [hsettled, Option.mem_toList] at hslot
    exact .inl (List.mem_map_of_mem (mem_held hslot))
  · intro slot hslot
    rw [hsettled, Option.mem_toList] at hslot
    have hlt := h.reserved _ (mem_held hslot)
    rw [hheld, hnext, List.map_cons, List.mem_cons, not_or]
    exact ⟨⟨Nat.ne_of_lt hlt, not_mem_without h hslot⟩, Nat.lt_succ_of_lt hlt⟩
  · intro slot hslot
    rw [hheld, List.map_cons, List.mem_cons] at hslot
    rcases hslot with rfl | hslot
    · exact .inr (Nat.le_refl _)
    · exact .inl ((hsublist.map _).subset hslot)
  · omega
  · intro rest hrest
    rw [hnext] at hrest
    change Reserved (s.slots.next + 1) _
    cases hslot : s.held.find? name with
    | none => exact hrest
    | some slot =>
      refine (reserved_cons rfl).2 ⟨fun outcome houtcome => ?_, hrest⟩
      cases houtcome
      exact Nat.lt_succ_of_lt (h.reserved _ (mem_held hslot))

theorem Spends.call (h : s.HoldsOwn) (d : Delivery) :
    Spends s [.reserve, deliveryMove s.slots.next d] (s.step (.call d)).2 := by
  have hnext : (s.step (.call d)).2.slots.next = s.slots.next + 1 :=
    (next_deliver ..).trans s.slots.next_reserve
  have hheld : (s.step (.call d)).2.held = s.held := rfl
  obtain ⟨action, haction⟩ := outcome_deliveryMove s.slots.next d
  have hsettled : settled [.reserve, deliveryMove s.slots.next d] = [s.slots.next] := by
    have hreserve : Move.reserve.outcome? = none := rfl
    simp [settled, hreserve, haction]
  constructor
  · exact HoldsOwn.of_sublist h (List.Sublist.refl _) (by omega)
  · simp [hsettled]
  · simp only [hsettled, List.mem_singleton]
    rintro _ rfl
    exact .inr (Nat.le_refl _)
  · simp only [hsettled, List.mem_singleton]
    rintro _ rfl
    rw [hheld, hnext]
    exact ⟨fun hmem => Nat.lt_irrefl _ (lt_of_held h _ hmem), Nat.lt_succ_self _⟩
  · exact fun slot hslot => .inl hslot
  · omega
  · intro rest hrest
    rw [hnext] at hrest
    refine (reserved_cons (m := deliveryMove s.slots.next d) ?_).2 ⟨fun outcome houtcome => ?_, hrest⟩
    · unfold deliveryMove
      split <;> rfl
    · rw [haction] at houtcome
      cases houtcome
      exact Nat.lt_succ_self _

theorem movesOf_spends (h : s.HoldsOwn) (op : RecordingOp) : Spends s (s.movesOf op) (s.step op).2 := by
  cases op with
  | reserve name => exact .exchange h name
  | drop name =>
    simp only [movesOf, Recording.step]
    cases hslot : s.held.find? name with
    | none => exact .idle h (by simp) (without_sublist s.held name) (next_dropHeld ..)
    | some slot => exact .release h hslot rfl rfl (next_dropHeld ..)
  | fill name d =>
    simp only [movesOf, Recording.step]
    cases hslot : s.held.find? name with
    | none => exact .idle h (by simp) (List.Sublist.refl _) rfl
    | some slot =>
      obtain ⟨action, haction⟩ := outcome_deliveryMove slot d
      exact .release h hslot haction rfl (next_deliver ..)
  | call d => exact .call h d
  | stashNote text =>
    simp only [movesOf, Recording.step]
    split
    · exact .idle h (by simp [outcome?, isReservation]) (List.Sublist.refl _) rfl
    · exact .idle h (by simp) (List.Sublist.refl _) rfl
  | _ => exact .idle h (by simp [movesOf, outcome?, isReservation]) (List.Sublist.refl _) rfl

theorem moves_owned (h : s.HoldsOwn) (ops : List RecordingOp) :
    Owned s.slots.next (s.moves ops) ∧
      ∀ slot ∈ settled (s.moves ops), slot ∈ s.held.map (·.2) ∨ s.slots.next ≤ slot := by
  induction ops generalizing s with
  | nil => exact ⟨⟨List.nodup_nil, trivial⟩, nofun⟩
  | cons op rest ih =>
    have hop := movesOf_spends h op
    obtain ⟨hrest, hown⟩ := ih hop.owns
    refine ⟨⟨?_, hop.reserved _ hrest.reserved⟩, fun slot hslot => ?_⟩
    · change (settled (s.movesOf op ++ (s.step op).2.moves rest)).Nodup
      rw [settled_append]
      refine List.nodup_append'.2 ⟨hop.once, hrest.once, fun slot hslot hlater => ?_⟩
      obtain ⟨hheld, hlt⟩ := hop.spent slot hslot
      have := (hown slot hlater).resolve_left hheld
      omega
    · change slot ∈ settled (s.movesOf op ++ (s.step op).2.moves rest) at hslot
      rw [settled_append, List.mem_append] at hslot
      rcases hslot with hslot | hslot
      · exact hop.own slot hslot
      · rcases hown slot hslot with hheld | hle
        · exact hop.kept slot hheld
        · exact .inr (Nat.le_trans hop.next hle)

end Handles

/-- Whatever is done in a session with a recorder can be done by moves that each use a handle of their own. -/
theorem transcriptOf_moves (topic : String) (ops : List RecordingOp) :
    ∃ moves, Move.Owned 0 moves ∧
      transcriptOf topic ops = ((Sitting.begin ⟨.new "", {}, 0⟩ topic).after moves).desk.transcript := by
  have hstart : (Recording.ofTopic topic).HoldsOwn := ⟨List.nodup_nil, nofun⟩
  refine ⟨(Recording.ofTopic topic).moves ops, (moves_owned hstart ops).1, ?_⟩
  have hafter := after_moves (Recording.ofTopic topic) 1 ops
  exact congrArg (·.desk.transcript) hafter.symm

end Storyline.Rehearsal
