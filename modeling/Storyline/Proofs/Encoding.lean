import Storyline.Proofs.Recording.Interleaving
import Storyline.Proofs.Recording.Ledger

/-! A record is another way to write down what was sent to it. Every sequence of messages comes to a record of its
own, from which it can be read off, and every record whose notes are where they may be is that of some sequence. -/

namespace Storyline

namespace Notes

theorem add_append {notes : Notes} {key : Nat} (h : ∀ entry ∈ notes, entry.1 < key) (text : String)
    (rest : Notes) : add key text (notes ++ rest) = notes ++ add key text rest := by
  induction notes with
  | nil => rfl
  | cons note notes ih =>
    obtain ⟨k, texts⟩ := note
    obtain ⟨hk, hnotes⟩ := List.forall_mem_cons.1 h
    rw [List.cons_append, add, if_neg (Nat.ne_of_gt hk), if_neg (Nat.lt_asymm hk), ih hnotes]
    rfl

theorem ne_nil_of_mem_add {notes : Notes} (h : ∀ entry ∈ notes, entry.2 ≠ []) (key : Nat) (text : String) :
    ∀ entry ∈ notes.add key text, entry.2 ≠ [] := by
  induction notes with
  | nil => simp [add]
  | cons note notes ih =>
    obtain ⟨k, texts⟩ := note
    obtain ⟨hfirst, hrest⟩ := List.forall_mem_cons.1 h
    rw [add]
    split_ifs
    · exact List.forall_mem_cons.2 ⟨by simp, hrest⟩
    · exact List.forall_mem_cons.2 ⟨by simp, h⟩
    · exact List.forall_mem_cons.2 ⟨hfirst, ih hrest⟩

def under (key : Nat) (texts : List String) : Notes := if texts = [] then [] else [(key, texts)]

theorem add_under (key : Nat) (texts : List String) (text : String) :
    add key text (under key texts) = under key (texts ++ [text]) := by
  by_cases htexts : texts = [] <;> simp [under, add, htexts]

end Notes

/-- A draft as there can be one: notes in order, something under each key, and no key beyond the actions. -/
structure Draft.Proper (d : Draft) : Prop where
  ascending : (d.notes.map Prod.fst).Pairwise (· < ·)
  placed : ∀ entry ∈ d.notes, entry.1 ≤ d.slots.length
  told : ∀ entry ∈ d.notes, entry.2 ≠ []

namespace Draft

variable {d : Draft}

theorem absorb_concat (ms : List Message) (m : Message) : d.absorb (ms ++ [m]) = (d.absorb ms).take m :=
  d.absorb_append ms [m]

theorem sized_absorb (ms : List Message) : (({} : Draft).absorb ms).Sized ms.length := by
  induction ms using List.reverseRecOn with
  | nil => exact sized_empty 0
  | append_singleton ms m ih =>
    rw [absorb_concat, List.length_append]
    exact ih.take m

theorem proper_absorb (ms : List Message) : (({} : Draft).absorb ms).Proper where
  ascending := (sized_absorb ms).ascending
  placed := fun entry hentry => (sized_absorb ms).placed entry.1 (List.mem_map_of_mem hentry)
  told := by
    induction ms using List.reverseRecOn with
    | nil => nofun
    | append_singleton ms m ih =>
      rw [absorb_concat]
      cases m with
      | reserve slot => exact ih
      | note text => exact Notes.ne_nil_of_mem_add ih _ text

theorem absorb_notes (h : ∀ entry ∈ d.notes, entry.1 < d.slots.length) (texts : List String) :
    d.absorb (texts.map .note) = { d with notes := d.notes ++ Notes.under d.slots.length texts } := by
  induction texts using List.reverseRecOn with
  | nil => simp [Notes.under]
  | append_singleton texts text ih =>
    rw [List.map_append, List.map_singleton, absorb_concat, ih]
    simp only [take, Notes.add_append h, Notes.add_under]

theorem Proper.front (h : d.Proper) :
    ∃ front texts, (∀ entry ∈ front, entry.1 < d.slots.length) ∧ Proper { d with notes := front } ∧
      d.notes = front ++ Notes.under d.slots.length texts := by
  rcases List.eq_nil_or_concat d.notes with hnil | ⟨front, ⟨key, texts⟩, hnotes⟩
  · exact ⟨[], [], nofun, ⟨.nil, nofun, nofun⟩, hnil⟩
  · rw [List.concat_eq_append] at hnotes
    have hascending := h.ascending
    rw [hnotes, List.map_append] at hascending
    obtain ⟨hfront, -, hlast⟩ := List.pairwise_append.1 hascending
    have hbefore : ∀ entry ∈ front, entry.1 < key := fun entry hentry =>
      hlast entry.1 (List.mem_map_of_mem hentry) key List.mem_cons_self
    have hmem : ∀ entry ∈ front, entry ∈ d.notes := fun entry hentry => by simp [hnotes, hentry]
    have hkey : (key, texts) ∈ d.notes := by simp [hnotes]
    rcases Nat.lt_or_eq_of_le (h.placed _ hkey) with hlt | rfl
    · -- the last note was sent before some action
      refine ⟨d.notes, [], ?_, h, by simp [Notes.under]⟩
      rw [hnotes, List.forall_mem_append, List.forall_mem_singleton]
      exact ⟨fun entry hentry => Nat.lt_trans (hbefore entry hentry) hlt, hlt⟩
    · -- what is left without it was sent before the last action
      refine ⟨front, texts, hbefore, ⟨hfront, fun entry hentry => ?_, fun entry hentry => ?_⟩, ?_⟩
      · exact h.placed entry (hmem entry hentry)
      · exact h.told entry (hmem entry hentry)
      · rw [Notes.under, if_neg (h.told _ hkey), hnotes]

/-- Wherever notes may be, they have been put there by some messages. -/
theorem Proper.exists_messages (h : d.Proper) : ∃ ms, ({} : Draft).absorb ms = d := by
  obtain ⟨slots, notes⟩ := d
  induction slots using List.reverseRecOn generalizing notes with
  | nil =>
    obtain ⟨front, texts, hfront, -, hnotes⟩ := h.front
    obtain rfl : front = [] := List.eq_nil_iff_forall_not_mem.2 fun entry hentry =>
      Nat.not_lt_zero _ (hfront entry hentry)
    have hnone : ∀ entry ∈ ({} : Draft).notes, entry.1 < ({} : Draft).slots.length := List.forall_mem_nil _
    exact ⟨texts.map .note, (absorb_notes hnone texts).trans (congrArg _ hnotes.symm)⟩
  | append_singleton slots slot ih =>
    obtain ⟨front, texts, hfront, hproper, hnotes⟩ := h.front
    -- without what follows the last action, the notes do not know of it
    have hplaced : ∀ entry ∈ front, entry.1 ≤ slots.length := by
      intro entry hentry
      have hlt := hfront entry hentry
      rw [List.length_append] at hlt
      exact Nat.le_of_lt_succ hlt
    obtain ⟨ms, hms⟩ := ih front ⟨hproper.ascending, hplaced, hproper.told⟩
    refine ⟨ms ++ [.reserve slot] ++ texts.map .note, ?_⟩
    rw [absorb_append, absorb_concat, hms]
    exact (absorb_notes hfront texts).trans (congrArg _ hnotes.symm)

/-- A record that has taken messages gives them back in the order they came, once each note is put in front of the
action with the number it is kept under. No note is kept under a number beyond the actions, and nothing is kept under
a number without a note. There are no other records than that: each of them gives the messages it comes from. It does
not matter whether messages come at once or one after another, and when the record is resolved their order is still
the same. -/
theorem encodes_messages :
    (∀ ms : List Message, (({} : Draft).absorb ms).messages = ms ∧ (({} : Draft).absorb ms).Proper) ∧
    (∀ d : Draft, d.Proper → ({} : Draft).absorb d.messages = d) ∧
    (∀ (d : Draft) (ms later : List Message), (d.absorb ms).absorb later = d.absorb (ms ++ later)) ∧
    ∀ (ms : List Message) (slots : Slots),
      ((({} : Draft).absorb ms).resolve slots).account = ms.map (Message.resolve slots) := by
  refine ⟨fun ms => ⟨messages_absorb ms, proper_absorb ms⟩, fun d h => ?_,
    fun d ms later => (d.absorb_append ms later).symm, fun ms slots => ?_⟩
  · obtain ⟨ms, rfl⟩ := h.exists_messages
    rw [messages_absorb]
  · rw [account_resolve, messages_absorb]

end Draft

namespace Rehearsal

/-- Two actions, with a note before the first one and two behind both. -/
def annotated : Draft := ⟨[4, 7], [(0, ["first"]), (2, ["second", "third"])]⟩

theorem annotated_encodes :
    annotated.Proper ∧
    annotated.messages = [.note "first", .reserve 4, .reserve 7, .note "second", .note "third"] ∧
    ({} : Draft).absorb [.note "first", .reserve 4, .reserve 7, .note "second", .note "third"] = annotated := by
  have hproper : annotated.Proper := ⟨by decide, by decide, by decide⟩
  exact ⟨hproper, rfl, Draft.encodes_messages.2.1 annotated hproper⟩

end Rehearsal

end Storyline
