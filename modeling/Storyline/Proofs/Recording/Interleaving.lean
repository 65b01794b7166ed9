import Storyline.Transcript.Record
import Mathlib.Data.List.Induction

/-! A draft keeps its slots and its notes apart, but each note with the number of slots that were before
it. Notes stay in order, and the messages that were taken can be read off a draft again, in the order they
came. They can still be read off the record that the draft is resolved to. -/

namespace Storyline

namespace Notes

/-- The notes in front of the action with number `key`. -/
def textsAt (notes : Notes) (key : Nat) : List String := (notes.lookup key).getD []

theorem textsAt_cons (k key : Nat) (texts : List String) (notes : Notes) :
    textsAt ((k, texts) :: notes) key = if key = k then texts else textsAt notes key := by
  rw [textsAt, List.lookup_cons]
  split <;> simp_all [textsAt]

theorem textsAt_of_lt {notes : Notes} {key : Nat} (h : ∀ entry ∈ notes, entry.1 < key) :
    textsAt notes key = [] := by
  induction notes with
  | nil => rfl
  | cons entry notes ih =>
    have hk := h entry List.mem_cons_self
    rw [textsAt_cons, if_neg (by omega)]
    exact ih fun e he => h e (List.mem_cons_of_mem _ he)

theorem le_of_mem_add {notes : Notes} {bound : Nat} (h : ∀ entry ∈ notes, entry.1 ≤ bound) (text : String) :
    ∀ entry ∈ notes.add bound text, entry.1 ≤ bound := by
  induction notes with
  | nil => simp [add]
  | cons e notes ih =>
    obtain ⟨k, texts⟩ := e
    obtain ⟨hk, hrest⟩ := List.forall_mem_cons.1 h
    simp only [add]
    split
    · exact List.forall_mem_cons.2 ⟨hk, hrest⟩
    · split
      · exact List.forall_mem_cons.2 ⟨Nat.le_refl _, h⟩
      · exact List.forall_mem_cons.2 ⟨hk, ih hrest⟩

theorem textsAt_add {notes : Notes} {bound : Nat} (h : ∀ entry ∈ notes, entry.1 ≤ bound) (text : String)
    (key : Nat) :
    textsAt (notes.add bound text) key = textsAt notes key ++ if key = bound then [text] else [] := by
  induction notes with
  | nil =>
    rw [add, textsAt_cons]
    rfl
  | cons e notes ih =>
    obtain ⟨k, texts⟩ := e
    obtain ⟨hk, hrest⟩ := List.forall_mem_cons.1 h
    simp only [add]
    split
    · rename_i hkey
      subst hkey
      simp only [textsAt_cons]
      split <;> simp_all
    · rename_i hkey
      have : k < bound := Nat.lt_of_le_of_ne hk (Ne.symm hkey)
      rw [if_neg (by omega), textsAt_cons, textsAt_cons, ih hrest]
      split
      · rw [if_neg (by omega), List.append_nil]
      · rfl

theorem mem_keys_add {key k : Nat} {text : String} {notes : Notes} :
    k ∈ (notes.add key text).map Prod.fst ↔ k = key ∨ k ∈ notes.map Prod.fst := by
  induction notes with
  | nil => simp [add]
  | cons note notes ih =>
    obtain ⟨k', texts⟩ := note
    rw [add]
    split_ifs with heq hlt
    · simp [heq]
    · simp
    · simp only [List.map_cons, List.mem_cons, ih]
      exact or_left_comm

theorem ascending_add {key : Nat} {text : String} {notes : Notes} (h : (notes.map Prod.fst).Pairwise (· < ·)) :
    ((notes.add key text).map Prod.fst).Pairwise (· < ·) := by
  induction notes with
  | nil => exact List.pairwise_singleton _ _
  | cons note notes ih =>
    obtain ⟨k, texts⟩ := note
    obtain ⟨hfirst, hrest⟩ := List.pairwise_cons.1 h
    rw [add]
    split_ifs with heq hlt
    · exact List.pairwise_cons.2 ⟨hfirst, hrest⟩
    · refine List.pairwise_cons.2 ⟨?_, h⟩
      intro k' hk'
      rcases List.mem_cons.1 hk' with rfl | hk'
      · exact hlt
      · exact Nat.lt_trans hlt (hfirst k' hk')
    · refine List.pairwise_cons.2 ⟨?_, ih hrest⟩
      intro k' hk'
      rcases mem_keys_add.1 hk' with rfl | hk'
      · omega
      · exact hfirst k' hk'

/-- Notes among what they were sent in front of, counted from `key`. -/
def among {β : Type} (notes : Notes) (key : Nat) : List β → List (String ⊕ β)
  | [] => (notes.textsAt key).map .inl
  | x :: rest => (notes.textsAt key).map .inl ++ .inr x :: notes.among (key + 1) rest

end Notes

/-- What a record tells in the order it happened: each note in front of the action it was sent before. -/
def Record.account (r : Record) : List (String ⊕ Action) := r.notes.among 0 r.actions

def Message.resolve (slots : Slots) : Message → String ⊕ Action
  | .note text => .inl text
  | .reserve slot => .inr (slots.action slot)

namespace Draft

def messagesFrom (notes : Notes) (key : Nat) : List Nat → List Message
  | [] => (notes.textsAt key).map .note
  | slot :: rest => (notes.textsAt key).map .note ++ .reserve slot :: messagesFrom notes (key + 1) rest

/-- The messages a draft took, in the order they came. -/
def messages (d : Draft) : List Message := messagesFrom d.notes 0 d.slots

theorem messagesFrom_add {notes : Notes} {bound : Nat} (h : ∀ entry ∈ notes, entry.1 ≤ bound) (text : String)
    (slots : List Nat) (key : Nat) (hkey : key + slots.length = bound) :
    messagesFrom (notes.add bound text) key slots = messagesFrom notes key slots ++ [.note text] := by
  induction slots generalizing key with
  | nil => simp_all [messagesFrom, Notes.textsAt_add h]
  | cons slot slots ih =>
    have hne : key ≠ bound := by simp at hkey; omega
    simp [messagesFrom, Notes.textsAt_add h, hne, ih (key + 1) (by simp at hkey; omega)]

theorem messagesFrom_concat {notes : Notes} (slot : Nat) (slots : List Nat) (key : Nat)
    (h : ∀ entry ∈ notes, entry.1 ≤ key + slots.length) :
    messagesFrom notes key (slots ++ [slot]) = messagesFrom notes key slots ++ [.reserve slot] := by
  induction slots generalizing key with
  | nil =>
    have hnext : notes.textsAt (key + 1) = [] := Notes.textsAt_of_lt fun e he => Nat.lt_succ_of_le (h e he)
    simp [messagesFrom, hnext]
  | cons s slots ih =>
    have := ih (key + 1) fun e he => Nat.le_trans (h e he) (by simp; omega)
    simp [messagesFrom, this]

theorem among_resolve (notes : Notes) (slots : Slots) (reserved : List Nat) (key : Nat) :
    notes.among key (reserved.map slots.action) = (messagesFrom notes key reserved).map (Message.resolve slots) := by
  induction reserved generalizing key with
  | nil => simp [Notes.among, messagesFrom, Message.resolve]
  | cons slot reserved ih => simp [Notes.among, messagesFrom, Message.resolve, ih]

/-- What a finished record tells is what its draft took, with what the slots hold in the end. -/
theorem account_resolve (d : Draft) (slots : Slots) :
    (d.resolve slots).account = d.messages.map (Message.resolve slots) :=
  among_resolve d.notes slots d.slots 0

/-- A draft loses nothing of the messages it takes, not their order either. -/
theorem messages_absorb (ms : List Message) : (({} : Draft).absorb ms).messages = ms := by
  suffices h : (({} : Draft).absorb ms).messages = ms ∧
      ∀ entry ∈ (({} : Draft).absorb ms).notes, entry.1 ≤ (({} : Draft).absorb ms).slots.length from h.1
  induction ms using List.reverseRecOn with
  | nil => exact ⟨rfl, by simp [absorb]⟩
  | append_singleton ms m ih =>
    obtain ⟨hms, hbound⟩ := ih
    have htake : ({} : Draft).absorb (ms ++ [m]) = (({} : Draft).absorb ms).take m := by simp [absorb]
    rw [htake]
    cases m with
    | reserve slot =>
      refine ⟨?_, fun e he => Nat.le_trans (hbound e he) (by simp [take])⟩
      simp only [messages, take] at hms ⊢
      rw [messagesFrom_concat _ _ _ (by simpa using hbound), hms]
    | note text =>
      refine ⟨?_, Notes.le_of_mem_add hbound text⟩
      simp only [messages, take] at hms ⊢
      rw [messagesFrom_add hbound _ _ _ (by simp), hms]

theorem absorb_injective {ms ns : List Message} (h : ({} : Draft).absorb ms = ({} : Draft).absorb ns) :
    ms = ns := by
  rw [← messages_absorb ms, h, messages_absorb]

end Draft

/-- A draft whose notes stand in order, none of them after more actions than there are. -/
structure Draft.Sized (n : Nat) (d : Draft) : Prop where
  ascending : (d.notes.map Prod.fst).Pairwise (· < ·)
  placed : ∀ key ∈ d.notes.map Prod.fst, key ≤ d.slots.length
  length : d.slots.length ≤ n

namespace Draft

variable {n : Nat} {d : Draft}

theorem sized_empty (n : Nat) : Sized n {} := ⟨.nil, nofun, Nat.zero_le n⟩

theorem Sized.mono {m : Nat} (h : d.Sized n) (hle : n ≤ m) : d.Sized m :=
  ⟨h.ascending, h.placed, Nat.le_trans h.length hle⟩

theorem Sized.take (h : d.Sized n) (m : Message) : (d.take m).Sized (n + 1) := by
  cases m with
  | reserve slot =>
    have hlength : (d.take (.reserve slot)).slots.length = d.slots.length + 1 := List.length_append
    refine ⟨h.ascending, ?_, ?_⟩
    · intro key hkey
      have hplaced := h.placed key hkey
      omega
    · have hle := h.length
      omega
  | note text =>
    -- it goes under the number of actions so far, which no key exceeds
    refine ⟨Notes.ascending_add h.ascending, ?_, Nat.le_succ_of_le h.length⟩
    intro key hkey
    rcases Notes.mem_keys_add.1 hkey with rfl | hkey
    · exact Nat.le_refl _
    · exact h.placed key hkey

end Draft

end Storyline
