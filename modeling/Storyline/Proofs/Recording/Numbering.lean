import Storyline.Proofs.Recording.Trace
import Mathlib.Data.List.Basic

/-! Visits and the records they belong to. A chain of steps gets a record when it is reached for the first
time, and the records are numbered in that order, so that the number of a visit's record says which text
the visit's chain has and nothing else. -/

namespace Storyline

/-- The text under which the recorder knows the visit's chain. -/
def Visit.text (v : Visit) (story : String) : String := chainText story v.chain

def withTexts (story : String) (visits : List Visit) : List (String × Visit) :=
  visits.map fun v => (v.text story, v)

/-- How visits are on record, each with the text of its chain: the recorder puts a step on record exactly
for a text that is not known, and the visit belongs to the record that stands for its text. -/
def Logged (channel : Nat) : List String → List (String × Visit) → Prop
  | _, [] => True
  | past, (text, v) :: rest =>
      (v.isNew = !past.contains text ∧ v.record = (past.insert text).reverse.idxOf text ∧
        v.heard.scribe = ⟨channel⟩) ∧ Logged channel (past.insert text) rest

section Logged

variable {channel : Nat} {past : List String} {xs ys : List (String × Visit)} {x y : String × Visit}

theorem logged_append :
    Logged channel past (xs ++ ys) ↔
      Logged channel past xs ∧ Logged channel (knownAfter past (xs.map (·.1))) ys := by
  induction xs generalizing past with
  | nil => simp [Logged]
  | cons x xs ih => simp [Logged, ih, knownAfter_cons, and_assoc]

theorem Logged.scribe (h : Logged channel past xs) (hx : x ∈ xs) : x.2.heard.scribe = ⟨channel⟩ := by
  obtain ⟨ys, zs, rfl⟩ := List.append_of_mem hx
  exact (logged_append.1 h).2.1.2.2

/-- A visit is new if its text has not come up before. -/
theorem Logged.isNew_iff (h : Logged channel past (xs ++ x :: ys)) :
    x.2.isNew ↔ x.1 ∉ past ∧ x.1 ∉ xs.map (·.1) := by
  have hnew := (logged_append.1 h).2.1.1
  rw [hnew, Bool.not_eq_true', ← Bool.not_eq_true, List.contains_iff_mem, mem_knownAfter, not_or]

/-- New visits are what makes texts known, one text each. -/
theorem Logged.new_texts (h : Logged channel past xs) :
    past.reverse ++ (xs.filter (·.2.isNew)).map (·.1) = (knownAfter past (xs.map (·.1))).reverse := by
  induction xs generalizing past with
  | nil => simp
  | cons x xs ih =>
    obtain ⟨⟨hnew, -, -⟩, hrest⟩ := h
    rw [List.map_cons, knownAfter_cons, ← ih hrest]
    by_cases hmem : x.1 ∈ past
    · have hold : x.2.isNew = false := by simpa [hmem] using hnew
      rw [List.filter_cons_of_neg (by simp [hold]), List.insert_of_mem hmem]
    · have hnew : x.2.isNew = true := by simpa [hmem] using hnew
      simp [hnew, List.insert_of_not_mem hmem]

theorem Logged.new_nodup (h : Logged channel [] xs) : ((xs.filter (·.2.isNew)).map (·.1)).Nodup := by
  have htexts := h.new_texts
  rw [List.reverse_nil, List.nil_append] at htexts
  rw [htexts]
  exact List.nodup_reverse.2 (nodup_knownAfter _ List.nodup_nil)

theorem Logged.record_eq (h : Logged channel past xs) (hx : x ∈ xs) :
    x.2.record = (knownAfter past (xs.map (·.1))).reverse.idxOf x.1 := by
  induction xs generalizing past with
  | nil => simp at hx
  | cons x' xs ih =>
    obtain ⟨⟨-, hrecord, -⟩, hrest⟩ := h
    rcases List.mem_cons.1 hx with rfl | hx
    · -- the places of known texts do not change
      have hknown : x.1 ∈ (past.insert x.1).reverse := by simp
      rw [hrecord, List.map_cons, knownAfter_cons]
      exact (knownAfter_extends _ _).idxOf_eq_of_mem hknown
    · exact ih hrest hx

theorem text_known (past : List String) (hx : x ∈ xs) :
    x.1 ∈ (knownAfter past (xs.map (·.1))).reverse := by
  rw [List.mem_reverse, mem_knownAfter]
  exact .inr (List.mem_map_of_mem hx)

theorem Logged.record_inj (h : Logged channel past xs) (hx : x ∈ xs) (hy : y ∈ xs) :
    x.2.record = y.2.record ↔ x.1 = y.1 := by
  rw [h.record_eq hx, h.record_eq hy]
  exact List.idxOf_inj (text_known past hx)

/-- Every visit's record is there because of a new visit with the same text. -/
theorem Logged.new_of_record (h : Logged channel [] xs) (hx : x ∈ xs) :
    ∃ x₀ ∈ xs, x₀.2.isNew ∧ x₀.1 = x.1 ∧ (xs.filter (·.2.isNew))[x.2.record]? = some x₀ := by
  have htexts := h.new_texts
  rw [List.reverse_nil, List.nil_append] at htexts
  have hknown := text_known [] hx
  have hget : ((xs.filter (·.2.isNew)).map (·.1))[x.2.record]? = some x.1 := by
    rw [htexts, h.record_eq hx]
    exact List.getElem?_idxOf hknown
  rw [List.getElem?_map, Option.map_eq_some_iff] at hget
  obtain ⟨x₀, hget, htext⟩ := hget
  have hmem := List.mem_filter.1 (List.mem_of_getElem? hget)
  exact ⟨x₀, hmem.1, hmem.2, htext, hget⟩

end Logged

end Storyline
