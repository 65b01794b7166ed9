import Storyline.Proofs.Json.Words
import Storyline.Json.Decoder

/-! What is read from a written document: the value it was written for, spelt as it was written. The reader
finishes each value where it stood when the value began, whatever is open around it. -/

namespace Storyline.Value

open Json Text

mutual

def raw : Value → Raw
  | .null => .null
  | .bool b => .bool b
  | .int n => .number (numeral n) (toString n).toList
  | .real written => (Reader.literal? written.toList).getD .null
  | .text s => .string (escape s.toList)
  | .array items => .array (rawItems items)
  | .object fields => .object (rawFields fields)

def rawItems : List Value → List Raw
  | [] => []
  | v :: rest => v.raw :: rawItems rest

def rawFields : List (String × Value) → List (List Char × Raw)
  | [] => []
  | (key, v) :: rest => (escape key.toList, v.raw) :: rawFields rest

end

end Storyline.Value

namespace Storyline.Json.Reader

open Text Value

def run (s : Reader) (ts : List Token) : Option Raw := (ts.foldlM step s).bind result?

theorem run_cons (s : Reader) (t : Token) (ts : List Token) : run s (t :: ts) = (s.step t).bind (run · ts) := by
  rw [run, List.foldlM_cons, Option.bind_eq_bind, Option.bind_assoc]
  rfl

theorem run_step {s s' : Reader} {t : Token} (h : s.step t = some s') (ts : List Token) :
    run s (t :: ts) = run s' ts := by
  rw [run_cons, h, Option.bind_some]

theorem literal?_numeral {cs : List Char} {n : Numeral} (h : Numeral.ofText? cs = some n) :
    literal? cs = some (.number n cs) := by
  have hne (word : List Char) (hword : Numeral.ofText? word = none) : (cs == word) = false := by
    rw [beq_eq_false_iff_ne]
    rintro rfl
    rw [hword] at h
    cases h
  rw [literal?, hne "null".toList (by decide), hne "true".toList (by decide), hne "false".toList (by decide), h]
  rfl

theorem literal?_literal (b : Bool) : literal? (literal b).toList = some (.bool b) := by
  cases b <;> rfl

theorem run_key (fields : List (List Char × Raw)) (stack : List Frame) (key : String) (ts : List Token) :
    run ⟨.key fields, stack⟩ (.string (escape key.toList) :: .mark ':' :: ts) =
      run ⟨.value, .object fields (escape key.toList) :: stack⟩ ts := by
  have hkey : step ⟨.key fields, stack⟩ (.string (escape key.toList)) =
      some ⟨.colon fields (escape key.toList), stack⟩ := if_pos (wellEscaped_escape key.toList)
  rw [run_step hkey, run_step rfl]

theorem run_firstKey (stack : List Frame) (key : String) (ts : List Token) :
    run ⟨.firstKey [], stack⟩ (.string (escape key.toList) :: ts) =
      run ⟨.key [], stack⟩ (.string (escape key.toList) :: ts) := rfl

theorem words_eq_cons (v : Value) : ∃ t ts, v.words = t :: ts ∧ t ≠ .mark ']' := by
  cases v with
  | array items => cases items <;> exact ⟨.mark '[', _, rfl, by decide⟩
  | object fields => cases fields <;> exact ⟨.mark '\x7b', _, rfl, by decide⟩
  | _ => exact ⟨_, [], rfl, nofun⟩

theorem run_firstItem (stack : List Frame) (v : Value) (ts : List Token) :
    run ⟨.firstItem, stack⟩ (v.words ++ ts) = run ⟨.value, .array [] :: stack⟩ (v.words ++ ts) := by
  obtain ⟨t, ts', hwords, hne⟩ := words_eq_cons v
  have hstep : step ⟨.firstItem, stack⟩ t = step ⟨.value, .array [] :: stack⟩ t := if_neg hne
  rw [hwords, List.cons_append, run_cons, run_cons, hstep]

mutual

/-- A value is read where it stands. -/
theorem run_words : ∀ (v : Value) (stack : List Frame) (ts : List Token), v.floatFree →
    run ⟨.value, stack⟩ (v.words ++ ts) = run (supply stack v.raw) ts
  | .null, stack, ts, _ => run_step rfl ts
  | .bool b, stack, ts, _ => by
    have hstep : step ⟨.value, stack⟩ (.word (literal b).toList) = some (supply stack (.bool b)) :=
      congrArg (Option.map (supply stack)) (literal?_literal b)
    exact run_step hstep ts
  | .int n, stack, ts, _ => by
    have hstep : step ⟨.value, stack⟩ (.word (toString n).toList) =
        some (supply stack (.number (numeral n) (toString n).toList)) :=
      congrArg (Option.map (supply stack)) (literal?_numeral (ofText?_toString n))
    exact run_step hstep ts
  | .text s, stack, ts, _ => by
    have hstep : step ⟨.value, stack⟩ (.string (escape s.toList)) =
        some (supply stack (.string (escape s.toList))) := if_pos (wellEscaped_escape s.toList)
    exact run_step hstep ts
  | .array [], stack, ts, _ => (run_step rfl _).trans (run_step rfl ts)
  | .array (v :: rest), stack, ts, h => by
    obtain ⟨hv, hrest⟩ := Bool.and_eq_true_iff.1 h
    have hopen : step ⟨.value, stack⟩ (.mark '[') = some ⟨.firstItem, stack⟩ := rfl
    -- the first item is read as any value in an array that is empty so far
    rw [words, List.cons_append, List.append_assoc, run_step hopen, run_firstItem,
      run_words v (.array [] :: stack) _ hv]
    exact run_moreItems rest [] v.raw stack ts hrest
  | .object [], stack, ts, _ => (run_step rfl _).trans (run_step rfl ts)
  | .object ((key, v) :: rest), stack, ts, h => by
    obtain ⟨hv, hrest⟩ := Bool.and_eq_true_iff.1 h
    have hopen : step ⟨.value, stack⟩ (.mark '\x7b') = some ⟨.firstKey [], stack⟩ := rfl
    rw [words, List.cons_append, List.cons_append, List.cons_append, List.append_assoc, run_step hopen,
      run_firstKey, run_key, run_words v (.object [] _ :: stack) _ hv]
    exact run_moreFields rest [] (escape key.toList) v.raw stack ts hrest

theorem run_moreItems : ∀ (items : List Value) (done : List Raw) (last : Raw) (stack : List Frame)
    (ts : List Token), allItems (!·.isReal) items →
    run ⟨.separator (.array done) last, stack⟩ (moreItems items ++ ts) =
      run (supply stack (.array (done ++ last :: rawItems items))) ts
  | [], _, _, _, ts, _ => run_step rfl ts
  | v :: rest, done, last, stack, ts, h => by
    obtain ⟨hv, hrest⟩ := Bool.and_eq_true_iff.1 h
    have hcomma : step ⟨.separator (.array done) last, stack⟩ (.mark ',') =
        some ⟨.value, .array (done ++ [last]) :: stack⟩ := rfl
    have hmore := run_moreItems rest (done ++ [last]) v.raw stack ts hrest
    rw [List.append_assoc, List.singleton_append] at hmore
    rw [moreItems, List.cons_append, List.append_assoc, run_step hcomma, run_words v _ _ hv]
    exact hmore

theorem run_moreFields : ∀ (fields : List (String × Value)) (done : List (List Char × Raw)) (key : List Char)
    (last : Raw) (stack : List Frame) (ts : List Token), allFields (!·.isReal) fields →
    run ⟨.separator (.object done key) last, stack⟩ (moreFields fields ++ ts) =
      run (supply stack (.object (done ++ (key, last) :: rawFields fields))) ts
  | [], _, _, _, _, ts, _ => run_step rfl ts
  | (next, v) :: rest, done, key, last, stack, ts, h => by
    obtain ⟨hv, hrest⟩ := Bool.and_eq_true_iff.1 h
    have hcomma : step ⟨.separator (.object done key) last, stack⟩ (.mark ',') =
        some ⟨.key (done ++ [(key, last)]), stack⟩ := rfl
    have hmore := run_moreFields rest (done ++ [(key, last)]) (escape next.toList) v.raw stack ts hrest
    rw [List.append_assoc, List.singleton_append] at hmore
    rw [moreFields, List.cons_append, List.cons_append, List.cons_append, List.append_assoc, run_step hcomma,
      run_key, run_words v _ _ hv]
    exact hmore

end

end Storyline.Json.Reader

namespace Storyline.Json

/-- A written document is read as what it was written for. -/
theorem Raw.ofText?_pretty {v : Value} (h : v.floatFree) : Raw.ofText? v.pretty = some v.raw := by
  have hread := Reader.run_words v [] [] h
  rw [List.append_nil] at hread
  rw [Raw.ofText?, Value.tokens_pretty h]
  exact hread

/-- Whatever it is read as, a written document is read through what it was written for. -/
theorem document_pretty {β : Type} (decode : Decoder β) {v : Value} (h : v.floatFree) :
    document decode v.pretty = decode maxDepth v.raw := by
  rw [document, Raw.ofText?_pretty h]
  rfl

end Storyline.Json
