import Storyline.Json.Decoder
import Storyline.Json.Printer
import Mathlib.Data.List.TakeWhile
import Mathlib.Tactic.SplitIfs

/-! How strings and whole numbers are spelt in a document, and that both are read as they were meant. -/

namespace Storyline.Json

open Text

/-! Strings. A character stands for itself, or for an escape with one letter, or for one with its code. -/

/-- A character that stands for itself within a string. -/
def isPlain (c : Char) : Bool := c != '"' && c != '\\' && !decide (c.toNat < 32)

theorem isPlain_iff {c : Char} : isPlain c ↔ c ≠ '"' ∧ c ≠ '\\' ∧ ¬ c.toNat < 32 := by
  simp only [isPlain, Bool.and_eq_true, bne_iff_ne, Bool.not_eq_true', decide_eq_false_iff_not, and_assoc]

inductive Spelling (c : Char) : List Char → Prop where
  | plain (hplain : isPlain c) : Spelling c [c]
  | short (e : Char) (hmeans : shortEscape e = some c) (hletter : e ≠ 'u') (hprinting : ¬ e.toNat < 32) :
      Spelling c ['\\', e]
  | code (a b : Char) (hmeans : hexDigit4 '0' '0' a b = some c.toNat) (hcode : c.toNat < 32)
      (ha : isPlain a) (hb : isPlain b) : Spelling c ['\\', 'u', '0', '0', a, b]

theorem hexDigit_spells (n : Nat) (h : n < 16) :
    hexDigit? (Value.hexDigit n) = some n ∧ isPlain (Value.hexDigit n) := by
  have hall : ∀ n < 16, hexDigit? (Value.hexDigit n) = some n ∧ isPlain (Value.hexDigit n) := by decide
  exact hall n h

theorem spelling_escapeChar (c : Char) : Spelling c (Value.escapeChar c) := by
  have hletter {d : Char} (e : Char) (hmeans : shortEscape e = some d) (he : e ≠ 'u' ∧ ¬ e.toNat < 32)
      (hc : (c == d) = true) : Spelling c ['\\', e] := by
    obtain rfl := beq_iff_eq.1 hc
    exact .short e hmeans he.1 he.2
  unfold Value.escapeChar
  split_ifs with hquote hslash hback htab hline hform hreturn hcode
  · exact hletter '"' rfl (by decide) hquote
  · exact hletter '\\' rfl (by decide) hslash
  · exact hletter 'b' rfl (by decide) hback
  · exact hletter 't' rfl (by decide) htab
  · exact hletter 'n' rfl (by decide) hline
  · exact hletter 'f' rfl (by decide) hform
  · exact hletter 'r' rfl (by decide) hreturn
  · obtain ⟨hhigh, ha⟩ := hexDigit_spells (c.toNat / 16) (by omega)
    obtain ⟨hlow, hb⟩ := hexDigit_spells (c.toNat % 16) (by omega)
    refine .code _ _ ?_ hcode ha hb
    have hsum : c.toNat / 16 * 16 + c.toNat % 16 = c.toNat := Nat.div_add_mod' _ _
    simp [hexDigit4, hhigh, hlow, show hexDigit? '0' = some 0 from rfl, hsum]
  · rw [beq_iff_eq] at hquote hslash
    exact .plain (isPlain_iff.2 ⟨hquote, hslash, hcode⟩)

theorem escapeChar_of_isPlain {c : Char} (h : isPlain c) : Value.escapeChar c = [c] := by
  obtain ⟨hquote, hslash, hprinting⟩ := isPlain_iff.1 h
  have hne (d : Char) (hd : d.toNat < 32) : (c == d) = false := by
    rw [beq_eq_false_iff_ne]
    rintro rfl
    exact hprinting hd
  simp only [Value.escapeChar, beq_eq_false_iff_ne.2 hquote, beq_eq_false_iff_ne.2 hslash, hne '\x08' (by decide),
    hne '\t' (by decide), hne '\n' (by decide), hne '\x0c' (by decide), hne '\r' (by decide), if_neg hprinting,
    Bool.false_eq_true, if_false]

theorem escape_of_isPlain {cs : List Char} (h : ∀ c ∈ cs, isPlain c) : Value.escape cs = cs := by
  induction cs with
  | nil => rfl
  | cons c cs ih =>
    rw [Value.escape, List.flatMap_cons, escapeChar_of_isPlain (h c List.mem_cons_self)]
    exact congrArg (c :: ·) (ih fun d hd => h d (List.mem_cons_of_mem c hd))

theorem unescape_plain {c : Char} (h : c ≠ '\\') (rest : List Char) :
    unescape (c :: rest) = (unescape rest).map (c :: ·) := by
  rw [unescape]
  · cases unescape rest <;> rfl
  · intro a b c' d rest' heq
    exact absurd heq h
  · intro c' rest' heq
    exact absurd heq h
  · intro heq
    exact absurd heq h

theorem unescape_short {e : Char} (h : e ≠ 'u') (rest : List Char) :
    unescape ('\\' :: e :: rest) = (shortEscape e).bind fun c => (unescape rest).map (c :: ·) := by
  rw [unescape]
  · cases shortEscape e <;> cases unescape rest <;> rfl
  · intro a b c d rest' heq
    exact absurd heq h

theorem unescape_code (a b c d : Char) (rest : List Char) {n : Nat} (h : hexDigit4 a b c d = some n)
    (hn : n < 32) :
    unescape ('\\' :: 'u' :: a :: b :: c :: d :: rest) = (unescape rest).map (Char.ofNat n :: ·) := by
  have hlow : isLowSurrogate n = false := by
    simp only [isLowSurrogate, Bool.and_eq_false_iff, decide_eq_false_iff_not]
    omega
  have hhigh : isHighSurrogate n = false := by
    simp only [isHighSurrogate, Bool.and_eq_false_iff, decide_eq_false_iff_not]
    omega
  rw [unescape, h]
  simp only [bind, Option.bind, hlow, hhigh, Bool.false_eq_true, if_false]
  cases unescape rest <;> rfl

theorem unescape_spelling {c : Char} {cs : List Char} (h : Spelling c cs) (rest : List Char) :
    unescape (cs ++ rest) = (unescape rest).map (c :: ·) := by
  cases h with
  | plain hplain => exact unescape_plain (isPlain_iff.1 hplain).2.1 rest
  | short e hmeans hletter hprinting =>
    rw [List.cons_append, List.singleton_append, unescape_short hletter, hmeans]
    rfl
  | code a b hmeans hcode ha hb =>
    have hread := unescape_code '0' '0' a b rest hmeans hcode
    rwa [Char.ofNat_toNat] at hread

theorem wellEscaped_spelling {c : Char} {cs : List Char} (h : Spelling c cs) (rest : List Char) :
    wellEscaped (cs ++ rest) = wellEscaped rest := by
  cases h with
  | plain hplain =>
    have hslash := (isPlain_iff.1 hplain).2.1
    rw [List.singleton_append, wellEscaped]
    all_goals
      intros
      contradiction
  | short e hmeans hletter hprinting =>
    rw [List.cons_append, List.singleton_append, wellEscaped, hmeans]
    · rfl
    · intro a b c d rest' heq
      exact absurd heq hletter
  | code a b hmeans hcode ha hb =>
    change wellEscaped ('\\' :: 'u' :: '0' :: '0' :: a :: b :: rest) = _
    rw [wellEscaped, hmeans]
    rfl

/-- What is escaped can be read, and is what it was. -/
theorem unescape_escape (cs : List Char) : unescape (Value.escape cs) = some cs := by
  induction cs with
  | nil => rfl
  | cons c cs ih =>
    rw [Value.escape, List.flatMap_cons, unescape_spelling (spelling_escapeChar c),
      show unescape (cs.flatMap Value.escapeChar) = some cs from ih]
    rfl

theorem wellEscaped_escape (cs : List Char) : wellEscaped (Value.escape cs) := by
  induction cs with
  | nil => rfl
  | cons c cs ih =>
    rw [Value.escape, List.flatMap_cons, wellEscaped_spelling (spelling_escapeChar c)]
    exact ih

/-! Whole numbers. Their digits begin with no zero but for zero itself. -/

/-- The digits of a whole number, as a document has them. -/
def numeral (n : Int) : Numeral := ⟨decide (n < 0), Nat.toDigits 10 n.natAbs, none, none⟩

theorem digits_toDigits (n : Nat) : digits (Nat.toDigits 10 n) = n := Nat.ofDigitChars_ten_toDigits

theorem head?_toDigits {n : Nat} (h : n ≠ 0) : (Nat.toDigits 10 n).head? ≠ some '0' := by
  induction n using Nat.strongRecOn with
  | ind n ih =>
    by_cases hsmall : n < 10
    · rw [Nat.toDigits_of_lt_base hsmall]
      have hall : ∀ m < 10, m ≠ 0 → m.digitChar ≠ '0' := by decide
      intro hzero
      exact hall n hsmall h (Option.some.inj hzero)
    · rw [Nat.toDigits_of_base_le (by omega) (by omega), List.head?_append]
      have htail := ih (n / 10) (by omega) (by omega)
      cases hdigits : Nat.toDigits 10 (n / 10) with
      | nil => exact absurd hdigits Nat.toDigits_ne_nil
      | cons c cs =>
        rw [hdigits] at htail
        exact htail

/-- Digits that may stand for a whole number. -/
structure IsWhole (ds : List Char) : Prop where
  digits : ∀ c ∈ ds, c.isDigit = true
  ne_nil : ds ≠ []
  lead : ds.head? = some '0' → ds.length ≤ 1

theorem isWhole_toDigits (n : Nat) : IsWhole (Nat.toDigits 10 n) where
  digits := fun _ hc => Nat.isDigit_of_mem_toDigits (b := 10) (by decide) (by decide) hc
  ne_nil := Nat.toDigits_ne_nil
  lead := by
    intro hlead
    by_cases hzero : n = 0
    · subst hzero
      decide
    · exact absurd hlead (head?_toDigits hzero)

theorem isPlain_of_isDigit {c : Char} (h : c.isDigit) : isPlain c := by
  rw [isPlain_iff]
  refine ⟨?_, ?_, ?_⟩
  · rintro rfl
    cases h
  · rintro rfl
    cases h
  · rw [Char.isDigit, Bool.and_eq_true, decide_eq_true_eq] at h
    have hlow : 48 ≤ c.toNat := h.1
    omega

theorem escape_toDigits (n : Nat) : Value.escape (Nat.toDigits 10 n) = Nat.toDigits 10 n :=
  escape_of_isPlain fun _ hc => isPlain_of_isDigit ((isWhole_toDigits n).digits _ hc)

theorem IsWhole.ofText? {ds : List Char} (h : IsWhole ds) (negative : Bool) :
    Numeral.ofText? ((if negative then ['-'] else []) ++ ds) = some ⟨negative, ds, none, none⟩ := by
  have htake : ds.takeWhile Char.isDigit = ds := List.takeWhile_eq_self_iff.2 h.digits
  have hdrop : ds.dropWhile Char.isDigit = [] := List.dropWhile_eq_nil_iff.2 h.digits
  have hlead : (ds.isEmpty || ds.head? == some '0' && decide (ds.length > 1)) = false := by
    rw [Bool.or_eq_false_iff, Bool.and_eq_false_imp, List.isEmpty_eq_false_iff]
    refine ⟨h.ne_nil, fun hzero => decide_eq_false ?_⟩
    exact Nat.not_lt.2 (h.lead (beq_iff_eq.1 hzero))
  have hminus : ∀ cs, ds = '-' :: cs → False := by
    rintro cs rfl
    exact absurd (h.digits '-' List.mem_cons_self) (by decide)
  cases negative with
  | true =>
    rw [if_pos rfl, List.singleton_append, Numeral.ofText?]
    simp only [htake, hdrop, hlead]
    rfl
  | false =>
    rw [if_neg Bool.false_ne_true, List.nil_append, Numeral.ofText?]
    · simp only [htake, hdrop, hlead]
      rfl
    · exact hminus

theorem toList_toString (n : Int) :
    (toString n).toList = (if decide (n < 0) then ['-'] else []) ++ Nat.toDigits 10 n.natAbs := by
  rw [Int.toString_eq_repr, Int.repr_eq_if]
  split_ifs with hsign hneg hneg
  · exact absurd (of_decide_eq_true hneg) (by omega)
  · rw [Nat.toList_repr, List.nil_append, show n.toNat = n.natAbs by omega]
  · rw [String.toList_append, Nat.toList_repr, show (-n).toNat = n.natAbs by omega]
    rfl
  · exact absurd (decide_eq_true (by omega)) hneg

theorem ofText?_toString (n : Int) : Numeral.ofText? (toString n).toList = some (numeral n) := by
  rw [toList_toString]
  exact (isWhole_toDigits n.natAbs).ofText? (decide (n < 0))

theorem whole?_numeral (n : Int) : Decoder.whole? (numeral n) = some n := by
  have hint : (numeral n).int? = some n := by
    simp only [Numeral.int?, numeral, Option.isSome_none, Bool.or_self, Bool.false_eq_true, if_false,
      digits_toDigits, decide_eq_true_eq, Option.some.injEq]
    split_ifs <;> omega
  have hzero : (decide (n < 0) && n == 0) = false := by
    rw [Bool.and_eq_false_imp]
    intro hneg
    rw [beq_eq_false_iff_ne]
    have hlt : n < 0 := of_decide_eq_true hneg
    omega
  rw [Decoder.whole?, hint, Option.filter_some, numeral, hzero]
  rfl

end Storyline.Json
