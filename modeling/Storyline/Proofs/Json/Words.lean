import Storyline.Proofs.Json.Shape
import Storyline.Proofs.Json.Spelling
import Storyline.Json.Printer

/-! The words of a written document. Between them stand only blanks, and a bare word ends where a blank or a
mark begins. -/

namespace Storyline.Json

open Text

/-! What the next characters of a text are read as. -/

namespace Lexer

def run (s : Lexer) (cs : List Char) : Option (List Token) := (cs.foldlM step s).bind finish

/-- A lexer that has read other tokens before. -/
def beyond (old : List Token) (s : Lexer) : Lexer := { s with tokens := s.tokens ++ old }

theorem run_cons (s : Lexer) (c : Char) (cs : List Char) : run s (c :: cs) = (s.step c).bind (run · cs) := by
  rw [run, List.foldlM_cons, Option.bind_eq_bind, Option.bind_assoc]
  rfl

theorem start_beyond (old ts : List Token) (c : Char) : start (ts ++ old) c = beyond old (start ts c) := by
  unfold start
  split_ifs <;> rfl

theorem step_beyond (old : List Token) (s : Lexer) (c : Char) :
    (beyond old s).step c = (s.step c).map (beyond old) := by
  obtain ⟨mode, ts⟩ := s
  cases mode with
  | between => exact congrArg some (start_beyond old ts c)
  | word text =>
    simp only [beyond, step]
    split_ifs
    · exact congrArg some (start_beyond old (.word text.reverse :: ts) c)
    · rfl
  | string body =>
    simp only [beyond, step]
    split_ifs <;> rfl
  | escape body =>
    simp only [beyond, step]
    split_ifs <;> rfl

theorem run_beyond (old : List Token) (s : Lexer) (cs : List Char) :
    run (beyond old s) cs = (run s cs).map (old.reverse ++ ·) := by
  induction cs generalizing s with
  | nil =>
    obtain ⟨mode, ts⟩ := s
    cases mode with
    | between => exact congrArg some List.reverse_append
    | word text => exact congrArg some (List.reverse_append : (Token.word text.reverse :: ts ++ old).reverse = _)
    | string body => rfl
    | escape body => rfl
  | cons c cs ih =>
    rw [run_cons, run_cons, step_beyond]
    cases s.step c with
    | none => rfl
    | some s' => exact ih s'

/-- Between two tokens, what has been read stands before what is still to come. -/
theorem run_between (t : Token) (cs : List Char) : run ⟨.between, [t]⟩ cs = (Json.tokens cs).map (t :: ·) :=
  run_beyond [t] {} cs

end Lexer

theorem tokens_eq_run (cs : List Char) : tokens cs = Lexer.run {} cs := rfl

theorem tokens_blank {c : Char} (h : isBlank c) (cs : List Char) : tokens (c :: cs) = tokens cs := by
  rw [tokens_eq_run, Lexer.run_cons, Lexer.step, Lexer.start, if_pos h]
  rfl

theorem tokens_blanks {blanks : List Char} (h : ∀ c ∈ blanks, isBlank c) (cs : List Char) :
    tokens (blanks ++ cs) = tokens cs := by
  induction blanks with
  | nil => rfl
  | cons c blanks ih =>
    rw [List.cons_append, tokens_blank (h c List.mem_cons_self)]
    exact ih fun c hc => h c (List.mem_cons_of_mem _ hc)

theorem tokens_mark {c : Char} (h : isMark c) (cs : List Char) :
    tokens (c :: cs) = (tokens cs).map (.mark c :: ·) := by
  have hblank : isBlank c = false := by
    have hall : "[]\x7b\x7d:,".toList.all (isBlank · == false) := by decide
    exact eq_of_beq (List.all_eq_true.1 hall c (List.contains_iff_mem.1 h))
  rw [tokens_eq_run, Lexer.run_cons, Lexer.step, Lexer.start, hblank, if_neg Bool.false_ne_true, if_pos h]
  exact Lexer.run_between (.mark c) cs

/-! Strings. -/

theorem Lexer.run_plain {c : Char} (h : isPlain c) (body cs : List Char) (ts : List Token) :
    run ⟨.string body, ts⟩ (c :: cs) = run ⟨.string (c :: body), ts⟩ cs := by
  obtain ⟨hquote, hslash, hprinting⟩ := isPlain_iff.1 h
  simp only [run_cons, step, beq_iff_eq, if_neg hquote, if_neg hslash, if_neg hprinting, Option.bind_some]

theorem Lexer.run_escape {e : Char} (h : ¬ e.toNat < 32) (body cs : List Char) (ts : List Token) :
    run ⟨.string body, ts⟩ ('\\' :: e :: cs) = run ⟨.string (e :: '\\' :: body), ts⟩ cs := by
  have hslash : step ⟨.string body, ts⟩ '\\' = some ⟨.escape body, ts⟩ := rfl
  have hstep : step ⟨.escape body, ts⟩ e = some ⟨.string (e :: '\\' :: body), ts⟩ := if_neg h
  rw [run_cons, hslash, Option.bind_some, run_cons, hstep, Option.bind_some]

theorem Lexer.run_spelling {c : Char} {spelt : List Char} (h : Spelling c spelt) (body cs : List Char)
    (ts : List Token) :
    run ⟨.string body, ts⟩ (spelt ++ cs) = run ⟨.string (spelt.reverse ++ body), ts⟩ cs := by
  cases h with
  | plain hplain => exact run_plain hplain body cs ts
  | short e hmeans hletter hprinting => exact run_escape hprinting body cs ts
  | code a b hmeans hcode ha hb =>
    have hzero : isPlain '0' := by decide
    calc run ⟨.string body, ts⟩ ('\\' :: 'u' :: '0' :: '0' :: a :: b :: cs)
      _ = run ⟨.string ('u' :: '\\' :: body), ts⟩ ('0' :: '0' :: a :: b :: cs) := run_escape (by decide) _ _ _
      _ = run ⟨.string ('0' :: '0' :: 'u' :: '\\' :: body), ts⟩ (a :: b :: cs) := by
        rw [run_plain hzero, run_plain hzero]
      _ = run ⟨.string (b :: a :: '0' :: '0' :: 'u' :: '\\' :: body), ts⟩ cs := by
        rw [run_plain ha, run_plain hb]

theorem Lexer.run_escaped (s body cs : List Char) (ts : List Token) :
    run ⟨.string body, ts⟩ (Value.escape s ++ cs) = run ⟨.string ((Value.escape s).reverse ++ body), ts⟩ cs := by
  induction s generalizing body with
  | nil => rfl
  | cons c s ih =>
    have hescape : Value.escape (c :: s) = Value.escapeChar c ++ Value.escape s := List.flatMap_cons
    rw [hescape, List.append_assoc, run_spelling (spelling_escapeChar c), ih, List.reverse_append,
      List.append_assoc]

theorem tokens_quoted (s cs : List Char) :
    tokens ('"' :: (Value.escape s ++ '"' :: cs)) = (tokens cs).map (.string (Value.escape s) :: ·) := by
  have hopen : Lexer.step {} '"' = some ⟨.string [], []⟩ := rfl
  have hclose (body : List Char) :
      Lexer.step ⟨.string body, []⟩ '"' = some ⟨.between, [.string body.reverse]⟩ := rfl
  rw [tokens_eq_run, Lexer.run_cons, hopen, Option.bind_some, Lexer.run_escaped, Lexer.run_cons, hclose,
    Option.bind_some, List.append_nil, List.reverse_reverse, Lexer.run_between]

/-! Bare words. -/

def isBare (c : Char) : Bool := !(isBlank c || isMark c || c == '"')

/-- Where a bare word may end. -/
def Ends (cs : List Char) : Prop := ∀ c ∈ cs.head?, isBlank c || isMark c

theorem Lexer.run_bare {w : List Char} (h : ∀ c ∈ w, isBare c) (text cs : List Char) (ts : List Token) :
    run ⟨.word text, ts⟩ (w ++ cs) = run ⟨.word (w.reverse ++ text), ts⟩ cs := by
  induction w generalizing text with
  | nil => rfl
  | cons c w ih =>
    have hbare : ¬ (isBlank c || isMark c || c == '"') = true := by
      simpa [isBare] using h c List.mem_cons_self
    have hstep : step ⟨.word text, ts⟩ c = some ⟨.word (c :: text), ts⟩ := if_neg hbare
    rw [List.cons_append, run_cons, hstep, Option.bind_some, ih fun c hc => h c (List.mem_cons_of_mem _ hc),
      List.reverse_cons, List.append_assoc]
    rfl

/-- A bare word ends before the next token. -/
theorem Lexer.run_ends {cs : List Char} (h : Ends cs) (text : List Char) :
    run ⟨.word text, []⟩ cs = run ⟨.between, [.word text.reverse]⟩ cs := by
  cases cs with
  | nil => rfl
  | cons c cs =>
    have hends : (isBlank c || isMark c || c == '"') = true := by
      rw [h c rfl, Bool.true_or]
    have hstep : step ⟨.word text, []⟩ c = step ⟨.between, [.word text.reverse]⟩ c := if_pos hends
    rw [run_cons, run_cons, hstep]

theorem tokens_word {w : List Char} (hne : w ≠ []) (hbare : ∀ c ∈ w, isBare c) {cs : List Char} (h : Ends cs) :
    tokens (w ++ cs) = (tokens cs).map (.word w :: ·) := by
  cases w with
  | nil => exact absurd rfl hne
  | cons c w =>
    have hc : isBlank c = false ∧ isMark c = false ∧ (c == '"') = false := by
      have := hbare c List.mem_cons_self
      simpa [isBare, and_assoc] using this
    have hstart : Lexer.step {} c = some ⟨.word [c], []⟩ := by
      simp only [Lexer.step, Lexer.start, hc, Bool.false_eq_true, if_false]
    rw [tokens_eq_run, List.cons_append, Lexer.run_cons, hstart, Option.bind_some,
      Lexer.run_bare fun c hc => hbare c (List.mem_cons_of_mem _ hc), Lexer.run_ends h, Lexer.run_between,
      List.reverse_append, List.reverse_reverse]
    rfl

/-! Pieces of text, put together from their last. -/

/-- A text that is read as the given tokens, whatever comes after it. -/
def Spells (cs : List Char) (ts : List Token) : Prop :=
  ∀ rest, Ends rest → tokens (cs ++ rest) = (tokens rest).map (ts ++ ·)

variable {cs cs' : List Char} {ts ts' : List Token}

theorem Ends.mark {c : Char} (h : isMark c) (cs : List Char) : Ends (c :: cs) := by
  intro c' hc'
  obtain rfl := Option.some.inj hc'
  rw [h, Bool.or_true]

theorem Ends.blank {c : Char} (h : isBlank c) (cs : List Char) : Ends (c :: cs) := by
  intro c' hc'
  obtain rfl := Option.some.inj hc'
  rw [h, Bool.true_or]

theorem Ends.append (h : Ends cs) (h' : Ends cs') : Ends (cs ++ cs') := by
  cases cs with
  | nil => exact h'
  | cons c cs => exact h

namespace Spells

theorem nil : Spells [] [] := by
  intro rest hrest
  exact Option.map_id.symm ▸ rfl

theorem word (hne : cs ≠ []) (hbare : ∀ c ∈ cs, isBare c) : Spells cs [.word cs] :=
  fun _ hrest => tokens_word hne hbare hrest

theorem mark {c : Char} (hc : isMark c) (h : Spells cs ts) : Spells (c :: cs) (.mark c :: ts) := by
  intro rest hrest
  rw [List.cons_append, tokens_mark hc, h rest hrest, Option.map_map]
  rfl

theorem blanks {cs' : List Char} (hblank : ∀ c ∈ cs', isBlank c) (h : Spells cs ts) : Spells (cs' ++ cs) ts := by
  intro rest hrest
  rw [List.append_assoc, tokens_blanks hblank, h rest hrest]

theorem append (h : Spells cs ts) (hends : Ends cs') (h' : Spells cs' ts') : Spells (cs ++ cs') (ts ++ ts') := by
  intro rest hrest
  rw [List.append_assoc, h _ (hends.append hrest), h' rest hrest, Option.map_map]
  congr 1
  funext us
  exact (List.append_assoc ts ts' us).symm

theorem quote (s : String) : Spells (Value.quote s).toList [.string (Value.escape s.toList)] := by
  intro rest hrest
  have hquote : (Value.quote s).toList ++ rest = '"' :: (Value.escape s.toList ++ '"' :: rest) := by
    simp [Value.quote]
  rw [hquote, tokens_quoted]
  rfl

theorem tokens_eq (h : Spells cs ts) : tokens cs = some ts := by
  have hread := h [] (fun _ hc => nomatch hc)
  rw [List.append_nil] at hread
  rw [hread]
  exact congrArg some (List.append_nil ts)

end Spells

end Storyline.Json

namespace Storyline.Value

open Json

/-! The words of a value. Whatever comes after the first item of a container begins with a mark. -/

mutual

def words : Value → List Token
  | .null => [.word "null".toList]
  | .bool b => [.word (literal b).toList]
  | .int n => [.word (toString n).toList]
  | .real written => [.word written.toList]
  | .text s => [.string (escape s.toList)]
  | .array [] => [.mark '[', .mark ']']
  | .array (v :: rest) => .mark '[' :: (v.words ++ moreItems rest)
  | .object [] => [.mark '\x7b', .mark '\x7d']
  | .object ((key, v) :: rest) =>
      .mark '\x7b' :: .string (escape key.toList) :: .mark ':' :: (v.words ++ moreFields rest)

def moreItems : List Value → List Token
  | [] => [.mark ']']
  | v :: rest => .mark ',' :: (v.words ++ moreItems rest)

def moreFields : List (String × Value) → List Token
  | [] => [.mark '\x7d']
  | (key, v) :: rest => .mark ',' :: .string (escape key.toList) :: .mark ':' :: (v.words ++ moreFields rest)

end

/-! The text of a container. -/

/-- The text after the first item of a container. -/
def more (right : Char) (depth : Nat) : List String → List Char
  | [] => (newline depth).toList ++ [right]
  | item :: rest => ',' :: ((newline (depth + 1)).toList ++ (item.toList ++ more right depth rest))

theorem toList_newline (depth : Nat) : (newline depth).toList = '\n' :: List.replicate (2 * depth) ' ' := by
  simp [newline]

theorem isBlank_newline (depth : Nat) : ∀ c ∈ (newline depth).toList, isBlank c := by
  intro c hc
  rw [toList_newline] at hc
  rcases List.mem_cons.1 hc with rfl | hc
  · rfl
  · obtain rfl := List.eq_of_mem_replicate hc
    rfl

theorem toList_items (right : Char) (depth : Nat) (item : String) (rest : List String) :
    (",".intercalate ((item :: rest).map (newline (depth + 1) ++ ·))).toList ++
        ((newline depth).toList ++ [right]) =
      (newline (depth + 1)).toList ++ (item.toList ++ more right depth rest) := by
  induction rest generalizing item with
  | nil =>
    rw [List.map_cons, List.map_nil, String.intercalate_singleton, String.toList_append, List.append_assoc]
    rfl
  | cons next rest ih =>
    have hnext := ih next
    rw [List.map_cons] at hnext
    rw [List.map_cons, List.map_cons, String.intercalate_cons_cons, String.toList_append, String.toList_append,
      List.append_assoc, hnext, String.toList_append, List.append_assoc, List.append_assoc]
    rfl

theorem toList_block {left right : String} {l r : Char} (hleft : left.toList = [l]) (hright : right.toList = [r])
    (depth : Nat) (item : String) (rest : List String) :
    (block left right depth (item :: rest)).toList =
      l :: ((newline (depth + 1)).toList ++ (item.toList ++ more r depth rest)) := by
  rw [block, List.isEmpty_cons, if_neg Bool.false_ne_true, String.toList_append, String.toList_append,
    String.toList_append, hleft, hright, List.append_assoc, List.append_assoc, toList_items]
  rfl

theorem ends_more {right : Char} (depth : Nat) (rest : List String) : Ends (more right depth rest) := by
  cases rest with
  | nil =>
    rw [more, toList_newline]
    exact Ends.blank rfl _
  | cons item rest => exact Ends.mark rfl _

theorem isBare_of_isDigit {c : Char} (h : c.isDigit) : isBare c := by
  have hne (d : Char) (hd : d.isDigit = false) : c ≠ d := by
    rintro rfl
    rw [hd] at h
    cases h
  have hblank : isBlank c = false := by
    simp only [isBlank, beq_eq_false_iff_ne.2 (hne ' ' rfl), beq_eq_false_iff_ne.2 (hne '\n' rfl),
      beq_eq_false_iff_ne.2 (hne '\t' rfl), beq_eq_false_iff_ne.2 (hne '\r' rfl), Bool.or_self]
  have hmark : isMark c = false := by
    have hall : "[]\x7b\x7d:,".toList.all (·.isDigit == false) := by decide
    rw [isMark, ← Bool.not_eq_true, List.contains_iff_mem]
    exact fun hmem => hne c (eq_of_beq (List.all_eq_true.1 hall c hmem)) rfl
  rw [isBare, hblank, hmark, beq_eq_false_iff_ne.2 (hne '"' rfl)]
  rfl

theorem spells_int (n : Int) : Spells (toString n).toList [.word (toString n).toList] := by
  refine .word ?_ ?_
  · rw [toList_toString]
    exact List.append_ne_nil_of_right_ne_nil _ Nat.toDigits_ne_nil
  · intro c hc
    rw [toList_toString, List.mem_append] at hc
    rcases hc with hsign | hdigit
    · split at hsign
      · obtain rfl := List.mem_singleton.1 hsign
        rfl
      · cases hsign
    · exact isBare_of_isDigit ((isWhole_toDigits n.natAbs).digits c hdigit)

theorem spells_literal (b : Bool) : Spells (literal b).toList [.word (literal b).toList] := by
  cases b
  · exact .word (by decide) (List.all_eq_true.1 (by decide))
  · exact .word (by decide) (List.all_eq_true.1 (by decide))

theorem spells_null : Spells "null".toList [.word "null".toList] :=
  .word (by decide) (List.all_eq_true.1 (by decide))

theorem spells_field (key : String) {v : String} {cs : List Char} {ts us : List Token}
    (hv : Spells v.toList ts) (hends : Ends cs) (hmore : Spells cs us) :
    Spells ((quote key ++ ": " ++ v).toList ++ cs) (.string (escape key.toList) :: .mark ':' :: (ts ++ us)) := by
  have hvalue : Spells (':' :: ([' '] ++ (v.toList ++ cs))) (.mark ':' :: (ts ++ us)) :=
    .mark rfl (.blanks (List.all_eq_true.1 (by decide)) (hv.append hends hmore))
  have hfield := (Spells.quote key).append (Ends.mark rfl _) hvalue
  rw [String.toList_append, String.toList_append, List.append_assoc, List.append_assoc]
  exact hfield

mutual

/-- A value is written as its words, however far it is indented. -/
theorem spells_indented : ∀ (v : Value) (depth : Nat), v.floatFree → Spells (v.indented depth).toList v.words
  | .null, _, _ => spells_null
  | .bool b, _, _ => spells_literal b
  | .int n, _, _ => spells_int n
  | .text s, _, _ => .quote s
  | .array [], depth, _ => by
    have htext : (indented depth (.array [])).toList = ['[', ']'] := by simp [indented, indentedItems, block]
    rw [htext, words]
    exact .mark rfl (.mark rfl .nil)
  | .array (v :: rest), depth, h => by
    obtain ⟨hv, hrest⟩ := Bool.and_eq_true_iff.1 h
    have hvalue := (spells_indented v (depth + 1) hv).append (ends_more depth _)
      (spells_moreItems rest depth hrest)
    rw [indented, indentedItems, toList_block rfl rfl, words]
    exact .mark rfl (.blanks (isBlank_newline (depth + 1)) hvalue)
  | .object [], depth, _ => by
    have htext : (indented depth (.object [])).toList = ['\x7b', '\x7d'] := by
      simp [indented, indentedFields, block]
    rw [htext, words]
    exact .mark rfl (.mark rfl .nil)
  | .object ((key, v) :: rest), depth, h => by
    obtain ⟨hv, hrest⟩ := Bool.and_eq_true_iff.1 h
    have hfield := spells_field key (spells_indented v (depth + 1) hv) (ends_more depth _)
      (spells_moreFields rest depth hrest)
    rw [indented, indentedFields, toList_block rfl rfl, words]
    exact .mark rfl (.blanks (isBlank_newline (depth + 1)) hfield)

theorem spells_moreItems : ∀ (items : List Value) (depth : Nat), allItems (!·.isReal) items →
    Spells (more ']' depth (indentedItems (depth + 1) items)) (moreItems items)
  | [], depth, _ => .blanks (isBlank_newline depth) (.mark rfl .nil)
  | v :: rest, depth, h => by
    obtain ⟨hv, hrest⟩ := Bool.and_eq_true_iff.1 h
    have hvalue := (spells_indented v (depth + 1) hv).append (ends_more depth _)
      (spells_moreItems rest depth hrest)
    exact .mark rfl (.blanks (isBlank_newline (depth + 1)) hvalue)

theorem spells_moreFields : ∀ (fields : List (String × Value)) (depth : Nat), allFields (!·.isReal) fields →
    Spells (more '\x7d' depth (indentedFields (depth + 1) fields)) (moreFields fields)
  | [], depth, _ => .blanks (isBlank_newline depth) (.mark rfl .nil)
  | (key, v) :: rest, depth, h => by
    obtain ⟨hv, hrest⟩ := Bool.and_eq_true_iff.1 h
    have hfield := spells_field key (spells_indented v (depth + 1) hv) (ends_more depth _)
      (spells_moreFields rest depth hrest)
    exact .mark rfl (.blanks (isBlank_newline (depth + 1)) hfield)

end

theorem tokens_pretty {v : Value} (h : v.floatFree) : tokens v.pretty.toList = some v.words :=
  (spells_indented v 0 h).tokens_eq

end Storyline.Value
