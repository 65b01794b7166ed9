import Mathlib.Data.List.DropRight
import Mathlib.Data.List.Forall2
import Mathlib.Data.Set.List
import Storyline.Pattern.Reader

/-! Lists of patterns, in any dialect. A list can be put together from shorter ones, and what stands in it between
commas is read as it would be alone, whatever blanks are around it and whatever is left empty. The fault of a list is
that of the first entry that cannot be read. -/

namespace Storyline

section Reading

variable {ε β γ : Type} {f : β → Except ε γ} {xs : List β}

theorem mapM_eq_ok_iff {ys : List γ} : xs.mapM f = .ok ys ↔ List.Forall₂ (fun x y => f x = .ok y) xs ys := by
  induction xs generalizing ys with
  | nil => cases ys <;> simp [pure, Except.pure]
  | cons x xs ih =>
    rw [List.mapM_cons, List.forall₂_cons_left_iff]
    simp only [← ih]
    cases f x with
    | error e => simp [bind, Except.bind]
    | ok y => cases xs.mapM f <;> simp [bind, Except.bind, pure, Except.pure, eq_comm]

/-- What cannot be done for all fails as it does for the first for which it cannot be done. -/
theorem mapM_eq_error_iff {e : ε} :
    xs.mapM f = .error e ↔ ∃ x, xs.find? (fun x => !(f x).isOk) = some x ∧ f x = .error e := by
  induction xs with
  | nil => simp [pure, Except.pure]
  | cons x xs ih =>
    rw [List.mapM_cons, List.find?_cons]
    cases hx : f x with
    | error e' => simp [bind, Except.bind, Except.isOk, Except.toBool, hx]
    | ok y =>
      simp only [Except.isOk, Except.toBool, Bool.not_true] at ih ⊢
      rw [← ih]
      cases xs.mapM f <;> simp [bind, Except.bind, pure, Except.pure]

end Reading

namespace Text

theorem split_eq_splitOn (separator : Char) (cs : List Char) : split separator cs = cs.splitOn separator := by
  induction cs with
  | nil => rfl
  | cons c cs ih =>
    rw [split, List.splitOn_cons_eq_if_modifyHead, ih]
    cases hparts : cs.splitOn separator with
    | nil => exact absurd hparts (List.splitOn_ne_nil separator cs)
    | cons part parts => rfl

theorem not_mem_of_mem_split {separator : Char} {cs part : List Char} (h : part ∈ split separator cs) :
    separator ∉ part := by
  induction cs generalizing part with
  | nil =>
    obtain rfl : part = [] := by simpa [split] using h
    exact List.not_mem_nil
  | cons c cs ih =>
    rw [split] at h
    split at h
    · rcases List.mem_cons.1 h with rfl | hpart
      · exact List.not_mem_nil
      · exact ih hpart
    · rename_i hc
      have hne : separator ≠ c := fun heq => hc (beq_iff_eq.2 heq.symm)
      cases hparts : split separator cs with
      | nil => exact absurd hparts (split_ne_nil separator cs)
      | cons first parts =>
        rw [hparts] at h ih
        rcases List.mem_cons.1 h with rfl | hpart
        · exact List.not_mem_cons_of_ne_of_not_mem hne (ih List.mem_cons_self)
        · exact ih (List.mem_cons_of_mem first hpart)

def IsBlanks (cs : List Char) : Prop := ∀ c ∈ cs, isBlank c = true

instance (cs : List Char) : Decidable (IsBlanks cs) := decidable_of_iff _ List.all_eq_true

@[mk_iff]
structure IsTrimmed (cs : List Char) : Prop where
  first : cs.head?.any isBlank = false
  last : cs.getLast?.any isBlank = false

instance (cs : List Char) : Decidable (IsTrimmed cs) := decidable_of_iff _ (isTrimmed_iff cs).symm

theorem dropWhile_lead {lead cs : List Char} (hlead : IsBlanks lead) (hcs : cs.head?.any isBlank = false) :
    (lead ++ cs).dropWhile isBlank = cs := by
  rw [List.dropWhile_append_of_pos hlead]
  cases cs with
  | nil => rfl
  | cons c cs => exact List.dropWhile_cons_of_neg (Bool.not_eq_true _ ▸ hcs)

theorem head?_dropWhile (cs : List Char) : (cs.dropWhile isBlank).head?.any isBlank = false := by
  have hfirst := List.head?_dropWhile_not isBlank cs
  cases hhead : (cs.dropWhile isBlank).head? with
  | none => rfl
  | some c => rwa [hhead] at hfirst

theorem trim_padded {lead cs trail : List Char} (hlead : IsBlanks lead) (htrail : IsBlanks trail)
    (hcs : IsTrimmed cs) : trim (lead ++ cs ++ trail) = cs := by
  cases cs with
  | nil =>
    have hblanks : IsBlanks (lead ++ [] ++ trail) := by
      rw [List.append_nil]
      exact List.forall_mem_append.2 ⟨hlead, htrail⟩
    rw [trim, List.dropWhile_eq_nil_iff.2 hblanks]
    rfl
  | cons c cs =>
    have hfront : (lead ++ (c :: cs ++ trail)).dropWhile isBlank = c :: cs ++ trail := dropWhile_lead hlead hcs.first
    have hback : (trail.reverse ++ (c :: cs).reverse).dropWhile isBlank = (c :: cs).reverse := by
      refine dropWhile_lead (fun c hc => htrail c (List.mem_reverse.1 hc)) ?_
      rw [List.head?_reverse]
      exact hcs.last
    rw [trim, List.append_assoc, hfront, List.reverse_append, hback, List.reverse_reverse]

theorem trim_eq_rdropWhile (cs : List Char) : trim cs = (cs.dropWhile isBlank).rdropWhile isBlank := rfl

theorem isTrimmed_trim (cs : List Char) : IsTrimmed (trim cs) where
  first := by
    cases htrim : trim cs with
    | nil => rfl
    | cons c rest =>
      obtain ⟨back, hback⟩ := List.rdropWhile_prefix isBlank (cs.dropWhile isBlank)
      rw [← trim_eq_rdropWhile, htrim] at hback
      have hfirst := head?_dropWhile cs
      rwa [← hback] at hfirst
  last := by
    rw [trim, List.getLast?_reverse]
    exact head?_dropWhile _

theorem exists_padding (cs : List Char) :
    ∃ lead trail, IsBlanks lead ∧ IsBlanks trail ∧ lead ++ trim cs ++ trail = cs := by
  refine ⟨cs.takeWhile isBlank, (cs.dropWhile isBlank).rtakeWhile isBlank, fun c hc => List.mem_takeWhile_imp hc,
    fun c hc => List.mem_rtakeWhile_imp hc, ?_⟩
  rw [List.append_assoc, trim_eq_rdropWhile, List.rdropWhile_append_rtakeWhile, List.takeWhile_append_dropWhile]

end Text

namespace Pattern

/-! The entries of a list -/

/-- A text that can stand between two commas and is not changed by trimming. -/
@[mk_iff]
structure IsEntry (e : String) : Prop where
  nonempty : e ≠ ""
  undivided : ',' ∉ e.toList
  trimmed : Text.IsTrimmed e.toList

instance (e : String) : Decidable (IsEntry e) := decidable_of_iff _ (isEntry_iff e).symm

/-- What stands between two commas: an entry or nothing, with blanks around it. -/
structure Item where
  lead : List Char
  entry : Option String
  trail : List Char
  lead_blank : Text.IsBlanks lead := by decide
  trail_blank : Text.IsBlanks trail := by decide
  entry_isEntry : ∀ e ∈ entry, IsEntry e := by decide

namespace Item

def content (i : Item) : List Char := (i.entry.getD "").toList

def chars (i : Item) : List Char := i.lead ++ i.content ++ i.trail

theorem trim_chars (i : Item) : Text.trim i.chars = i.content := by
  refine Text.trim_padded i.lead_blank i.trail_blank ?_
  obtain ⟨lead, _ | e, trail, hlead, htrail, hentry⟩ := i
  · exact ⟨rfl, rfl⟩
  · exact (hentry e rfl).trimmed

theorem comma_not_mem_chars (i : Item) : ',' ∉ i.chars := by
  have hblanks {cs : List Char} (hcs : Text.IsBlanks cs) : ',' ∉ cs :=
    fun hmem => absurd (hcs ',' hmem) (by decide)
  simp only [chars, List.mem_append, not_or]
  refine ⟨⟨hblanks i.lead_blank, ?_⟩, hblanks i.trail_blank⟩
  obtain ⟨lead, _ | e, trail, hlead, htrail, hentry⟩ := i
  · exact List.not_mem_nil
  · exact (hentry e rfl).undivided

theorem exists_chars {cs : List Char} (h : ',' ∉ cs) : ∃ i : Item, i.chars = cs := by
  obtain ⟨lead, trail, hlead, htrail, hcs⟩ := Text.exists_padding cs
  have htrim : ',' ∉ Text.trim cs := fun hmem => h (by rw [← hcs]; simp [hmem])
  by_cases hempty : Text.trim cs = []
  · rw [hempty] at hcs
    exact ⟨⟨lead, none, trail, hlead, htrail, nofun⟩, hcs⟩
  · have hentry : IsEntry (String.ofList (Text.trim cs)) := by
      refine ⟨fun heq => hempty (String.ofList_eq_empty_iff.1 heq), ?_, ?_⟩
      · rwa [String.toList_ofList]
      · rw [String.toList_ofList]
        exact Text.isTrimmed_trim cs
    refine ⟨⟨lead, some (String.ofList (Text.trim cs)), trail, hlead, htrail, ?_⟩, ?_⟩
    · rintro e ⟨⟩
      exact hentry
    · simp only [chars, content, Option.getD_some, String.toList_ofList]
      exact hcs

end Item

def listText (items : List Item) : String := String.ofList ([','].intercalate (items.map Item.chars))

theorem exists_listText (list : String) : ∃ items, listText items = list := by
  have hparts : ∀ part ∈ Text.split ',' list.toList, part ∈ Set.range Item.chars :=
    fun part hpart => Item.exists_chars (Text.not_mem_of_mem_split hpart)
  obtain ⟨items, hitems⟩ : Text.split ',' list.toList ∈ Set.range (List.map Item.chars) := by
    rw [Set.range_list_map]
    exact hparts
  refine ⟨items, ?_⟩
  rw [listText, hitems, Text.split_eq_splitOn, List.intercalate_splitOn, String.ofList_toList]

theorem filter_nonempty (items : List Item) :
    (items.map fun i => String.ofList i.content).filter (· != "") = items.filterMap Item.entry := by
  simp only [Item.content, String.ofList_toList]
  induction items with
  | nil => rfl
  | cons i items ih =>
    obtain ⟨lead, _ | e, trail, hlead, htrail, hentry⟩ := i
    · exact ih
    · have hkept (rest : List String) : (e :: rest).filter (· != "") = e :: rest.filter (· != "") :=
        List.filter_cons_of_pos (bne_iff_ne.2 (hentry e rfl).nonempty)
      exact (hkept _).trans (congrArg (e :: ·) ih)

theorem entries_listText (items : List Item) : entries (listText items) = items.filterMap Item.entry := by
  cases hitems : items with
  | nil => rfl
  | cons i rest =>
    have hsplit : Text.split ',' (listText items).toList = items.map Item.chars := by
      rw [listText, String.toList_ofList, Text.split_eq_splitOn]
      refine List.splitOn_intercalate ',' ?_ (by simp [hitems])
      exact List.forall_mem_map.2 fun i _ => i.comma_not_mem_chars
    rw [← hitems, ← filter_nonempty, entries, hsplit, List.map_map]
    simp only [Function.comp_def, Item.trim_chars]

theorem entries_append (a b : String) : entries (a ++ "," ++ b) = entries a ++ entries b := by
  have hsplit : Text.split ',' (a ++ "," ++ b).toList = Text.split ',' a.toList ++ Text.split ',' b.toList := by
    rw [String.toList_append, String.toList_append, List.append_assoc]
    exact Text.split_append ',' a.toList b.toList
  rw [entries, hsplit, List.map_append, List.filter_append]
  rfl

theorem unmark_marked (e : String) : unmark ("!" ++ e) = (true, e) := by
  have hchars : ("!" ++ e).toList = '!' :: e.toList := String.toList_append
  simp only [unmark, hchars, String.ofList_toList]

theorem unmark_unmarked {e : String} (h : e.toList.head? ≠ some '!') : unmark e = (false, e) := by
  unfold unmark
  split
  · rename_i hchars
    exact absurd (congrArg List.head? hchars) h
  · rfl

/-! Reading the entries -/

section Reading

variable [Dialect]

theorem ofList_append (a b : String) :
    ofList (a ++ "," ++ b) = do return (← ofList a) ++ (← ofList b) := by
  rw [ofList, entries_append, List.mapM_append]
  rfl

theorem ofText_eq_ok_iff {source : String} {p : Pattern} :
    ofText source = .ok p ↔ Dialect.read (unmark source).2 = .ok p.expression ∧ p.inverted = (unmark source).1 := by
  obtain ⟨expression, inverted⟩ := p
  unfold ofText
  rcases unmark source with ⟨marked, text⟩
  dsimp only
  cases Dialect.read text with
  | error message => simp
  | ok x => simp [eq_comm]

theorem ofText_eq_error_iff {source : String} {fault : RunFault} :
    ofText source = .error fault ↔
      ∃ message, Dialect.read (unmark source).2 = .error message ∧ fault = .invalidPattern source message := by
  unfold ofText
  rcases unmark source with ⟨marked, text⟩
  dsimp only
  cases Dialect.read text with
  | error message => simp [eq_comm]
  | ok x => simp

theorem ofText_isOk (source : String) : (ofText source).isOk = (Dialect.read (unmark source).2).isOk := by
  unfold ofText
  rcases unmark source with ⟨marked, text⟩
  dsimp only
  cases Dialect.read text <;> rfl

/-- The fault of the first of some entries that cannot be read, which names it as it stands there and says what the
dialect says of it. -/
def FirstFault (entries : List String) (fault : RunFault) : Prop :=
  ∃ before entry after message, entries = before ++ entry :: after ∧ (∀ e ∈ before, (ofText e).isOk) ∧
    Dialect.read (unmark entry).2 = .error message ∧ fault = .invalidPattern entry message

theorem ofList_eq_error_iff {list : String} {fault : RunFault} :
    ofList list = .error fault ↔ FirstFault (entries list) fault := by
  simp only [ofList, mapM_eq_error_iff, List.find?_eq_some_iff_append, ofText_eq_error_iff, FirstFault,
    Bool.not_not]
  constructor
  · rintro ⟨entry, ⟨-, before, after, hentries, hbefore⟩, message, hread, hfault⟩
    exact ⟨before, entry, after, message, hentries, hbefore, hread, hfault⟩
  · rintro ⟨before, entry, after, message, hentries, hbefore, hread, hfault⟩
    have hfirst : (!(ofText entry).isOk) = true := by
      rw [ofText_isOk, hread]
      rfl
    exact ⟨entry, ⟨hfirst, before, after, hentries, hbefore⟩, message, hread, hfault⟩

end Reading

/-- In any dialect, a list put together from two can be read if both can, and then selects what one of them does;
otherwise its fault is that of the first entry of both that cannot be read. Every list is joined with commas from
entries and from what holds nothing, with blanks around them, and is read as these entries in order. An entry selects
what the dialect finds its expression in. After an exclamation mark it can be read as it could without one, and
selects what it would not. -/
theorem lists_compose [Dialect] :
    (∀ a b : String,
      ((ofList (a ++ "," ++ b)).isOk ↔ (ofList a).isOk ∧ (ofList b).isOk) ∧
      (∀ ps qs, ofList a = .ok ps → ofList b = .ok qs →
        ofList (a ++ "," ++ b) = .ok (ps ++ qs) ∧
        ∀ text, anySelects (ps ++ qs) text ↔ anySelects ps text ∨ anySelects qs text) ∧
      ∀ fault, ofList (a ++ "," ++ b) = .error fault ↔ FirstFault (entries a ++ entries b) fault) ∧
    (∀ list, ∃ items, listText items = list) ∧
    (∀ items : List Item,
      let es := items.filterMap Item.entry
      entries (listText items) = es ∧
      (∀ ps, ofList (listText items) = .ok ps ↔ List.Forall₂ (fun e p => ofText e = .ok p) es ps) ∧
      ∀ fault, ofList (listText items) = .error fault ↔ FirstFault es fault) ∧
    (∀ (ps : List Pattern) (text : String), anySelects ps text ↔ ∃ p ∈ ps, p.selects text) ∧
    ∀ e : String, e.toList.head? ≠ some '!' →
      ((ofText e).isOk ↔ (Dialect.read e).isOk) ∧ ((ofText ("!" ++ e)).isOk ↔ (ofText e).isOk) ∧
      ∀ x, Dialect.read e = .ok x → ∃ p q, ofText e = .ok p ∧ ofText ("!" ++ e) = .ok q ∧
        ∀ text, p.selects text = Dialect.isMatch x text ∧ q.selects text = !p.selects text := by
  refine ⟨fun a b => ⟨?_, ?_, ?_⟩, exists_listText,
    fun items => ⟨entries_listText items, fun ps => ?_, fun fault => ?_⟩, fun ps text => ?_, ?_⟩
  · rw [ofList_append]
    cases ofList a <;> cases ofList b <;> simp [bind, Except.bind, pure, Except.pure, Except.isOk, Except.toBool]
  · intro ps qs hps hqs
    refine ⟨?_, fun text => ?_⟩
    · rw [ofList_append, hps, hqs]
      rfl
    · rw [anySelects, List.any_append, Bool.or_eq_true]
      rfl
  · intro fault
    rw [ofList_eq_error_iff, entries_append]
  · rw [ofList, entries_listText, mapM_eq_ok_iff]
  · rw [ofList_eq_error_iff, entries_listText]
  · exact List.any_eq_true
  · intro e he
    refine ⟨?_, ?_, fun x hx => ?_⟩
    · rw [ofText_isOk, unmark_unmarked he]
    · rw [ofText_isOk, ofText_isOk, unmark_marked, unmark_unmarked he]
    · have hplain : ofText e = .ok ⟨x, false⟩ := ofText_eq_ok_iff.2 (by rw [unmark_unmarked he]; exact ⟨hx, rfl⟩)
      have hmarked : ofText ("!" ++ e) = .ok ⟨x, true⟩ := ofText_eq_ok_iff.2 (by rw [unmark_marked]; exact ⟨hx, rfl⟩)
      exact ⟨_, _, hplain, hmarked, fun text => by simp [selects]⟩

end Pattern

namespace Rehearsal

open Pattern

def visitors : List Item :=
  [{ lead := [], entry := "users", trail := [] }, { lead := [' '], entry := "!admin", trail := [] },
    { lead := [], entry := none, trail := [] }, { lead := [], entry := none, trail := [] }]

/-- Regular expressions, read in the list of all entries and one by one. -/
theorem visitors_compose :
    listText visitors = "users, !admin,," ∧
    (∃ x y : Regex, Dialect.read "users" = .ok x ∧ Dialect.read "admin" = .ok y ∧
      ∃ users others, ofText "users" = .ok users ∧ ofText "!admin" = .ok others ∧
        ofList "users, !admin,," = .ok [users, others] ∧
        ∀ text, anySelects [users, others] text ↔ x.isMatch text ∨ ¬ y.isMatch text) ∧
    ∃ message, ofList ("users, !(" ++ "," ++ ")") = .error (.invalidPattern "!(" message) := by
  have hread (source : String) (h : (Regex.ofText? source).isSome) : ∃ x : Regex, Dialect.read source = .ok x := by
    obtain ⟨x, hx⟩ := Option.isSome_iff_exists.1 h
    exact ⟨x, by simp [Dialect.read, hx]⟩
  obtain ⟨hjoined, -, hitems, hany, hentry⟩ := lists_compose
  have hlist : listText visitors = "users, !admin,," := by decide
  obtain ⟨x, hx⟩ := hread "users" (by decide +kernel)
  obtain ⟨y, hy⟩ := hread "admin" (by decide +kernel)
  obtain ⟨users, _, husers, -, husers'⟩ := (hentry "users" (by decide)).2.2 x hx
  obtain ⟨admin, others, -, hothers, hothers'⟩ := (hentry "admin" (by decide)).2.2 y hy
  have hbroken : Dialect.read "(" = .error unreadable := by
    have hnone : Regex.ofText? "(" = none := by decide +kernel
    simp [Dialect.read, hnone]
  refine ⟨hlist, ⟨x, y, hx, hy, users, others, husers, hothers, ?_, fun text => ?_⟩, unreadable, ?_⟩
  · rw [← hlist]
    exact ((hitems visitors).2.1 _).2 (.cons husers (.cons hothers .nil))
  · obtain ⟨hadmin, hnot⟩ := hothers' text
    simp [hany, (husers' text).1, hnot, hadmin, Dialect.isMatch]
  · refine ((hjoined "users, !(" ")").2.2 _).2 ⟨["users"], "!(", [")"], unreadable, by decide, ?_, ?_, rfl⟩
    · rw [List.forall_mem_singleton, husers]
      rfl
    · exact hbroken

end Rehearsal

end Storyline
