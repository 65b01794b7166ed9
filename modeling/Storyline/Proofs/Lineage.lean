import Storyline.Proofs.Outline
import Storyline.Transcript.Record
import Mathlib.Data.List.Infix
import Mathlib.Data.List.Sublists

/-! The chains of a story's steps, read off their list. A record says of a step how deep it lies, but not under
which one, so a reader takes it to lie under the nearest step before it that is one less deep. Between a step and
its parent there must then be no other step as deep as the parent. Walks that are taken one after another leave
such a list if those that begin in one way stand next to each other. -/

namespace Storyline

variable {β : Type}

def Throughout (P : List β → β → Prop) (xs : List β) : Prop := ∀ before x, before ++ [x] <+: xs → P before x

theorem throughout_nil {P : List β → β → Prop} : Throughout P [] := by
  intro before x h
  simp at h

theorem throughout_concat {P : List β → β → Prop} {xs : List β} {x : β} :
    Throughout P (xs ++ [x]) ↔ Throughout P xs ∧ P xs x := by
  constructor
  · intro h
    exact ⟨fun before y hy => h before y (hy.trans (List.prefix_append _ _)), h xs x (List.prefix_refl _)⟩
  · rintro ⟨h, hx⟩ before y hy
    rcases List.prefix_concat_iff.1 hy with heq | hy
    · obtain ⟨rfl, hlast⟩ := List.append_inj' heq rfl
      cases hlast
      exact hx
    · exact h before y hy

/-- What the reader of a list takes to be the descriptions above a given depth, where the entries before are
given from the nearest one on. -/
def readAbove : Nat → List (String × Nat) → List String
  | 0, _ => []
  | _ + 1, [] => []
  | n + 1, (description, depth) :: earlier =>
      if depth = n then readAbove n earlier ++ [description] else readAbove (n + 1) earlier

/-- What the reader of a list takes to be the chains of its entries, where some have been read already. -/
def readFrom (earlier : List (String × Nat)) : List (String × Nat) → List (List String)
  | [] => []
  | (description, depth) :: rest =>
      (readAbove depth earlier ++ [description]) :: readFrom ((description, depth) :: earlier) rest

def StoryRecord.chains (record : StoryRecord) : List (List String) :=
  readFrom [] (record.steps.map fun step => (step.description, step.depth))

/-- What is listed of a step: its description and how many steps lead to it. -/
def entryOf (chain : List String) : String × Nat := (chain.getLastD "", chain.length - 1)

def latest (n : Nat) (chains : List (List String)) : List String := (chains.filter (·.length = n)).getLastD []

/-- The chain that was listed last, of those as long as its parent, is the parent of each chain. -/
def Unbroken (chains : List (List String)) : Prop :=
  Throughout (fun before chain => latest (chain.length - 1) before = chain.dropLast) chains

/-- Each chain is listed after its parent, unless it has none. -/
def Rooted (chains : List (List String)) : Prop :=
  Throughout (fun before chain => chain.dropLast = [] ∨ chain.dropLast ∈ before) chains

section Reading

variable {chains : List (List String)} {chain : List String}

theorem latest_concat (n : Nat) (chains : List (List String)) (chain : List String) :
    latest n (chains ++ [chain]) = if chain.length = n then chain else latest n chains := by
  unfold latest
  rw [List.filter_append]
  by_cases hlength : chain.length = n <;> simp [hlength]

theorem latest_zero (chains : List (List String)) : latest 0 chains = [] := by
  induction chains using List.reverseRecOn with
  | nil => rfl
  | append_singleton chains chain ih =>
    rw [latest_concat, ih]
    split
    · exact List.length_eq_zero_iff.1 ‹_›
    · rfl

theorem dropLast_concat_entry (h : chain ≠ []) : chain.dropLast ++ [(entryOf chain).1] = chain := by
  refine List.dropLast_append_getLast? _ ?_
  rw [Option.mem_def, entryOf, List.getLastD_eq_getLast?, List.getLast?_eq_some_getLast h]
  rfl

theorem readFrom_concat (earlier entries : List (String × Nat)) (entry : String × Nat) :
    readFrom earlier (entries ++ [entry]) =
      readFrom earlier entries ++ [readAbove entry.2 (entries.reverse ++ earlier) ++ [entry.1]] := by
  induction entries generalizing earlier with
  | nil => rfl
  | cons first entries ih =>
    rw [List.cons_append, readFrom, ih, readFrom]
    simp

/-- Where all chains before have been read rightly, what is read above a depth is the last of them that is as
long. -/
theorem readAbove_eq (hne : ∀ chain ∈ chains, chain ≠ []) (h : Unbroken chains) (n : Nat) :
    readAbove n (chains.map entryOf).reverse = latest n chains := by
  induction chains using List.reverseRecOn generalizing n with
  | nil => cases n <;> rfl
  | append_singleton chains chain ih =>
    obtain ⟨hbefore, hchain⟩ := throughout_concat.1 h
    have ih := ih (fun c hc => hne c (List.mem_append_left _ hc)) hbefore
    have hnonempty : chain ≠ [] := hne chain (by simp)
    have hpositive := List.length_pos_iff.2 hnonempty
    rw [List.map_append, List.reverse_append, latest_concat]
    cases n with
    | zero =>
      rw [if_neg (by omega), latest_zero]
      rfl
    | succ n =>
      change readAbove (n + 1) (entryOf chain :: (chains.map entryOf).reverse) = _
      rw [entryOf, readAbove, ih, ih]
      by_cases hlength : chain.length = n + 1
      · have hparent : latest n chains = chain.dropLast := by
          rw [← hchain, hlength]
          rfl
        rw [if_pos (by omega), if_pos hlength, hparent]
        exact dropLast_concat_entry hnonempty
      · rw [if_neg (by omega), if_neg hlength]

/-- A list of steps can be read as an outline exactly if its chains are unbroken. -/
theorem readFrom_eq_iff (hne : ∀ chain ∈ chains, chain ≠ []) :
    readFrom [] (chains.map entryOf) = chains ↔ Unbroken chains := by
  induction chains using List.reverseRecOn with
  | nil => exact ⟨fun _ => throughout_nil, fun _ => rfl⟩
  | append_singleton chains chain ih =>
    have hbefore := fun c hc => hne c (List.mem_append_left _ hc)
    have ih := ih hbefore
    have hnonempty : chain ≠ [] := hne chain (by simp)
    have hread (h : Unbroken chains) : readAbove (entryOf chain).2 ((chains.map entryOf).reverse ++ []) ++
        [(entryOf chain).1] = chain ↔ latest (chain.length - 1) chains = chain.dropLast := by
      have hlast := dropLast_concat_entry hnonempty
      rw [List.append_nil, readAbove_eq hbefore h]
      constructor
      · exact fun heq => (List.append_inj' (heq.trans hlast.symm) rfl).1
      · intro heq
        change latest (chain.length - 1) chains ++ _ = chain
        rw [heq, hlast]
    rw [List.map_append, List.map_singleton, readFrom_concat, Unbroken, throughout_concat]
    constructor
    · intro heq
      obtain ⟨hfirst, hlast⟩ := List.append_inj' heq rfl
      have hunbroken := ih.1 hfirst
      exact ⟨hunbroken, (hread hunbroken).1 (List.singleton_inj.1 hlast)⟩
    · rintro ⟨hunbroken, hparent⟩
      rw [ih.2 hunbroken, (hread hunbroken).2 hparent]

end Reading

section Firsts

variable [DecidableEq β]

theorem firsts_concat (xs : List β) (x : β) :
    firsts id [] (xs ++ [x]) = firsts id [] xs ++ if x ∈ xs then [] else [x] := by
  rw [firsts_append]
  simp [firsts]

theorem mem_firsts {xs : List β} {x : β} : x ∈ firsts id [] xs ↔ x ∈ xs := by
  refine ⟨fun h => firsts_subset _ _ h, fun h => ?_⟩
  induction xs using List.reverseRecOn with
  | nil => cases h
  | append_singleton xs y ih =>
    rw [firsts_concat, List.mem_append]
    rcases List.mem_append.1 h with h | h
    · exact .inl (ih h)
    · obtain rfl := List.mem_singleton.1 h
      by_cases hold : x ∈ xs
      · exact .inl (ih hold)
      · exact .inr (by simp [hold])

end Firsts

section Walks

variable {chains part : List (List String)} {walk chain : List String}

theorem Rooted.firsts (h : Rooted chains) : Rooted (firsts id [] chains) := by
  induction chains using List.reverseRecOn with
  | nil => exact throughout_nil
  | append_singleton chains chain ih =>
    obtain ⟨hbefore, hchain⟩ := throughout_concat.1 h
    rw [firsts_concat]
    split
    · rw [List.append_nil]
      exact ih hbefore
    · exact throughout_concat.2 ⟨ih hbefore, hchain.imp_right mem_firsts.2⟩

theorem rooted_flatMap {γ : Type} {f : γ → List (List String)} {xs : List γ} (h : ∀ x ∈ xs, Rooted (f x)) :
    Rooted (xs.flatMap f) := by
  induction xs using List.reverseRecOn with
  | nil => exact throughout_nil
  | append_singleton xs x ih =>
    have ih := ih fun y hy => h y (List.mem_append_left _ hy)
    have hx := h x (by simp)
    rw [List.flatMap_append, List.flatMap_singleton]
    generalize f x = part at hx
    induction part using List.reverseRecOn with
    | nil => simpa using ih
    | append_singleton part chain ihPart =>
      obtain ⟨hbefore, hchain⟩ := throughout_concat.1 hx
      rw [← List.append_assoc]
      exact throughout_concat.2 ⟨ihPart hbefore, hchain.imp_right (List.mem_append_right _)⟩

/-- Of three paths in a row, the one in the middle begins in every way that the other two begin in. -/
def Grouped (walks : List (List String)) : Prop :=
  ∀ first walk last, [first, walk, last].Sublist walks →
    ∀ chain, chain <+: first → chain <+: last → chain <+: walk

instance (walks : List (List String)) : Decidable (Grouped walks) :=
  decidable_of_iff (∀ triple ∈ walks.sublistsLen 3, ∀ chain ∈ (triple.headD []).inits,
      chain <+: triple.getD 2 [] → chain <+: triple.getD 1 []) <| by
    constructor
    · intro h first walk last htriple chain hfirst
      exact h [first, walk, last] (List.mem_sublistsLen.2 ⟨htriple, rfl⟩) chain ((List.mem_inits _ _).2 hfirst)
    · intro h triple hmem chain hfirst
      obtain ⟨htriple, hlength⟩ := List.mem_sublistsLen.1 hmem
      obtain ⟨first, walk, last, rfl⟩ := List.length_eq_three.1 hlength
      exact h first walk last htriple chain ((List.mem_inits _ _).1 hfirst)

theorem grouped_of_length_le {walks : List (List String)} (h : walks.length ≤ 2) : Grouped walks := by
  intro first walk last hsublist
  have hlength := hsublist.length_le
  simp only [List.length_cons, List.length_nil] at hlength
  omega

namespace Grouped

variable {walks walks' : List (List String)}

theorem sublist (h : Grouped walks) (hsublist : walks'.Sublist walks) : Grouped walks' :=
  fun first walk last htriple => h first walk last (htriple.trans hsublist)

theorem append (h : Grouped walks) (h' : Grouped walks')
    (hapart : ∀ first ∈ walks, ∀ last ∈ walks', ∀ chain, chain <+: first → chain <+: last → chain = []) :
    Grouped (walks ++ walks') := by
  intro first walk last htriple chain hfirst hlast
  obtain ⟨front, back, heq, hfront, hback⟩ := List.sublist_append_iff.1 htriple
  match front, heq with
  | [], heq =>
    cases heq
    exact h' first walk last hback chain hfirst hlast
  | [_, _, _], heq =>
    cases heq
    exact h first walk last hfront chain hfirst hlast
  | [_], heq | [_, _], heq =>
    cases heq
    rw [hapart first (hfront.subset (by simp)) last (hback.subset (by simp)) chain hfirst hlast]
    exact List.nil_prefix

theorem cons (h : Grouped walks) (description : String) : Grouped (walks.map (description :: ·)) := by
  intro first walk last htriple chain hfirst hlast
  obtain ⟨triple, hsublist, heq⟩ := List.sublist_map_iff.1 htriple
  match triple, heq with
  | [first, walk, last], heq =>
    cases heq
    cases chain with
    | nil => exact List.nil_prefix
    | cons d chain =>
      obtain ⟨hd, hfirst⟩ := List.cons_prefix_cons.1 hfirst
      obtain ⟨-, hlast⟩ := List.cons_prefix_cons.1 hlast
      exact List.cons_prefix_cons.2 ⟨hd, h first walk last hsublist chain hfirst hlast⟩

end Grouped

/-- On a walk, what has been visited of it is still the latest of its length. -/
def Current (walk : List String) (visited : List (List String)) : Prop :=
  ∀ chain ∈ visited, chain <+: walk → latest chain.length (firsts id [] visited) = chain

/-- A visit on a walk leaves all of it current, and does not break the list if the step before was visited. -/
theorem Current.visit (hcurrent : Current walk chains) (hunbroken : Unbroken (firsts id [] chains))
    (hchain : chain <+: walk) (hparent : chain.dropLast = [] ∨ chain.dropLast ∈ chains) :
    Current walk (chains ++ [chain]) ∧ Unbroken (firsts id [] (chains ++ [chain])) := by
  rw [Current, firsts_concat]
  by_cases hold : chain ∈ chains
  · rw [if_pos hold, List.append_nil]
    refine ⟨fun c hc hwalk => hcurrent c ?_ hwalk, hunbroken⟩
    rcases List.mem_append.1 hc with hc | hc
    · exact hc
    · exact List.mem_singleton.1 hc ▸ hold
  · rw [if_neg hold]
    refine ⟨fun c hc hwalk => ?_, throughout_concat.2 ⟨hunbroken, ?_⟩⟩
    · rw [latest_concat]
      split
      · -- two chains of one walk that are as long as each other are one
        rename_i hlength
        exact (List.prefix_of_prefix_length_le hchain hwalk hlength.le).eq_of_length hlength
      · rename_i hlength
        refine hcurrent c ((List.mem_append.1 hc).resolve_right fun hc => ?_) hwalk
        exact hlength (congrArg List.length (List.mem_singleton.1 hc).symm)
    · rcases hparent with hparent | hparent
      · rw [hparent]
        have hlength : chain.length - 1 = 0 := by rw [← List.length_dropLast, hparent, List.length_nil]
        rw [hlength, latest_zero]
      · rw [← List.length_dropLast]
        exact hcurrent _ hparent ((List.dropLast_prefix chain).trans hchain)

theorem Current.visits (hcurrent : Current walk chains) (hunbroken : Unbroken (firsts id [] chains))
    (hrooted : Rooted part) (hpart : ∀ chain ∈ part, chain <+: walk) :
    Current walk (chains ++ part) ∧ Unbroken (firsts id [] (chains ++ part)) := by
  induction part using List.reverseRecOn with
  | nil => simpa using ⟨hcurrent, hunbroken⟩
  | append_singleton part chain ih =>
    obtain ⟨hbefore, hchain⟩ := throughout_concat.1 hrooted
    obtain ⟨hcurrent, hunbroken⟩ := ih hbefore fun c hc => hpart c (List.mem_append_left _ hc)
    rw [← List.append_assoc]
    exact hcurrent.visit hunbroken (hpart chain (by simp)) (hchain.imp_right (List.mem_append_right _))

/-- Wherever walks that begin in one way are taken one after another, and however far each of them is taken,
the list of what is visited first stays unbroken. -/
theorem Grouped.unbroken {tours : List (List String × List (List String))}
    (hgrouped : Grouped (tours.map (·.1)))
    (htours : ∀ tour ∈ tours, Rooted tour.2 ∧ ∀ chain ∈ tour.2, chain <+: tour.1) :
    Unbroken (firsts id [] (tours.flatMap (·.2))) := by
  suffices h : Unbroken (firsts id [] (tours.flatMap (·.2))) ∧
      ∀ last ∈ tours.getLast?, Current last.1 (tours.flatMap (·.2)) from h.1
  induction tours using List.reverseRecOn with
  | nil => exact ⟨throughout_nil, nofun⟩
  | append_singleton tours tour ih =>
    have hbefore : Grouped (tours.map (·.1)) := fun first walk last h =>
      hgrouped first walk last (h.trans (by simp))
    obtain ⟨hunbroken, hlast⟩ := ih hbefore fun t ht => htours t (List.mem_append_left _ ht)
    obtain ⟨hrooted, hpart⟩ := htours tour (by simp)
    -- what the walk has in common with an earlier one, it has in common with the last one
    have hcurrent : Current tour.1 (tours.flatMap (·.2)) := by
      intro chain hchain hwalk
      obtain ⟨earlier, hearlier, hmem⟩ := List.mem_flatMap.1 hchain
      obtain ⟨front, last, rfl⟩ := (List.eq_nil_or_concat tours).resolve_left (List.ne_nil_of_mem hearlier)
      rw [List.concat_eq_append] at *
      refine hlast last (by simp) chain hchain ?_
      have hbegins := (htours earlier (List.mem_append_left _ hearlier)).2 chain hmem
      rcases List.mem_append.1 hearlier with hfront | heq
      · refine hgrouped earlier.1 last.1 tour.1 ?_ chain hbegins hwalk
        have htriple : [earlier, last, tour].Sublist (front ++ [last] ++ [tour]) :=
          ((List.singleton_sublist.2 hfront).append (List.Sublist.refl [last])).append (List.Sublist.refl [tour])
        exact htriple.map (·.1)
      · exact List.mem_singleton.1 heq ▸ hbegins
    obtain ⟨hcurrent, hunbroken⟩ := hcurrent.visits hunbroken hrooted hpart
    simpa using ⟨hunbroken, hcurrent⟩

end Walks

end Storyline
