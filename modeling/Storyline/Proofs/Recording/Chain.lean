import Storyline.Transcript.Recorder
import Mathlib.Data.List.Induction
import Mathlib.Data.List.Nodup

/-! The text under which a recorder knows a chain of steps: the story's description and those of the
steps, each after a `>`. Texts without a `>` of their own can be told apart again, others cannot. -/

namespace Storyline

def chainText (story : String) (chain : List String) : String :=
  chain.foldl (fun text description => text ++ ">" ++ description) story

theorem chainText_concat (story : String) (chain : List String) (description : String) :
    chainText story (chain ++ [description]) = chainText story chain ++ ">" ++ description := by
  simp [chainText]

theorem toList_chainText (story : String) (chain : List String) :
    (chainText story chain).toList = story.toList ++ chain.flatMap ('>' :: ·.toList) := by
  induction chain using List.reverseRecOn with
  | nil => simp [chainText]
  | append_singleton chain description ih => simp [chainText_concat, ih]

/-- A text that holds no separator. -/
def Plain (text : String) : Prop := '>' ∉ text.toList

instance : DecidablePred Plain := fun text => inferInstanceAs (Decidable ('>' ∉ text.toList))

theorem append_cons_inj {β : Type} {a : β} {x y r s : List β} (hx : a ∉ x) (hy : a ∉ y)
    (h : x ++ a :: r = y ++ a :: s) : x = y ∧ r = s := by
  rcases List.append_eq_append_iff.1 h with ⟨zs, rfl, hz⟩ | ⟨zs, rfl, hz⟩
  · cases zs with
    | nil => simpa using hz
    | cons z zs => simp_all
  · cases zs with
    | nil => simpa [eq_comm] using hz
    | cons z zs => simp_all

theorem append_flatMap_inj : ∀ {cs ds : List String} {x y : List Char}, '>' ∉ x → '>' ∉ y →
    (∀ c ∈ cs, Plain c) → (∀ d ∈ ds, Plain d) →
    x ++ cs.flatMap ('>' :: ·.toList) = y ++ ds.flatMap ('>' :: ·.toList) → x = y ∧ cs = ds
  | [], [], x, y, _, _, _, _, h => by simpa using h
  | [], d :: ds, x, y, hx, _, _, _, h => by
    rw [List.flatMap_nil, List.append_nil] at h
    exact absurd (by simp [h]) hx
  | c :: cs, [], x, y, _, hy, _, _, h => by
    rw [List.flatMap_nil, List.append_nil] at h
    exact absurd (by simp [← h]) hy
  | c :: cs, d :: ds, x, y, hx, hy, hc, hd, h => by
    simp only [List.flatMap_cons, List.cons_append, List.mem_cons, forall_eq_or_imp] at h hc hd
    obtain ⟨rfl, htail⟩ := append_cons_inj hx hy h
    obtain ⟨hcd, rfl⟩ := append_flatMap_inj hc.1 hd.1 hc.2 hd.2 htail
    exact ⟨rfl, by rw [String.toList_injective hcd]⟩

theorem chainText_inj {story story' : String} {chain chain' : List String} (hs : Plain story)
    (hs' : Plain story') (hc : ∀ d ∈ chain, Plain d) (hc' : ∀ d ∈ chain', Plain d)
    (h : chainText story chain = chainText story' chain') : story = story' ∧ chain = chain' := by
  have hchars := congrArg String.toList h
  rw [toList_chainText, toList_chainText] at hchars
  obtain ⟨hstory, hchain⟩ := append_flatMap_inj hs hs' hc hc' hchars
  exact ⟨String.toList_injective hstory, hchain⟩

/-- The chains known after further ones were reached, the latest first. -/
def knownAfter (past texts : List String) : List String := texts.foldl (fun p t => p.insert t) past

@[simp] theorem knownAfter_nil (past : List String) : knownAfter past [] = past := rfl

theorem knownAfter_cons (past : List String) (text : String) (texts : List String) :
    knownAfter past (text :: texts) = knownAfter (past.insert text) texts := rfl

theorem knownAfter_append (past xs ys : List String) :
    knownAfter past (xs ++ ys) = knownAfter (knownAfter past xs) ys := List.foldl_append

theorem mem_knownAfter {past texts : List String} {text : String} :
    text ∈ knownAfter past texts ↔ text ∈ past ∨ text ∈ texts := by
  induction texts generalizing past with
  | nil => simp
  | cons t texts ih =>
    rw [knownAfter_cons, ih, List.mem_insert_iff, List.mem_cons]
    tauto

theorem nodup_knownAfter {past : List String} (texts : List String) (h : past.Nodup) :
    (knownAfter past texts).Nodup := by
  induction texts generalizing past with
  | nil => exact h
  | cons t texts ih => exact ih (List.Nodup.insert h)

theorem insert_extends (past : List String) (text : String) :
    past.reverse <+: (past.insert text).reverse := by
  by_cases h : text ∈ past
  · exact (List.insert_of_mem h).symm ▸ List.prefix_refl _
  · rw [List.insert_of_not_mem h, List.reverse_cons]
    exact List.prefix_append _ _

/-- What is known keeps its number. -/
theorem knownAfter_extends (past texts : List String) :
    past.reverse <+: (knownAfter past texts).reverse := by
  induction texts generalizing past with
  | nil => exact List.prefix_refl _
  | cons t texts ih => exact (insert_extends past t).trans (ih _)

end Storyline
