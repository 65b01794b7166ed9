import Storyline.Proofs.Enumeration
import Storyline.Rehearsal.Script

/-! The shape of paths. Whatever is declared, also after a node that ends its sequence, a path takes steps that
have actions one after another. It ends after the last of them, at a marker, or at a step without an action that
has the marker behind it. Every list of entries of this shape is a path of some specification. -/

namespace Storyline

variable {α : Type}

namespace Entry

/-- What may follow an entry: nothing follows a marker, and only the marker follows a step without an action. -/
def Followed : Entry α → List (Entry α) → Prop
  | .deferred, rest => rest = []
  | .step s, rest => s.isPending → rest = [.deferred]

structure Shaped (entries : List (Entry α)) : Prop where
  entered : entries ≠ []
  followed : ∀ entry rest, entry :: rest <:+ entries → entry.Followed rest

theorem shaped_cons {entry : Entry α} {rest : List (Entry α)} :
    Shaped (entry :: rest) ↔ entry.Followed rest ∧ (rest = [] ∨ Shaped rest) := by
  constructor
  · intro h
    refine ⟨h.followed entry rest List.suffix_rfl, ?_⟩
    by_cases hne : rest = []
    · exact .inl hne
    · exact .inr ⟨hne, fun later rest' hrest => h.followed later rest' (hrest.trans (List.suffix_cons _ _))⟩
  · rintro ⟨hfirst, hrest⟩
    refine ⟨List.cons_ne_nil _ _, fun later rest' hsuffix => ?_⟩
    rcases List.suffix_cons_iff.1 hsuffix with heq | hsuffix
    · cases heq
      exact hfirst
    · rcases hrest with rfl | hrest
      · simp at hsuffix
      · exact hrest.followed later rest' hsuffix

namespace Shaped

variable {entries : List (Entry α)}

theorem countP_le_one (h : Shaped entries) : entries.countP isDeferred ≤ 1 := by
  induction entries with
  | nil => exact Nat.zero_le 1
  | cons entry rest ih =>
    obtain ⟨hfirst, hrest⟩ := shaped_cons.1 h
    cases entry with
    | deferred =>
      obtain rfl := hfirst
      exact Nat.le_refl 1
    | step s =>
      rw [List.countP_cons_of_neg (by simp [isDeferred])]
      rcases hrest with rfl | hrest
      · exact Nat.zero_le 1
      · exact ih hrest

theorem ready (h : Shaped entries) (hmarker : .deferred ∉ entries) :
    ∀ entry ∈ entries, ∃ s, entry = .step s ∧ s.action.isSome := by
  intro entry hentry
  cases entry with
  | deferred => exact absurd hentry hmarker
  | step s =>
    refine ⟨s, rfl, ?_⟩
    by_contra hnone
    obtain ⟨front, rest, hsplit⟩ := List.append_of_mem hentry
    have hrest : rest = [.deferred] :=
      h.followed (.step s) rest ⟨front, hsplit.symm⟩ (by simpa [Step.isPending] using hnone)
    exact hmarker (by simp [hsplit, hrest])

end Shaped

def node : Entry α → Node α
  | .step s => .step s
  | .deferred => .deferred

end Entry

namespace Steps

theorem routes_shaped (nodes : List (Node α)) : ∀ route ∈ routes nodes, Entry.Shaped route := by
  induction nodes using routes.induct
    (motive_1 := fun node => ∀ route ∈ node.routes, Entry.Shaped route) with
  | case1 alternative ih route hroute => exact ih route (by simpa [Node.routes] using hroute)
  | case2 node h => cases node <;> simp_all [Node.routes]
  | case3 => simp [routes]
  | case4 rest => simp [routes, Entry.shaped_cons, Entry.Followed]
  | case5 alternative rest ihf ih =>
    simp only [routes, List.forall_mem_append]
    exact ⟨ihf, ih⟩
  | case6 s rest h => simp [routes, h, Entry.shaped_cons, Entry.Followed]
  | case7 s rest h hrest => simp [routes, h, hrest, Entry.shaped_cons, Entry.Followed]
  | case8 s rest h hrest ih =>
    intro route hroute
    simp only [routes, h, hrest] at hroute
    obtain ⟨tail, htail, rfl⟩ := List.mem_map.1 hroute
    exact Entry.shaped_cons.2 ⟨fun hpending => absurd hpending h, .inr (ih tail htail)⟩

/-- Entries of the shape, declared one after another, have themselves as their only route. -/
theorem routes_node {entries : List (Entry α)} (h : Entry.Shaped entries) :
    routes (entries.map Entry.node) = [entries] := by
  induction entries with
  | nil => exact absurd rfl h.entered
  | cons entry rest ih =>
    obtain ⟨hfirst, hrest⟩ := Entry.shaped_cons.1 h
    cases entry with
    | deferred =>
      obtain rfl := hfirst
      simp [Entry.node, routes]
    | step s =>
      by_cases hpending : s.isPending
      · obtain rfl := hfirst hpending
        simp [Entry.node, routes, hpending]
      · rcases hrest with rfl | hrest
        · simp [Entry.node, routes, hpending]
        · simp [Entry.node, routes, hpending, hrest.entered, ih hrest]

/-- Every path has the shape, whatever its specification is like: it is not empty, a marker comes at most once and
last, a step without an action comes right before it, and without a marker all its steps have actions. Its steps
are declared in the same order. Nothing more can be said of the shape: any entries of it are a path. -/
theorem path_shapes :
    (∀ nodes : List (Node α), ∀ path ∈ paths nodes,
      Entry.Shaped path.entries ∧ path.entries.countP Entry.isDeferred ≤ 1 ∧
      (.deferred ∉ path.entries → ∀ entry ∈ path.entries, ∃ s, entry = .step s ∧ s.action.isSome) ∧
      path.steps.Sublist (steps nodes)) ∧
    ∀ path : Path α, Entry.Shaped path.entries → ∃ nodes, paths nodes = [path] := by
  constructor
  · intro nodes path hpath
    rw [(paths_eq_routes nodes).1] at hpath
    obtain ⟨route, hroute, rfl⟩ := List.mem_map.1 hpath
    have hshaped := routes_shaped nodes route hroute
    exact ⟨hshaped, hshaped.countP_le_one, hshaped.ready, routes_sublist nodes route hroute⟩
  · intro path hshaped
    refine ⟨path.entries.map Entry.node, ?_⟩
    rw [(paths_eq_routes _).1, routes_node hshaped, List.map_singleton]

end Steps

namespace Rehearsal

/-- Nodes are declared after a step without an action, and after a marker. -/
def overrun : Steps Script :=
  [.step ⟨"a", some [], false⟩,
    .fork [.step ⟨"b", none, true⟩, .step ⟨"c", some [], false⟩],
    .fork [.step ⟨"d", some [.pass 1], true⟩],
    .deferred, .step ⟨"e", some [], false⟩]

theorem overrun_shaped :
    let path : Path Script := ⟨[.step ⟨"a", some [], false⟩, .step ⟨"d", some [.pass 1], true⟩]⟩
    overrun.paths = [⟨[.step ⟨"a", some [], false⟩, .step ⟨"b", none, true⟩, .deferred]⟩, path,
      ⟨[.step ⟨"a", some [], false⟩, .deferred]⟩] ∧
    Entry.Shaped path.entries ∧ (∀ entry ∈ path.entries, ∃ s, entry = .step s ∧ s.action.isSome) ∧
    path.steps.Sublist (Steps.steps overrun) ∧ ∃ nodes, Steps.paths nodes = [path] := by
  intro path
  obtain ⟨hpaths, hnodes⟩ := Steps.path_shapes (α := Script)
  obtain ⟨hshaped, -, hready, hdeclared⟩ := hpaths overrun path (.tail _ (.head _))
  exact ⟨rfl, hshaped, hready (by simp [path]), hdeclared, hnodes path hshaped⟩

end Rehearsal

end Storyline
