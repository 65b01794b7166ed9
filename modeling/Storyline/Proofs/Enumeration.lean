import Storyline.Path
import Mathlib.Data.List.Forall2

/-! What the walk through a specification comes out with. `Steps.routes` says it without a trail and
without a look at the next node: the routes of a fork stand in front of those of what follows it, and a
step goes in front of every route of what follows it. The walk puts its trail in front of each route, so
the paths are the routes, and each leaf of the tree ends one of them. -/

namespace Storyline

variable {α : Type}

mutual

def Node.routes : Node α → List (List (Entry α))
  | .fork alternative => Steps.routes alternative
  | _ => []

def Steps.routes : List (Node α) → List (List (Entry α))
  | [] => []
  | .deferred :: _ => [[.deferred]]
  | .fork alternative :: rest => (Node.fork alternative).routes ++ Steps.routes rest
  | .step s :: rest =>
      if s.isPending then [[.step s, .deferred]]
      else if rest.isEmpty then [[.step s]]
      else (Steps.routes rest).map (.step s :: ·)

end

mutual

def Node.leaves : Node α → List (List (Entry α))
  | .fork alternative => Steps.leaves alternative
  | _ => []

/-- The leaves of a specification in declaration order, each as the entries that a path has there: a
deferred marker, a pending step, or a step that nothing is declared after. -/
def Steps.leaves : List (Node α) → List (List (Entry α))
  | [] => []
  | .deferred :: _ => [[.deferred]]
  | .fork alternative :: rest => (Node.fork alternative).leaves ++ Steps.leaves rest
  | .step s :: rest =>
      if s.isPending then [[.step s, .deferred]]
      else if rest.isEmpty then [[.step s]]
      else Steps.leaves rest

end

namespace Steps

variable (trail : List (Entry α)) (rest : List (Node α))

theorem walk_deferred : walk trail (.deferred :: rest) = [⟨trail ++ [.deferred]⟩] := by
  simp [walk, Node.walk, Node.terminates]

/-- What follows a fork starts again from the trail that led to it. -/
theorem walk_fork (alternative : List (Node α)) :
    walk trail (.fork alternative :: rest) = walk trail alternative ++ walk trail rest := by
  cases rest with
  | nil => simp [walk, Node.walk, Node.terminates]
  | cons next rest =>
    cases next with
    | deferred => simp [walk, Node.walk, Node.terminates]
    | step s => conv_lhs => unfold walk; simp [Node.walk, Node.terminates]
    | fork f => conv_lhs => unfold walk; simp [Node.walk, Node.terminates]

theorem walk_pending {s : Step α} (h : s.isPending) :
    walk trail (.step s :: rest) = [⟨trail ++ [.step s, .deferred]⟩] := by
  simp [walk, Node.walk, Node.terminates, h]

theorem walk_last {s : Step α} (h : ¬ s.isPending) : walk trail [.step s] = [⟨trail ++ [.step s]⟩] := by
  simp [walk, Node.walk, Node.terminates, h]

theorem walk_step {s : Step α} (h : ¬ s.isPending) (hrest : rest ≠ []) :
    walk trail (.step s :: rest) = walk (trail ++ [.step s]) rest := by
  cases rest with
  | nil => exact absurd rfl hrest
  | cons next rest =>
    cases next with
    -- the look at the next node ends the path here, as the walk would one node later
    | deferred => simp [walk, Node.walk, Node.terminates, h]
    | step s' => conv_lhs => unfold walk; simp [Node.walk, Node.terminates, h]
    | fork f => conv_lhs => unfold walk; simp [Node.walk, Node.terminates, h]

theorem walk_eq_routes (nodes : List (Node α)) (trail : List (Entry α)) :
    walk trail nodes = (routes nodes).map fun route => ⟨trail ++ route⟩ := by
  -- of a single node only the alternative of a fork is walked by itself
  induction nodes using routes.induct
    (motive_1 := fun node => ∀ alternative, node = .fork alternative → ∀ trail : List (Entry α),
      walk trail alternative = (routes alternative).map fun route => ⟨trail ++ route⟩)
    generalizing trail with
  | case1 alternative ih f hf =>
    cases hf
    exact ih _
  | case2 node h f hf => exact (h f hf).elim
  | case3 => simp [walk, routes]
  | case4 rest => simp [walk_deferred, routes]
  | case5 alternative rest ihf ih =>
    rw [walk_fork, ihf alternative rfl, ih]
    simp [routes, Node.routes]
  | case6 s rest h => simp [walk_pending _ _ h, routes, h]
  | case7 s rest h hrest =>
    obtain rfl := List.isEmpty_iff.1 hrest
    simp [walk_last _ h, routes, h]
  | case8 s rest h hrest ih =>
    rw [walk_step _ _ h (by simpa using hrest), ih]
    simp [routes, h, hrest]

/-- The routes end in the leaves, one route in each, in the same order. -/
theorem routes_leaves (nodes : List (Node α)) :
    List.Forall₂ (fun route leaf => leaf <:+ route) (routes nodes) (leaves nodes) := by
  induction nodes using routes.induct
    (motive_1 := fun node =>
      List.Forall₂ (fun route leaf => leaf <:+ route) node.routes node.leaves) with
  | case1 alternative ih => simpa [Node.routes, Node.leaves] using ih
  | case2 node h => cases node <;> simp_all [Node.routes, Node.leaves]
  | case3 => simp [routes, leaves]
  | case4 rest => simp [routes, leaves]
  | case5 alternative rest ihf ih =>
    simp only [routes, leaves]
    exact List.rel_append ihf ih
  | case6 s rest h => simp [routes, leaves, h]
  | case7 s rest h hrest => simp [routes, leaves, h, hrest]
  | case8 s rest h hrest ih =>
    simp only [routes, leaves, h, hrest]
    refine List.forall₂_map_left_iff.2 (ih.imp fun route leaf hleaf => ?_)
    exact hleaf.trans (List.suffix_cons _ _)

/-- A route's steps are declared in its specification, in the same order. -/
theorem routes_sublist (nodes : List (Node α)) :
    ∀ route ∈ routes nodes, (route.filterMap Entry.step?).Sublist (steps nodes) := by
  induction nodes using routes.induct
    (motive_1 := fun node =>
      ∀ route ∈ node.routes, (route.filterMap Entry.step?).Sublist node.steps) with
  | case1 alternative ih route hroute => exact ih route (by simpa [Node.routes] using hroute)
  | case2 node h => cases node <;> simp_all [Node.routes]
  | case3 => simp [routes]
  | case4 rest => simp [routes, List.filterMap_cons]
  | case5 alternative rest ihf ih =>
    intro route hroute
    simp only [routes, List.mem_append] at hroute
    rw [steps]
    rcases hroute with h | h
    · exact (ihf route h).trans (List.sublist_append_left _ _)
    · exact (ih route h).trans (List.sublist_append_right _ _)
  | case6 s rest h => simp [routes, h, List.filterMap_cons, steps, Node.steps]
  | case7 s rest h hrest => simp [routes, h, hrest, steps, Node.steps]
  | case8 s rest h hrest ih =>
    intro route hroute
    simp only [routes, h, hrest] at hroute
    obtain ⟨tail, htail, rfl⟩ := List.mem_map.1 hroute
    simpa [steps, Node.steps] using ih tail htail

/-- The paths are the routes, each leaf ends one of them, and after a fork they start again from the
trail that led to it. -/
theorem paths_eq_routes (spec : Steps α) :
    spec.paths = (routes spec).map Path.mk ∧
    List.Forall₂ (fun path leaf => leaf <:+ path.entries) spec.paths (leaves spec) ∧
    ∀ (trail : List (Entry α)) (alternative rest : List (Node α)),
      walk trail (.fork alternative :: rest) = walk trail alternative ++ walk trail rest := by
  have hpaths : spec.paths = (routes spec).map Path.mk := by
    rw [paths, walk_eq_routes]
    simp
  refine ⟨hpaths, ?_, fun trail alternative rest => walk_fork trail rest alternative⟩
  rw [hpaths]
  exact List.forall₂_map_left_iff.2 (routes_leaves spec)

end Steps

end Storyline
