import Storyline.Proofs.Outline

/-! What is declared after a node that ends its sequence. The builders drop it: they look at the last node they
kept. The walk does not come to it: it looks at the node it is at and at the next one. So it makes no difference
whether it is there. -/

namespace Storyline

variable {α : Type}

namespace Steps

/-- The nodes of a sequence up to the first one that ends it. -/
def kept : List (Node α) → List (Node α)
  | [] => []
  | node :: rest => node :: if node.terminates then [] else kept rest

theorem kept_append (nodes more : List (Node α)) :
    kept (nodes ++ more) = if nodes.any Node.terminates then kept nodes else nodes ++ kept more := by
  induction nodes with
  | nil => rfl
  | cons node rest ih =>
    rw [List.cons_append, kept, ih, kept, List.any_cons]
    cases node.terminates with
    | true => rfl
    | false => cases rest.any Node.terminates <;> rfl

theorem kept_kept (nodes : List (Node α)) : kept (kept nodes) = kept nodes := by
  induction nodes with
  | nil => rfl
  | cons node rest ih => cases hnode : node.terminates <;> simp [kept, hnode, ih]

@[simp] theorem isTerminated_concat (steps : Steps α) (node : Node α) :
    isTerminated (steps ++ [node]) = node.terminates := by
  simp [isTerminated]

theorem any_of_isTerminated {steps : Steps α} (h : isTerminated steps) : steps.any Node.terminates := by
  obtain ⟨node, hlast, hnode⟩ := (Option.any_eq_true _ _).1 h
  exact List.any_eq_true.2 ⟨node, List.mem_of_getLast? hlast, hnode⟩

theorem append_of_isTerminated {steps : Steps α} (h : isTerminated steps) (nodes : List (Node α)) :
    append steps nodes = steps := by
  induction nodes with
  | nil => rfl
  | cons node nodes ih =>
    have hpush : push steps node = steps := if_pos h
    rw [append, List.foldl_cons, hpush]
    exact ih

theorem append_of_not_isTerminated {steps : Steps α} (h : ¬ isTerminated steps) (nodes : List (Node α)) :
    append steps nodes = steps ++ kept nodes := by
  induction nodes generalizing steps with
  | nil => exact (List.append_nil steps).symm
  | cons node nodes ih =>
    have hpush : push steps node = steps ++ [node] := if_neg h
    rw [append, List.foldl_cons, hpush, kept]
    cases hnode : node.terminates with
    | true => exact append_of_isTerminated (by simpa using hnode) nodes
    | false =>
      have happend : append (steps ++ [node]) nodes = (steps ++ [node]) ++ kept nodes := ih (by simp [hnode])
      rw [List.append_assoc] at happend
      exact happend

theorem ofNodes_eq_kept (nodes : List (Node α)) : ofNodes nodes = kept nodes :=
  append_of_not_isTerminated (by simp [isTerminated]) nodes

/-- Of what the builders drop nothing would have been kept. -/
theorem kept_builders (steps : Steps α) (nodes : List (Node α)) :
    kept (append steps nodes) = kept (steps ++ nodes) := by
  by_cases h : isTerminated steps
  · rw [append_of_isTerminated h, kept_append, if_pos (any_of_isTerminated h)]
  · rw [append_of_not_isTerminated h, kept_append, kept_append, kept_kept]

end Steps

mutual

def Node.cut : Node α → Node α
  | .fork alternative => .fork (Steps.cut alternative)
  | node => node

/-- A specification without all that comes after the first node that ends its sequence, at any depth. -/
def Steps.cut : List (Node α) → Steps α
  | [] => []
  | node :: rest => node.cut :: if node.terminates then [] else Steps.cut rest

end

mutual

def Node.rebuilt : Node α → Node α
  | .fork alternative => .fork (Steps.rebuildOnto [] alternative)
  | node => node

/-- Declares nodes after `steps`, one by one, and what they hold in the same way. -/
def Steps.rebuildOnto (steps : Steps α) : List (Node α) → Steps α
  | [] => steps
  | node :: rest => Steps.rebuildOnto (steps.push node.rebuilt) rest

end

@[simp] theorem Node.terminates_cut (node : Node α) : node.cut.terminates = node.terminates := by
  cases node <;> simp [Node.cut, Node.terminates]

namespace Steps

theorem cut_eq_kept (nodes : List (Node α)) : cut nodes = kept (nodes.map Node.cut) := by
  induction nodes with
  | nil => rfl
  | cons node rest ih => rw [cut, List.map_cons, kept, Node.terminates_cut, ih]

theorem rebuildOnto_eq (steps : Steps α) (nodes : List (Node α)) :
    rebuildOnto steps nodes = append steps (nodes.map Node.rebuilt) := by
  induction nodes generalizing steps with
  | nil => rfl
  | cons node rest ih => exact ih (steps.push node.rebuilt)

/-- To declare everything anew is to cut it. -/
theorem rebuild_eq_cut (nodes : List (Node α)) : rebuildOnto [] nodes = cut nodes := by
  have hbuild (nodes : List (Node α)) : rebuildOnto [] nodes = kept (nodes.map Node.rebuilt) := by
    rw [rebuildOnto_eq]
    exact ofNodes_eq_kept _
  suffices hnodes : nodes.map Node.rebuilt = nodes.map Node.cut by rw [hbuild, hnodes, cut_eq_kept]
  induction nodes using cut.induct (motive_1 := fun node => node.rebuilt = node.cut) with
  | case1 alternative ih => rw [Node.rebuilt, Node.cut, hbuild, ih, cut_eq_kept]
  | case2 node h => cases node <;> simp_all [Node.rebuilt, Node.cut]
  | case3 => rfl
  | case4 node rest ih ihrest => simp [ih, ihrest]

theorem isSealed_cut (nodes : List (Node α)) : isSealed (cut nodes) := by
  induction nodes using cut.induct (motive_1 := fun node => node.cut.isSealed) with
  | case1 alternative ih => simpa [Node.cut, Node.isSealed] using ih
  | case2 node h => cases node <;> simp_all [Node.cut, Node.isSealed]
  | case3 => rfl
  | case4 node rest ih ihrest =>
    rw [cut]
    cases hnode : node.terminates <;> simp [isSealed, hnode, ih, ihrest]

theorem cut_eq_nil_iff {nodes : List (Node α)} : cut nodes = [] ↔ nodes = [] := by
  cases nodes <;> simp [cut]

theorem routes_cut (nodes : List (Node α)) : routes (cut nodes) = routes nodes := by
  induction nodes using routes.induct (motive_1 := fun node => node.cut.routes = node.routes) with
  | case1 alternative ih => rw [Node.cut, Node.routes, ih, Node.routes]
  | case2 node h => cases node <;> simp_all [Node.cut, Node.routes]
  | case3 => rfl
  | case4 rest => simp [cut, Node.cut, Node.terminates, routes]
  | case5 alternative rest ihf ih =>
    rw [Node.cut] at ihf
    simp only [cut, Node.cut, Node.terminates, routes, ihf, ih, Bool.false_eq_true, if_false]
  | case6 s rest h => simp [cut, Node.cut, Node.terminates, routes, h]
  | case7 s rest h hrest =>
    obtain rfl := List.isEmpty_iff.1 hrest
    simp [cut, Node.cut, routes]
  | case8 s rest h hrest ih =>
    -- a step that something follows is not the last one after the cut either
    have hcut : ¬ (cut rest).isEmpty := by simpa [cut_eq_nil_iff] using hrest
    simp [cut, Node.cut, Node.terminates, routes, h, hrest, hcut, ih]

theorem routes_kept (nodes : List (Node α)) : routes (kept nodes) = routes nodes := by
  have hcut : cut (kept nodes) = cut nodes := by
    induction nodes with
    | nil => rfl
    | cons node rest ih => cases hnode : node.terminates <;> simp [kept, cut, hnode, ih]
  rw [← routes_cut (kept nodes), hcut, routes_cut]

/-- The builders and the walk agree on what comes after a node that ends its sequence. To declare a specification
anew, at every depth, is to cut it, and from any trail the walk goes on through the cut one as through the whole. It
does so too when nodes are declared after others, whatever of them is dropped. -/
theorem truncation_unnoticed (nodes : List (Node α)) (trail : List (Entry α)) :
    rebuildOnto [] nodes = cut nodes ∧ isSealed (cut nodes) ∧ walk trail (cut nodes) = walk trail nodes ∧
    ∀ steps : Steps α, walk trail (append steps nodes) = walk trail (steps ++ nodes) := by
  refine ⟨rebuild_eq_cut nodes, isSealed_cut nodes, ?_, fun steps => ?_⟩
  · rw [walk_eq_routes, walk_eq_routes, routes_cut]
  · have hroutes : routes (append steps nodes) = routes (steps ++ nodes) := by
      rw [← routes_kept, kept_builders, routes_kept]
    rw [walk_eq_routes, walk_eq_routes, hroutes]

end Steps

end Storyline
