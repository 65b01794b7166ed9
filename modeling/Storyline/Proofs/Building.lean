import Storyline.Proofs.Outline

/-! What can be built. A specification comes from the builders, and they keep it sealed: nothing is declared
after a node that ends its sequence, at any depth. What is sealed can be built in turn, so to take
specifications apart and to use their parts again leads to nothing else. -/

namespace Storyline

variable {α : Type}

mutual

/-- A node that can be declared. Of an alternative the leading step is marked, unless the fork is made by hand. -/
inductive Node.Built : Node α → Prop
  | step (s : Step α) : Node.Built (.step s)
  | deferred : Node.Built .deferred
  | fork {alternative : Steps α} (h : Steps.Built alternative) : Node.Built (.fork alternative)
  | forkOf {alternative : Steps α} (h : Steps.Built alternative) : Node.Built (.forkOf alternative)

/-- A specification that can be built. -/
inductive Steps.Built : Steps α → Prop
  | empty : Steps.Built []
  | push {steps : Steps α} {node : Node α} (h : Steps.Built steps) (hnode : Node.Built node) :
      Steps.Built (steps.push node)
  | fork {alternatives : List (Steps α)} (h : ∀ steps ∈ alternatives, Steps.Built steps) :
      Steps.Built (Steps.fork alternatives)

end

mutual

theorem Node.Built.sealed : ∀ {node : Node α}, node.Built → node.isSealed
  | _, .step _ => rfl
  | _, .deferred => rfl
  | _, .fork h => by simpa [Node.isSealed] using h.sealed
  | _, .forkOf h => by simpa [Node.forkOf, Node.isSealed] using Steps.isSealed_markFork h.sealed

theorem Steps.Built.sealed : ∀ {steps : Steps α}, Steps.Built steps → Steps.isSealed steps
  | _, .empty => rfl
  | _, .push h hnode => Steps.isSealed_push h.sealed hnode.sealed
  | _, .fork h => Steps.isSealed_fork fun steps hsteps => (h steps hsteps).sealed

end

namespace Steps

theorem Built.append {steps : Steps α} {nodes : List (Node α)} (h : steps.Built)
    (hnodes : ∀ node ∈ nodes, node.Built) : (append steps nodes).Built := by
  induction nodes generalizing steps with
  | nil => exact h
  | cons node nodes ih =>
    obtain ⟨hnode, hrest⟩ := List.forall_mem_cons.1 hnodes
    exact ih (.push h hnode) hrest

theorem isTerminated_of_isSealed {steps rest : List (Node α)} {node : Node α}
    (h : isSealed (steps ++ node :: rest)) : ¬ isTerminated steps := by
  induction steps with
  | nil => simp [isTerminated]
  | cons first steps ih =>
    obtain ⟨hlast, -, hrest⟩ := isSealed_cons.1 h
    cases steps with
    | nil =>
      intro hterminated
      exact List.cons_ne_nil _ _ (hlast (by simpa [isTerminated] using hterminated))
    | cons second steps =>
      intro hterminated
      exact ih hrest (by simpa [isTerminated] using hterminated)

theorem append_of_isSealed (steps : List (Node α)) {nodes : List (Node α)} (h : isSealed (steps ++ nodes)) :
    append steps nodes = steps ++ nodes := by
  induction nodes generalizing steps with
  | nil => exact (List.append_nil steps).symm
  | cons node nodes ih =>
    have hpush : push steps node = steps ++ [node] := if_neg (isTerminated_of_isSealed h)
    have hrest := ih (steps ++ [node]) (by simpa using h)
    rw [← hpush] at hrest
    calc
      append steps (node :: nodes) = append (push steps node) nodes := rfl
      _ = steps ++ node :: nodes := by rw [hrest, hpush, List.append_assoc, List.singleton_append]

theorem built_of_isSealed {nodes : List (Node α)} (h : isSealed nodes) :
    (∀ node ∈ nodes, node.Built) ∧ Built nodes := by
  have hsequence {nodes : List (Node α)} (h : isSealed nodes) (hnodes : ∀ node ∈ nodes, node.Built) :
      Built nodes := by
    have happend := Built.append .empty hnodes
    rwa [append_of_isSealed [] h] at happend
  suffices hnodes : ∀ node ∈ nodes, node.Built from ⟨hnodes, hsequence h hnodes⟩
  induction nodes using isSealed.induct (motive_1 := fun node => node.isSealed → node.Built) with
  | case1 alternative ih hsealed =>
    rw [Node.isSealed] at hsealed
    exact .fork (hsequence hsealed (ih hsealed))
  | case2 node hfork hsealed =>
    cases node with
    | step s => exact .step s
    | deferred => exact .deferred
    | fork alternative => exact (hfork alternative rfl).elim
  | case3 => exact List.forall_mem_nil _
  | case4 node rest ih ihrest =>
    obtain ⟨-, hnode, hrest⟩ := isSealed_cons.1 h
    exact List.forall_mem_cons.2 ⟨ih hnode, ihrest hrest⟩

theorem Built.ofNodes {nodes : List (Node α)} (h : ∀ node ∈ nodes, node.Built) : (ofNodes nodes).Built :=
  Built.append .empty h

theorem built_step (description : String) (action : α) : (step description action).Built :=
  Built.ofNodes (List.forall_mem_singleton.2 (.step ⟨description, some action, false⟩))

theorem built_pending (description : String) : (pending description : Steps α).Built :=
  Built.ofNodes (List.forall_mem_singleton.2 (.step ⟨description, none, false⟩))

theorem Built.andThenDeferred {steps : Steps α} (h : steps.Built) : steps.andThenDeferred.Built :=
  .push h .deferred

/-- What is built can be declared after something else. -/
theorem Built.andThen {steps next : Steps α} (h : steps.Built) (hnext : next.Built) :
    (steps.andThen next).Built :=
  h.append (built_of_isSealed hnext.sealed).1

/-- Specifications can be built if they are sealed, and only then. -/
theorem built_iff_isSealed {steps : Steps α} : steps.Built ↔ isSealed steps :=
  ⟨Built.sealed, fun h => (built_of_isSealed h).2⟩

end Steps

end Storyline
