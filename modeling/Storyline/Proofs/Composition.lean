import Storyline.Proofs.Truncation
import Storyline.Proofs.Validation

/-! How specifications are put together. Whatever the builders are used for, and whatever is taken out of a
specification to be used again, a node that ends its sequence is the last one of it, at any depth. On such
specifications to declare one after the other is associative, and the empty one makes no difference. One that has
ended takes up nothing more. -/

namespace Storyline

variable {α : Type}

mutual

/-- A node at hand. An alternative is wrapped with its leading step marked, or by hand with none. -/
inductive Node.Reachable : Node α → Prop
  | step (s : Step α) : Node.Reachable (.step s)
  | deferred : Node.Reachable .deferred
  | fork {alternative : Steps α} (h : Steps.Reachable alternative) : Node.Reachable (.fork alternative)
  | forkOf {alternative : Steps α} (h : Steps.Reachable alternative) : Node.Reachable (.forkOf alternative)
  /-- A node can be taken out of its sequence. -/
  | member {steps : Steps α} {node : Node α} (h : Steps.Reachable steps) (hmem : node ∈ steps) :
      Node.Reachable node

/-- A specification that the builders lead to, each of them used any number of times on what is at hand. Where nodes
stand in for a specification they are declared by `ofNodes`. -/
inductive Steps.Reachable : Steps α → Prop
  | empty : Steps.Reachable []
  | ofNodes {nodes : List (Node α)} (h : ∀ node ∈ nodes, Node.Reachable node) :
      Steps.Reachable (Steps.ofNodes nodes)
  | push {steps : Steps α} {node : Node α} (h : Steps.Reachable steps) (hnode : Node.Reachable node) :
      Steps.Reachable (steps.push node)
  | andThen {steps next : Steps α} (h : Steps.Reachable steps) (hnext : Steps.Reachable next) :
      Steps.Reachable (steps.andThen next)
  | andThenDeferred {steps : Steps α} (h : Steps.Reachable steps) : Steps.Reachable steps.andThenDeferred
  | step (description : String) (action : α) : Steps.Reachable (Steps.step description action)
  | pending (description : String) : Steps.Reachable (Steps.pending description)
  | deferred : Steps.Reachable Steps.deferred
  | fork {alternatives : List (Steps α)} (h : ∀ steps ∈ alternatives, Steps.Reachable steps) :
      Steps.Reachable (Steps.fork alternatives)
  /-- An alternative can be taken out of its fork. -/
  | alternative {alternative : Steps α} (h : Node.Reachable (.fork alternative)) : Steps.Reachable alternative

end

namespace Steps

theorem isSealed_mem {steps : Steps α} (h : isSealed steps) : ∀ node ∈ steps, node.isSealed := by
  induction steps with
  | nil => exact List.forall_mem_nil _
  | cons node rest ih =>
    obtain ⟨-, hnode, hrest⟩ := isSealed_cons.1 h
    exact List.forall_mem_cons.2 ⟨hnode, ih hrest⟩

end Steps

mutual

theorem Node.Reachable.sealed : ∀ {node : Node α}, node.Reachable → node.isSealed
  | _, .step _ => rfl
  | _, .deferred => rfl
  | _, .fork h => by simpa [Node.isSealed] using h.sealed
  | _, .forkOf h => by simpa [Node.forkOf, Node.isSealed] using Steps.isSealed_markFork h.sealed
  | _, .member h hmem => Steps.isSealed_mem h.sealed _ hmem

theorem Steps.Reachable.sealed : ∀ {steps : Steps α}, Steps.Reachable steps → Steps.isSealed steps
  | _, .empty => rfl
  | _, .ofNodes h => Steps.isSealed_append rfl fun node hnode => (h node hnode).sealed
  | _, .push h hnode => Steps.isSealed_push h.sealed hnode.sealed
  | _, .andThen h hnext => Steps.isSealed_append h.sealed (Steps.isSealed_mem hnext.sealed)
  | _, .andThenDeferred h => Steps.isSealed_push h.sealed rfl
  | _, .step _ _ => rfl
  | _, .pending _ => rfl
  | _, .deferred => rfl
  | _, .fork h => Steps.isSealed_fork fun steps hsteps => (h steps hsteps).sealed
  | _, .alternative h => by simpa [Node.isSealed] using h.sealed

end

namespace Steps

/-- A specification is sealed if in each of its sequences only the last node may end it. -/
theorem isSealed_iff (nodes : List (Node α)) :
    isSealed nodes ↔
      ∀ sequence ∈ nodes :: alternatives nodes, ∀ node ∈ sequence.dropLast, ¬ node.terminates := by
  induction nodes using isSealed.induct (motive_1 := fun node => node.isSealed ↔
    ∀ sequence ∈ node.alternatives, ∀ node ∈ sequence.dropLast, ¬ node.terminates) with
  | case1 alternative ih => rw [Node.isSealed, Node.alternatives, ih]
  | case2 node h => cases node <;> simp_all [Node.isSealed, Node.alternatives]
  | case3 => simp [isSealed, alternatives]
  | case4 node rest ih ihrest =>
    have hlast : (∀ first ∈ (node :: rest).dropLast, ¬ first.terminates) ↔
        (node.terminates → rest = []) ∧ ∀ later ∈ rest.dropLast, ¬ later.terminates := by
      cases rest <;> simp
    simp only [isSealed_cons, ih, ihrest, alternatives, List.forall_mem_cons, List.forall_mem_append, hlast]
    constructor
    · rintro ⟨hnode, hwithin, hrest, hlater⟩
      exact ⟨⟨hnode, hrest⟩, hwithin, hlater⟩
    · rintro ⟨⟨hnode, hrest⟩, hwithin, hlater⟩
      exact ⟨hnode, hwithin, hrest, hlater⟩

theorem kept_of_isSealed {nodes : List (Node α)} (h : isSealed nodes) : kept nodes = nodes := by
  rw [← ofNodes_eq_kept]
  exact append_of_isSealed [] h

theorem andThen_of_isSealed (steps : Steps α) {next : Steps α} (h : isSealed next) :
    steps.andThen next = steps ++ if steps.isTerminated then [] else next := by
  rw [andThen]
  split
  · rename_i hsteps
    rw [append_of_isTerminated hsteps, List.append_nil]
  · rename_i hsteps
    rw [append_of_not_isTerminated hsteps, kept_of_isSealed h]

/-- What is dropped on one side is dropped on the other. -/
theorem andThen_assoc (a b c : Steps α) : (a.andThen b).andThen c = a.andThen (b.andThen c) := by
  have hflat : (a.andThen b).andThen c = append a (b ++ c) := (List.foldl_append ..).symm
  rw [hflat, andThen]
  by_cases ha : a.isTerminated
  · rw [append_of_isTerminated ha, append_of_isTerminated ha]
  · rw [append_of_not_isTerminated ha, append_of_not_isTerminated ha, andThen, kept_builders]

theorem ofNodes_append (nodes more : List (Node α)) :
    ofNodes (nodes ++ more) = (ofNodes nodes).andThen (ofNodes more) := by
  have hflat : ofNodes (nodes ++ more) = (ofNodes nodes).andThen more := List.foldl_append ..
  have hmore : ofNodes more = Steps.andThen [] more := rfl
  rw [hflat, hmore, ← andThen_assoc]
  rfl

theorem isTerminated_andThen {steps next : Steps α} (h : isSealed next) :
    (steps.andThen next).isTerminated ↔ steps.isTerminated ∨ next.isTerminated := by
  rw [andThen_of_isSealed steps h]
  by_cases hsteps : steps.isTerminated
  · simp [hsteps]
  · cases hnext : next.getLast? with
    | none => simp_all [isTerminated]
    | some node => simp_all [isTerminated]

/-- Specifications are a monoid under declaring one after the other, in which one that has ended absorbs whatever
comes after it. -/
theorem specifications_monoid :
    (∀ steps : Steps α, steps.Reachable →
      ∀ sequence ∈ steps :: alternatives steps, ∀ node ∈ sequence.dropLast, ¬ node.terminates) ∧
    (∀ a b c : Steps α, (a.andThen b).andThen c = a.andThen (b.andThen c)) ∧
    (∀ a : Steps α, a.Reachable → Steps.andThen [] a = a ∧ a.andThen [] = a) ∧
    (∀ nodes more : List (Node α), ofNodes (nodes ++ more) = (ofNodes nodes).andThen (ofNodes more)) ∧
    (∀ a b : Steps α, a.isTerminated → a.andThen b = a) ∧
    (∀ a b : Steps α, b.Reachable → ((a.andThen b).isTerminated ↔ a.isTerminated ∨ b.isTerminated)) := by
  refine ⟨fun steps h => (isSealed_iff steps).1 h.sealed, andThen_assoc, fun a h => ⟨?_, rfl⟩,
    ofNodes_append, fun a b h => append_of_isTerminated h b, fun a b h => isTerminated_andThen h.sealed⟩
  exact (ofNodes_eq_kept a).trans (kept_of_isSealed h.sealed)

end Steps

namespace Rehearsal

def opening : Steps Script := (Steps.step "a" []).andThen (Steps.fork [Steps.pending "b", Steps.step "c" []])

def closing : Steps Script := (Steps.fork [Steps.step "d" []]).andThenDeferred

theorem opening_closing :
    (opening.andThen closing).andThen opening = opening.andThen closing ∧
    opening.andThen (closing.andThen opening) = opening.andThen closing ∧
    (opening.andThen closing).isTerminated ∧ ¬ (Steps.andThen [] opening).isTerminated ∧
    ∀ sequence ∈ opening.andThen closing :: Steps.alternatives (opening.andThen closing),
      ∀ node ∈ sequence.dropLast, ¬ node.terminates := by
  have hopening : opening.Reachable := by
    refine .andThen (.step "a" []) (.fork ?_)
    simp [Steps.Reachable.pending, Steps.Reachable.step]
  have hclosing : closing.Reachable := by
    refine .andThenDeferred (.fork ?_)
    simp [Steps.Reachable.step]
  obtain ⟨hlast, hassoc, hempty, -, habsorbs, hends⟩ := Steps.specifications_monoid (α := Script)
  have hended : (opening.andThen closing).isTerminated := (hends opening closing hclosing).2 (.inr rfl)
  have habsorbed := habsorbs (opening.andThen closing) opening hended
  refine ⟨habsorbed, ?_, hended, ?_, hlast _ (.andThen hopening hclosing)⟩
  · rw [← hassoc, habsorbed]
  · rw [(hempty opening hopening).1]
    decide

end Rehearsal

end Storyline
