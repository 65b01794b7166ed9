import Storyline.Proofs.Composition

/-! Which steps are flagged. An alternative is marked when it is wrapped, and only its first node is looked at. Before
that no step at its top is flagged, however it was put together, so afterwards the leading step is the only one. What
a part is used for elsewhere makes no difference. On the paths those steps are flagged with which they enter an
alternative. -/

namespace Storyline

variable {α : Type}

/-- A specification that is composed of parts. A part can be used any number of times. -/
inductive Steps.Composed : Steps α → Prop
  | step (description : String) (action : α) : Steps.Composed (Steps.step description action)
  | pending (description : String) : Steps.Composed (Steps.pending description)
  | deferred : Steps.Composed Steps.deferred
  | andThen {steps next : Steps α} (h : Steps.Composed steps) (hnext : Steps.Composed next) :
      Steps.Composed (steps.andThen next)
  | andThenDeferred {steps : Steps α} (h : Steps.Composed steps) : Steps.Composed steps.andThenDeferred
  | fork {parts : List (Steps α)} (h : ∀ part ∈ parts, Steps.Composed part) : Steps.Composed (Steps.fork parts)

theorem Steps.Composed.reachable {steps : Steps α} (h : steps.Composed) : steps.Reachable := by
  induction h with
  | step description action => exact .step description action
  | pending description => exact .pending description
  | deferred => exact .deferred
  | andThen _ _ ih ihnext => exact .andThen ih ihnext
  | andThenDeferred _ ih => exact .andThenDeferred ih
  | fork _ ih => exact .fork ih

mutual

def Node.openings : Node α → List (List Bool)
  | .fork alternative => Steps.openings true alternative
  | _ => []

/-- For each path through a sequence, which of its steps open an alternative. The first step does if the sequence is
itself an alternative and leads with a step. -/
def Steps.openings (leads : Bool) : List (Node α) → List (List Bool)
  | [] => []
  | .deferred :: _ => [[]]
  | .fork alternative :: rest => (Node.fork alternative).openings ++ Steps.openings false rest
  | .step s :: rest =>
      if s.isPending || rest.isEmpty then [[leads]] else (Steps.openings false rest).map (leads :: ·)

end

def Steps.flags (nodes : List (Node α)) : List Bool := (Steps.steps nodes).map (·.isFork)

def Path.flags (path : Path α) : List Bool := path.steps.map (·.isFork)

namespace Steps

/-- In a sequence that leads a step is flagged if it is the first node, in any other sequence no step is. -/
def MarkedAs (leads : Bool) (sequence : List (Node α)) : Prop :=
  ∀ i s, sequence[i]? = some (.step s) → (s.isFork ↔ leads ∧ i = 0)

/-- The steps that lead an alternative are flagged, and no others. -/
structure Flagged (leads : Bool) (nodes : List (Node α)) : Prop where
  top : MarkedAs leads nodes
  within : ∀ alternative ∈ alternatives nodes, MarkedAs true alternative

variable {leads : Bool} {node : Node α} {rest : List (Node α)}

theorem markedAs_cons :
    MarkedAs leads (node :: rest) ↔ (∀ s, node = .step s → s.isFork = leads) ∧ MarkedAs false rest := by
  constructor
  · intro h
    refine ⟨fun s hs => ?_, fun i s hs => ?_⟩
    · have hfirst := h 0 s (by rw [hs]; rfl)
      exact Bool.eq_iff_iff.2 (by simpa using hfirst)
    · simpa using h (i + 1) s hs
  · rintro ⟨hfirst, hrest⟩ i s hs
    cases i with
    | zero => simp [hfirst s (by simpa using hs)]
    | succ i => simpa using hrest i s (by simpa using hs)

theorem flagged_cons :
    Flagged leads (node :: rest) ↔
      (∀ s, node = .step s → s.isFork = leads) ∧
        (∀ alternative, node = .fork alternative → Flagged true alternative) ∧ Flagged false rest := by
  have hwithin : (∀ alternative ∈ node.alternatives, MarkedAs true alternative) ↔
      ∀ alternative, node = .fork alternative → Flagged true alternative := by
    cases node with
    | step s => simp [Node.alternatives]
    | deferred => simp [Node.alternatives]
    | fork alternative =>
      simp only [Node.alternatives, List.forall_mem_cons, Node.fork.injEq, forall_eq']
      exact ⟨fun h => ⟨h.1, h.2⟩, fun h => ⟨h.top, h.within⟩⟩
  constructor
  · rintro ⟨htop, hall⟩
    rw [alternatives, List.forall_mem_append] at hall
    obtain ⟨hfirst, hrest⟩ := markedAs_cons.1 htop
    exact ⟨hfirst, hwithin.1 hall.1, hrest, hall.2⟩
  · rintro ⟨hfirst, hfork, hrest, hlater⟩
    refine ⟨markedAs_cons.2 ⟨hfirst, hrest⟩, ?_⟩
    rw [alternatives, List.forall_mem_append]
    exact ⟨hwithin.2 hfork, hlater⟩

theorem flagged_nil : Flagged leads ([] : List (Node α)) :=
  ⟨by simp [MarkedAs], List.forall_mem_nil _⟩

namespace Flagged

theorem append {nodes more : List (Node α)} (h : Flagged false nodes) (hmore : Flagged false more) :
    Flagged false (nodes ++ more) := by
  induction nodes with
  | nil => exact hmore
  | cons node rest ih =>
    obtain ⟨hfirst, hfork, hrest⟩ := flagged_cons.1 h
    exact flagged_cons.2 ⟨hfirst, hfork, ih hrest⟩

theorem andThen {steps next : Steps α} (h : Flagged false steps) (hnext : Flagged false next)
    (hsealed : isSealed next) : Flagged false (steps.andThen next) := by
  rw [andThen_of_isSealed steps hsealed]
  split
  · rwa [List.append_nil]
  · exact h.append hnext

/-- As nothing at the top of a part is flagged, its leading step is the only one after it is marked. -/
theorem markFork {part : Steps α} (h : Flagged false part) : Flagged true (markFork part) := by
  unfold Steps.markFork
  split
  · rename_i s rest
    obtain ⟨-, -, hrest⟩ := flagged_cons.1 h
    exact flagged_cons.2 ⟨by rintro _ ⟨⟩; rfl, nofun, hrest⟩
  · -- an alternative that leads with a fork or a marker is left as it is, and leads with no step
    rename_i hstep
    cases part with
    | nil => exact flagged_nil
    | cons node rest =>
      obtain ⟨-, hfork, hrest⟩ := flagged_cons.1 h
      exact flagged_cons.2 ⟨fun s hs => (hstep s rest (by rw [hs])).elim, hfork, hrest⟩

theorem fork {parts : List (Steps α)} (h : ∀ part ∈ parts, Flagged false part) : Flagged false (fork parts) := by
  have hforks (parts : List (Steps α)) (h : ∀ part ∈ parts, Flagged false part) :
      Flagged false (parts.map Node.forkOf) := by
    induction parts with
    | nil => exact flagged_nil
    | cons part parts ih =>
      obtain ⟨hpart, hrest⟩ := List.forall_mem_cons.1 h
      exact flagged_cons.2 ⟨nofun, by rintro _ ⟨⟩; exact hpart.markFork, ih hrest⟩
  unfold Steps.fork
  split
  · exact flagged_cons.2 ⟨nofun, by rintro _ ⟨⟩; exact flagged_nil, flagged_nil⟩
  · exact hforks _ h

end Flagged

theorem Composed.flagged {steps : Steps α} (h : steps.Composed) : Flagged false steps := by
  induction h with
  | step description action => exact flagged_cons.2 ⟨by rintro _ ⟨⟩; rfl, nofun, flagged_nil⟩
  | pending description => exact flagged_cons.2 ⟨by rintro _ ⟨⟩; rfl, nofun, flagged_nil⟩
  | deferred => exact flagged_cons.2 ⟨nofun, nofun, flagged_nil⟩
  | andThen _ hnext ih ihnext => exact ih.andThen ihnext hnext.reachable.sealed
  | andThenDeferred _ ih =>
    have hmarker : Flagged false [(.deferred : Node α)] := flagged_cons.2 ⟨nofun, nofun, flagged_nil⟩
    exact ih.andThen hmarker rfl
  | fork _ ih => exact Flagged.fork ih

/-- To wrap parts flags those that lead with a step, in front, and leaves all other flags as they are. -/
theorem flags_fork (parts : List (Steps α)) :
    flags (fork parts) = parts.flatMap fun part =>
      match part with
      | .step _ :: rest => true :: flags rest
      | _ => flags part := by
  have hforks (parts : List (Steps α)) :
      steps (parts.map Node.forkOf) = parts.flatMap fun part => steps (markFork part) := by
    induction parts with
    | nil => rfl
    | cons part parts ih => rw [List.map_cons, steps, Node.forkOf, Node.steps, ih, List.flatMap_cons]
  have hsteps : steps (fork parts) = parts.flatMap fun part => steps (markFork part) := by
    cases parts with
    | nil => rfl
    | cons part parts => exact hforks (part :: parts)
  rw [flags, hsteps, List.map_flatMap]
  congr 1
  funext part
  unfold markFork
  split <;> simp [flags, steps, Node.steps]

theorem routes_openings (nodes : List (Node α)) (h : Flagged leads nodes) :
    (routes nodes).map (fun route => (Path.mk route).flags) = openings leads nodes := by
  induction nodes using routes.induct
    (motive_1 := fun node => ∀ alternative, node = .fork alternative → Flagged true alternative →
      (routes alternative).map (fun route => (Path.mk route).flags) = openings true alternative)
    generalizing leads with
  | case1 alternative ih f hf h =>
    cases hf
    exact ih h
  | case2 node h f hf => exact (h f hf).elim
  | case3 => rfl
  | case4 rest => simp [routes, openings, Path.flags, Path.steps]
  | case5 alternative rest ihf ih =>
    -- whatever follows the fork is not the first node any more
    obtain ⟨-, hfork, hrest⟩ := flagged_cons.1 h
    rw [routes, Node.routes, List.map_append, ihf alternative rfl (hfork alternative rfl), ih hrest, openings,
      Node.openings]
  | case6 s rest hpending =>
    obtain ⟨hfirst, -, -⟩ := flagged_cons.1 h
    simp [routes, openings, hpending, Path.flags, Path.steps, List.filterMap_cons, hfirst s rfl]
  | case7 s rest hpending hrest =>
    obtain ⟨hfirst, -, -⟩ := flagged_cons.1 h
    simp [routes, openings, hpending, hrest, Path.flags, Path.steps, hfirst s rfl]
  | case8 s rest hpending hrest ih =>
    obtain ⟨hfirst, -, hlater⟩ := flagged_cons.1 h
    have hflags : (fun route => (Path.mk (Entry.step s :: route)).flags) =
        fun route => leads :: (Path.mk route).flags := by
      funext route
      simp [Path.flags, Path.steps, hfirst s rfl]
    simp only [routes, openings, hpending, hrest, Bool.false_eq_true, if_false, Bool.or_self, ← ih hlater,
      List.map_map, Function.comp_def, hflags]

/-- In a specification that is composed of parts the leading steps of alternatives are flagged, and no others. To
declare something after it leaves both as they are, and to wrap it flags its leading step at most. The paths carry
the flags: of the steps of a path those are flagged that open an alternative. -/
theorem openings_flagged {spec : Steps α} (h : spec.Composed) :
    (∀ s, .step s ∈ spec → ¬ s.isFork) ∧
    (∀ alternative ∈ alternatives spec, ∀ i s, alternative[i]? = some (.step s) → (s.isFork ↔ i = 0)) ∧
    (∀ next : Steps α, next.Composed → spec.andThen next = spec ++ if spec.isTerminated then [] else next) ∧
    (∀ parts : List (Steps α), flags (fork parts) = parts.flatMap fun part =>
      match part with
      | .step _ :: rest => true :: flags rest
      | _ => flags part) ∧
    (∀ path ∈ spec.paths, path.steps.Sublist (steps spec)) ∧
    spec.paths.map Path.flags = openings false spec := by
  obtain ⟨htop, hwithin⟩ := h.flagged
  refine ⟨fun s hs => ?_, fun alternative halternative i s hs => ?_,
    fun next hnext => andThen_of_isSealed spec hnext.reachable.sealed, flags_fork, ?_, ?_⟩
  · obtain ⟨i, hi⟩ := List.mem_iff_getElem?.1 hs
    simp [htop i s hi]
  · simpa using hwithin alternative halternative i s hs
  · rw [(paths_eq_routes spec).1]
    exact List.forall_mem_map.2 (routes_sublist spec)
  · rw [(paths_eq_routes spec).1, List.map_map, ← routes_openings spec h.flagged]
    rfl

end Steps

namespace Rehearsal

def shared : Steps Script := (Steps.step "x" []).andThen (Steps.fork [Steps.step "y" [], Steps.pending "z"])

/-- The part is gone on with, wrapped as it is, and wrapped after itself. -/
def reusing : Steps Script := shared.andThen (Steps.fork [shared, (Steps.fork [shared]).andThen shared])

theorem reusing_flagged :
    (∀ s, .step s ∈ reusing → ¬ s.isFork) ∧
    (∀ alternative ∈ Steps.alternatives reusing, ∀ i s, alternative[i]? = some (.step s) → (s.isFork ↔ i = 0)) ∧
    reusing.andThen shared = reusing ++ shared ∧
    reusing.paths.map Path.flags = [[false, true], [false, true], [false, true, true], [false, true, true],
      [false, true, true], [false, true, true], [false, false, true], [false, false, true]] := by
  have hshared : shared.Composed := by
    refine .andThen (.step "x" []) (.fork ?_)
    simp [Steps.Composed.step, Steps.Composed.pending]
  have hreusing : reusing.Composed := by
    refine .andThen hshared (.fork ?_)
    simp only [List.forall_mem_cons, List.not_mem_nil, false_imp_iff, implies_true, and_true]
    exact ⟨hshared, .andThen (.fork (List.forall_mem_singleton.2 hshared)) hshared⟩
  obtain ⟨htop, hwithin, hcontinued, -, -, hpaths⟩ := Steps.openings_flagged hreusing
  exact ⟨htop, hwithin, hcontinued shared hshared, hpaths.trans rfl⟩

end Rehearsal

end Storyline
