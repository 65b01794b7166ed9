import Storyline.Proofs.Enumeration
import Storyline.Suite

/-! The outline of a specification: every declared step once, in declaration order, with the steps that lead
to it. The paths run through it again and again, since each of them starts from the beginning. If no two
steps that can come next have one description, then the steps that are new on each path, one path after
another, are the outline. -/

namespace Storyline

variable {α β κ κ' : Type}

/-- A step with the steps that lead to it. -/
structure Stop (α : Type) where
  before : List (Step α)
  step : Step α

def Stop.chain (stop : Stop α) : List String :=
  stop.before.map (·.description) ++ [stop.step.description]

def stops (before : List (Step α)) : List (Step α) → List (Stop α)
  | [] => []
  | s :: rest => ⟨before, s⟩ :: stops (before ++ [s]) rest

theorem mem_stops {before steps : List (Step α)} {stop : Stop α} :
    stop ∈ stops before steps ↔
      ∃ taken, stop.before = before ++ taken ∧ taken ++ [stop.step] <+: steps := by
  induction steps generalizing before with
  | nil => simp [stops]
  | cons s rest ih =>
    rw [stops, List.mem_cons, ih]
    constructor
    · rintro (rfl | ⟨taken, hbefore, hprefix⟩)
      · exact ⟨[], by simp, by simp⟩
      · exact ⟨s :: taken, by simp [hbefore], by simpa using hprefix⟩
    · rintro ⟨taken, hbefore, hprefix⟩
      cases taken with
      | nil =>
        obtain ⟨hstep, -⟩ := List.cons_prefix_cons.1 hprefix
        left
        cases stop
        simp_all
      | cons s' taken =>
        obtain ⟨rfl, hrest⟩ := List.cons_prefix_cons.1 hprefix
        exact .inr ⟨taken, by simp [hbefore], hrest⟩

mutual

def Node.outline (before : List (Step α)) : Node α → List (Stop α)
  | .fork alternative => Steps.outline before alternative
  | _ => []

/-- The declared steps in declaration order, for a sequence that is reached after the steps `before`. -/
def Steps.outline (before : List (Step α)) : List (Node α) → List (Stop α)
  | [] => []
  | .deferred :: rest => Steps.outline before rest
  | .fork alternative :: rest => (Node.fork alternative).outline before ++ Steps.outline before rest
  | .step s :: rest => ⟨before, s⟩ :: Steps.outline (before ++ [s]) rest

end

mutual

def Node.next : Node α → List (Step α)
  | .fork alternative => Steps.next alternative
  | _ => []

/-- The steps that can come next where a sequence begins. -/
def Steps.next : List (Node α) → List (Step α)
  | [] => []
  | .deferred :: _ => []
  | .fork alternative :: rest => (Node.fork alternative).next ++ Steps.next rest
  | .step s :: _ => [s]

end

mutual

def Node.choices : Node α → List (List (Step α))
  | .fork alternative => Steps.choices alternative
  | _ => []

/-- For every step of a sequence, at any depth, the steps that can come next after it. -/
def Steps.choices : List (Node α) → List (List (Step α))
  | [] => []
  | .deferred :: rest => Steps.choices rest
  | .fork alternative :: rest => (Node.fork alternative).choices ++ Steps.choices rest
  | .step _ :: rest => Steps.next rest :: Steps.choices rest

end

mutual

def Node.isSealed : Node α → Bool
  | .fork alternative => Steps.isSealed alternative
  | _ => true

/-- Nothing is declared after a node that ends its sequence, at any depth. -/
def Steps.isSealed : List (Node α) → Bool
  | [] => true
  | node :: rest => (!node.terminates || rest.isEmpty) && node.isSealed && Steps.isSealed rest

end

namespace Steps

/-- Steps that can come next at one place of a specification have descriptions of their own. -/
def Apart (steps : Steps α) : Prop :=
  ∀ choice ∈ next steps :: choices steps, (choice.map (·.description)).Nodup

instance (steps : Steps α) : Decidable steps.Apart :=
  inferInstanceAs (Decidable (∀ choice ∈ next steps :: choices steps, (choice.map (·.description)).Nodup))

theorem isSealed_cons {node : Node α} {rest : List (Node α)} :
    isSealed (node :: rest) ↔ (node.terminates → rest = []) ∧ node.isSealed ∧ isSealed rest := by
  cases hnode : node.terminates <;> simp [isSealed, hnode, and_assoc]

theorem isSealed_push {steps : Steps α} {node : Node α} (h : isSealed steps) (hnode : node.isSealed) :
    isSealed (push steps node) := by
  unfold push
  split
  · exact h
  · rename_i hopen
    induction steps with
    | nil => exact isSealed_cons.2 ⟨fun _ => rfl, hnode, rfl⟩
    | cons first rest ih =>
      obtain ⟨hlast, hfirst, hrest⟩ := isSealed_cons.1 h
      refine isSealed_cons.2 ⟨fun hterminates => ?_, hfirst, ?_⟩
      · obtain rfl := hlast hterminates
        exact absurd (by simpa [isTerminated] using hterminates) hopen
      · cases rest with
        | nil => exact isSealed_cons.2 ⟨fun _ => rfl, hnode, rfl⟩
        | cons second rest => exact ih hrest (by simpa [isTerminated] using hopen)

theorem isSealed_append {steps : Steps α} {nodes : List (Node α)} (h : isSealed steps)
    (hnodes : ∀ node ∈ nodes, node.isSealed) : isSealed (append steps nodes) := by
  induction nodes generalizing steps with
  | nil => exact h
  | cons node nodes ih =>
    obtain ⟨hnode, hrest⟩ := List.forall_mem_cons.1 hnodes
    exact ih (isSealed_push h hnode) hrest

theorem isSealed_markFork {steps : Steps α} (h : isSealed steps) : isSealed (markFork steps) := by
  unfold markFork
  split
  · rename_i s rest
    obtain ⟨hlast, -, hrest⟩ := isSealed_cons.1 h
    exact isSealed_cons.2 ⟨hlast, rfl, hrest⟩
  · exact h

theorem isSealed_fork {alternatives : List (Steps α)} (h : ∀ steps ∈ alternatives, isSealed steps) :
    isSealed (fork alternatives) := by
  have hforks (alternatives : List (Steps α)) (h : ∀ steps ∈ alternatives, isSealed steps) :
      isSealed (alternatives.map Node.forkOf) := by
    induction alternatives with
    | nil => rfl
    | cons steps alternatives ih =>
      obtain ⟨hsteps, hrest⟩ := List.forall_mem_cons.1 h
      exact isSealed_cons.2 ⟨nofun, isSealed_markFork hsteps, ih hrest⟩
  unfold fork
  split
  · rfl
  · exact hforks _ h

theorem outline_steps (nodes : List (Node α)) (before : List (Step α)) :
    (outline before nodes).map (·.step) = steps nodes := by
  induction before, nodes using outline.induct
    (motive_1 := fun before node => ∀ alternative, node = .fork alternative →
      (node.outline before).map Stop.step = steps alternative) with
  | case1 before alternative ih f hf =>
    cases hf
    simpa [Node.outline] using ih
  | case2 before node h f hf => exact (h f hf).elim
  | case3 before => simp [outline, steps]
  | case4 before rest ih => simp [outline, steps, Node.steps, ih]
  | case5 before alternative rest ihf ih => simp [outline, steps, Node.steps, ihf, ih]
  | case6 before s rest ih => simp [outline, steps, Node.steps, ih]

theorem stops_outline (nodes : List (Node α)) (before : List (Step α)) :
    ∀ route ∈ routes nodes, stops before (route.filterMap Entry.step?) ⊆ outline before nodes := by
  induction nodes using routes.induct
    (motive_1 := fun node => ∀ (before : List (Step α)), ∀ route ∈ node.routes,
      stops before (route.filterMap Entry.step?) ⊆ node.outline before) generalizing before with
  | case1 alternative ih before route hroute =>
    rw [Node.outline]
    exact ih before route (by simpa [Node.routes] using hroute)
  | case2 node h => cases node <;> simp_all [Node.routes]
  | case3 => simp [routes]
  | case4 rest => simp [routes, stops, List.filterMap_cons]
  | case5 alternative rest ihf ih =>
    intro route hroute
    rw [outline]
    rcases List.mem_append.1 (by simpa [routes] using hroute) with h | h
    · exact List.Subset.trans (ihf before route h) (List.subset_append_left _ _)
    · exact List.Subset.trans (ih before route h) (List.subset_append_right _ _)
  | case6 s rest h => simp [routes, h, outline, stops, List.filterMap_cons]
  | case7 s rest h hrest => simp [routes, h, hrest, outline, stops]
  | case8 s rest h hrest ih =>
    intro route hroute
    simp only [routes, h, hrest] at hroute
    obtain ⟨tail, htail, rfl⟩ := List.mem_map.1 hroute
    rw [outline, List.filterMap_cons, Entry.step?_step, stops]
    exact List.cons_subset_cons _ (ih _ tail htail)

/-- What is reached from some place on is reached through a step that can come next there. -/
theorem outline_next (nodes : List (Node α)) (before : List (Step α)) (hsealed : isSealed nodes) :
    ∀ stop ∈ outline before nodes, ∃ s ∈ next nodes,
      before.map (·.description) ++ [s.description] <+: stop.chain := by
  induction before, nodes using outline.induct
    (motive_1 := fun before node => node.isSealed → ∀ stop ∈ node.outline before, ∃ s ∈ node.next,
      before.map Step.description ++ [s.description] <+: stop.chain) with
  | case1 before alternative ih hsealed stop hstop =>
    rw [Node.isSealed] at hsealed
    rw [Node.outline] at hstop
    rw [Node.next]
    exact ih hsealed stop hstop
  | case2 before node h => cases node <;> simp_all [Node.outline]
  | case3 before => simp [outline]
  | case4 before rest ih =>
    obtain rfl := (isSealed_cons.1 hsealed).1 rfl
    simp [outline]
  | case5 before alternative rest ihf ih =>
    obtain ⟨-, hfork, hrest⟩ := isSealed_cons.1 hsealed
    intro stop hstop
    rw [outline, List.mem_append] at hstop
    rw [next]
    rcases hstop with hstop | hstop
    · obtain ⟨s, hs, hchain⟩ := ihf hfork stop hstop
      exact ⟨s, List.mem_append_left _ hs, hchain⟩
    · obtain ⟨s, hs, hchain⟩ := ih hrest stop hstop
      exact ⟨s, List.mem_append_right _ hs, hchain⟩
  | case6 before s rest ih =>
    intro stop hstop
    refine ⟨s, by simp [next], ?_⟩
    rw [outline, List.mem_cons] at hstop
    rcases hstop with rfl | hstop
    · exact List.prefix_refl _
    · obtain ⟨s', -, hchain⟩ := ih (isSealed_cons.1 hsealed).2.2 stop hstop
      rw [List.map_append, List.map_singleton] at hchain
      exact (List.prefix_append _ _).trans hchain

theorem routes_ne_nil (nodes : List (Node α)) (hnodes : nodes ≠ []) (hforks : ¬ hasEmptyFork nodes) :
    routes nodes ≠ [] := by
  induction nodes using routes.induct
    (motive_1 := fun node => ∀ alternative, node = .fork alternative → ¬ node.hasEmptyFork → node.routes ≠ [])
    with
  | case1 alternative ih f hf hnone =>
    simp only [Node.hasEmptyFork, Bool.or_eq_true, List.isEmpty_iff, not_or] at hnone
    simpa [Node.routes] using ih hnone.1 hnone.2
  | case2 node h f hf => exact (h f hf).elim
  | case3 => exact absurd rfl hnodes
  | case4 rest => simp [routes]
  | case5 alternative rest ihf ih =>
    simp only [hasEmptyFork, Bool.or_eq_true, not_or] at hforks
    simp [routes, ihf alternative rfl hforks.1]
  | case6 s rest h => simp [routes, h]
  | case7 s rest h hrest => simp [routes, h, hrest]
  | case8 s rest h hrest ih =>
    simp only [hasEmptyFork, Bool.or_eq_true, not_or] at hforks
    simpa [routes, h, hrest] using ih (by simpa using hrest) hforks.2

end Steps

/-- The elements whose keys have not come up before, where some keys are known from the start. -/
def firsts [DecidableEq κ] (key : β → κ) : List κ → List β → List β
  | _, [] => []
  | known, x :: xs => (if key x ∈ known then [] else [x]) ++ firsts key (key x :: known) xs

section Firsts

variable [DecidableEq κ] [DecidableEq κ'] {key : β → κ}

theorem firsts_append (known : List κ) (xs ys : List β) :
    firsts key known (xs ++ ys) = firsts key known xs ++ firsts key ((xs.map key).reverse ++ known) ys := by
  induction xs generalizing known with
  | nil => rfl
  | cons x xs ih => simp [firsts, ih]

theorem firsts_subset (known : List κ) (xs : List β) : firsts key known xs ⊆ xs := by
  induction xs generalizing known with
  | nil => exact List.Subset.refl _
  | cons x xs ih =>
    rw [firsts]
    split
    · exact List.subset_cons_of_subset _ (ih _)
    · exact List.cons_subset_cons _ (ih _)

theorem firsts_congr {key' : β → κ'} {known : List κ} {known' : List κ'} {xs : List β}
    (hknown : ∀ x ∈ xs, key x ∈ known ↔ key' x ∈ known')
    (hkey : ∀ x ∈ xs, ∀ y ∈ xs, key x = key y ↔ key' x = key' y) :
    firsts key known xs = firsts key' known' xs := by
  induction xs generalizing known known' with
  | nil => rfl
  | cons x xs ih =>
    have hrest : firsts key (key x :: known) xs = firsts key' (key' x :: known') xs := by
      refine ih (fun y hy => ?_)
        fun y hy z hz => hkey y (List.mem_cons_of_mem x hy) z (List.mem_cons_of_mem x hz)
      rw [List.mem_cons, List.mem_cons, hknown y (List.mem_cons_of_mem x hy),
        hkey y (List.mem_cons_of_mem x hy) x List.mem_cons_self]
    rw [firsts, firsts, hrest]
    simp only [hknown x List.mem_cons_self]

theorem firsts_known {k : κ} {known : List κ} (hk : k ∈ known) (xs : List β) :
    firsts key (k :: known) xs = firsts key known xs := by
  refine firsts_congr (fun x _ => ?_) fun _ _ _ _ => Iff.rfl
  rw [List.mem_cons, or_iff_right_of_imp]
  rintro rfl
  exact hk

theorem firsts_map {γ : Type} (g : γ → β) (known : List κ) (xs : List γ) :
    firsts key known (xs.map g) = (firsts (key ∘ g) known xs).map g := by
  induction xs generalizing known with
  | nil => rfl
  | cons x xs ih =>
    simp only [List.map_cons, firsts, ih, List.map_append, Function.comp_apply]
    split <;> rfl

/-- What comes first in many lists is new in the first of them. -/
theorem firsts_flatMap_cons {γ : Type} {known : List κ} {x : β} (hx : key x ∉ known) (f : γ → List β)
    {rs : List γ} (hrs : rs ≠ []) :
    firsts key known (rs.flatMap fun r => x :: f r) = x :: firsts key (key x :: known) (rs.flatMap f) := by
  have hlater (rs : List γ) (known : List κ) (hx : key x ∈ known) :
      firsts key known (rs.flatMap fun r => x :: f r) = firsts key known (rs.flatMap f) := by
    induction rs generalizing known with
    | nil => rfl
    | cons r rs ih =>
      rw [List.flatMap_cons, List.flatMap_cons, List.cons_append, firsts, if_pos hx, List.nil_append,
        firsts_known hx, firsts_append, firsts_append, ih _ (List.mem_append_right _ hx)]
  obtain ⟨r, rs, rfl⟩ := List.exists_cons_of_ne_nil hrs
  rw [List.flatMap_cons, List.flatMap_cons, List.cons_append, firsts, if_neg hx, List.singleton_append,
    firsts_append, firsts_append, hlater _ _ (by simp)]

end Firsts

namespace Steps

theorem Apart.of_fork {alternative rest : List (Node α)} (h : Apart (.fork alternative :: rest)) :
    Apart alternative ∧ Apart rest ∧
      ∀ s ∈ next alternative, ∀ s' ∈ next rest, s.description ≠ s'.description := by
  obtain ⟨hnext, hchoices⟩ := List.forall_mem_cons.1 h
  rw [next, Node.next, List.map_append, List.nodup_append] at hnext
  rw [choices, Node.choices, List.forall_mem_append] at hchoices
  refine ⟨List.forall_mem_cons.2 ⟨hnext.1, hchoices.1⟩, List.forall_mem_cons.2 ⟨hnext.2.1, hchoices.2⟩, ?_⟩
  exact fun s hs s' hs' => hnext.2.2 _ (List.mem_map_of_mem hs) _ (List.mem_map_of_mem hs')

theorem Apart.of_step {s : Step α} {rest : List (Node α)} (h : Apart (.step s :: rest)) : Apart rest :=
  (List.forall_mem_cons.1 h).2

def routeStops (before : List (Step α)) (nodes : List (Node α)) : List (Stop α) :=
  (routes nodes).flatMap fun route => stops before (route.filterMap Entry.step?)

theorem routeStops_subset (before : List (Step α)) (nodes : List (Node α)) :
    routeStops before nodes ⊆ outline before nodes := by
  intro stop hstop
  obtain ⟨route, hroute, hstop⟩ := List.mem_flatMap.1 hstop
  exact stops_outline nodes before route hroute hstop

/-- What comes after a fork is not reached the way anything within it is. -/
theorem outline_disjoint {alternative rest : List (Node α)} {before : List (Step α)}
    (hfork : isSealed alternative) (hrest : isSealed rest)
    (hnext : ∀ s ∈ next alternative, ∀ s' ∈ next rest, s.description ≠ s'.description) :
    ∀ stop ∈ outline before alternative, ∀ stop' ∈ outline before rest, stop.chain ≠ stop'.chain := by
  intro stop hstop stop' hstop' hchain
  obtain ⟨s, hs, hprefix⟩ := outline_next alternative before hfork stop hstop
  obtain ⟨s', hs', hprefix'⟩ := outline_next rest before hrest stop' hstop'
  rw [hchain] at hprefix
  have heq := (List.prefix_of_prefix_length_le hprefix hprefix' (by simp)).eq_of_length (by simp)
  exact hnext s hs s' hs' (List.singleton_inj.1 (List.append_cancel_left heq))

/-- The stops that are new on each route, one route after another, are the outline. -/
theorem firsts_routeStops (nodes : List (Node α)) (before : List (Step α)) (known : List (List String))
    (hsealed : isSealed nodes) (hforks : ¬ hasEmptyFork nodes) (hapart : Apart nodes)
    (hknown : ∀ stop ∈ outline before nodes, stop.chain ∉ known) :
    firsts Stop.chain known (routeStops before nodes) = outline before nodes := by
  induction nodes using routes.induct
    (motive_1 := fun node => ∀ alternative, node = .fork alternative → ∀ before known,
      isSealed alternative → ¬ hasEmptyFork alternative → Apart alternative →
      (∀ stop ∈ outline before alternative, stop.chain ∉ known) →
      firsts Stop.chain known (routeStops before alternative) = outline before alternative)
    generalizing before known with
  | case1 alternative ih f hf before known hsealed hforks hapart hknown =>
    cases hf
    exact ih before known hsealed hforks hapart hknown
  | case2 node h f hf => exact (h f hf).elim
  | case3 => rfl
  | case4 rest =>
    obtain rfl := (isSealed_cons.1 hsealed).1 rfl
    rfl
  | case5 alternative rest ihf ih =>
    obtain ⟨-, hfork, hrest⟩ := isSealed_cons.1 hsealed
    rw [Node.isSealed] at hfork
    simp only [hasEmptyFork, Node.hasEmptyFork, Bool.or_eq_true, not_or] at hforks
    obtain ⟨hapartFork, hapartRest, hnext⟩ := hapart.of_fork
    simp only [outline, Node.outline, List.mem_append, or_imp, forall_and] at hknown
    have hsplit : routeStops before (.fork alternative :: rest) =
        routeStops before alternative ++ routeStops before rest := by
      simp [routeStops, routes, Node.routes]
    rw [hsplit, firsts_append, ihf alternative rfl before known hfork hforks.1.2 hapartFork hknown.1,
      ih before _ hrest hforks.2 hapartRest, outline, Node.outline]
    intro stop hstop hmem
    rcases List.mem_append.1 hmem with hmem | hmem
    · obtain ⟨stop', hstop', hchain⟩ := List.mem_map.1 (List.mem_reverse.1 hmem)
      exact outline_disjoint hfork hrest hnext stop' (routeStops_subset _ _ hstop') stop hstop hchain
    · exact hknown.2 stop hstop hmem
  | case6 s rest h =>
    obtain rfl := (isSealed_cons.1 hsealed).1 h
    have hnew := hknown ⟨before, s⟩ (by simp [outline])
    simp [routeStops, routes, h, outline, stops, firsts, hnew, List.filterMap_cons]
  | case7 s rest h hrest =>
    obtain rfl := List.isEmpty_iff.1 hrest
    have hnew := hknown ⟨before, s⟩ (by simp [outline])
    simp [routeStops, routes, h, outline, stops, firsts, hnew]
  | case8 s rest h hrest ih =>
    simp only [hasEmptyFork, Node.hasEmptyFork, Bool.false_or] at hforks
    have hroutes : routes rest ≠ [] := routes_ne_nil rest (by simpa using hrest) hforks
    have hsplit : routeStops before (.step s :: rest) = (routes rest).flatMap fun route =>
        ⟨before, s⟩ :: stops (before ++ [s]) (route.filterMap Entry.step?) := by
      simp [routeStops, routes, h, hrest, List.flatMap_map, stops]
    simp only [outline, List.mem_cons, forall_eq_or_imp] at hknown
    rw [hsplit, firsts_flatMap_cons hknown.1 _ hroutes, outline]
    congr 1
    refine ih (before ++ [s]) _ (isSealed_cons.1 hsealed).2.2 hforks hapart.of_step fun stop hstop hmem => ?_
    rcases List.mem_cons.1 hmem with hchain | hmem
    · -- the chain of a later stop is longer
      obtain ⟨s', -, hprefix⟩ := outline_next rest (before ++ [s]) (isSealed_cons.1 hsealed).2.2 stop hstop
      have hlength := hprefix.length_le
      rw [hchain] at hlength
      simp [Stop.chain] at hlength
    · exact hknown.2 stop hstop hmem

end Steps

end Storyline
