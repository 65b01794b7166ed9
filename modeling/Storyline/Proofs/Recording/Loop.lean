import Storyline.Proofs.Recording.Trace

/-! Loops of a run that end with the first error. What each turn preserves, the whole loop preserves,
also with the turns done so far in view. -/

namespace Storyline

variable {ε σ β γ : Type}

theorem bind_apply (m : ExceptT ε (StateM σ) β) (k : β → ExceptT ε (StateM σ) γ) (s : σ) :
    (m >>= k) s = match m s with
      | (.ok x, s) => k x s
      | (.error e, s) => (.error e, s) := by
  change (ExceptT.bindCont k (m s).1) (m s).2 = _
  rcases m s with ⟨_ | _, _⟩ <;> rfl

theorem bind_eq_ok {m : ExceptT ε (StateM σ) β} {k : β → ExceptT ε (StateM σ) γ} {s s' : σ} {y : γ}
    (h : (m >>= k) s = (.ok y, s')) : ∃ x s₁, m s = (.ok x, s₁) ∧ k x s₁ = (.ok y, s') := by
  rw [bind_apply] at h
  rcases hm : m s with ⟨_ | x, s₁⟩ <;> rw [hm] at h
  · cases h
  · exact ⟨x, s₁, rfl, h⟩

theorem bind_modify (m : ExceptT ε (StateM σ) β) (f : σ → σ) (s : σ) :
    (m >>= fun _ => modify f) s = match m s with
      | (.ok _, s) => (.ok (), f s)
      | (.error e, s) => (.error e, s) := by
  rw [bind_apply]
  rcases m s with ⟨_ | _, _⟩ <;> rfl

theorem bind_modify_result (m : ExceptT ε (StateM σ) Unit) (f : σ → σ) (s : σ) :
    ((m >>= fun _ => modify f) s).1 = (m s).1 := by
  rw [bind_modify]
  rcases m s with ⟨_ | _, _⟩ <;> rfl

theorem forM_cons (f : β → ExceptT ε (StateM σ) Unit) (x : β) (xs : List β) (s : σ) :
    ((x :: xs).forM f) s = match f x s with
      | (.ok _, s) => (xs.forM f) s
      | (.error e, s) => (.error e, s) := by
  rw [List.forM_eq_forM, List.forM_cons, bind_apply]
  rcases f x s with ⟨_ | _, _⟩ <;> rfl

/-- What a last change preserves holds after it as well as after the error that makes it fail to come. -/
theorem modify_preserves (m : ExceptT ε (StateM σ) β) (f : σ → σ) (P : σ → Prop) (hf : ∀ s, P s → P (f s))
    {s : σ} (h : P (m s).2) : P ((m >>= fun _ => modify f) s).2 := by
  rw [bind_modify]
  rcases hm : m s with ⟨_ | _, s'⟩ <;> rw [hm] at h
  · exact h
  · exact hf s' h

/-- An invariant may speak of the turns done so far, and holds as well where an error ends the loop. -/
theorem forM_reached (f : β → ExceptT ε (StateM σ) Unit) (P : List (β × σ) → σ → Prop)
    (step : ∀ done x s, P done s → P (done ++ [(x, s)]) (f x s).2) (xs : List β) (s : σ) (done : List (β × σ))
    (h : P done s) : P (done ++ reached f xs s) ((xs.forM f) s).2 := by
  induction xs generalizing s done with
  | nil =>
    rw [reached, List.append_nil]
    exact h
  | cons x xs ih =>
    have hx := step done x s h
    rw [forM_cons, reached]
    rcases hf : f x s with ⟨_ | _, s'⟩ <;> rw [hf] at hx
    · exact hx
    · simpa using ih s' _ hx

/-- What only turns without an error preserve holds where the loop ends without one. -/
theorem forM_ok (f : β → ExceptT ε (StateM σ) Unit) (P : σ → Prop)
    (step : ∀ x s s', P s → f x s = (.ok (), s') → P s') (xs : List β) {s s' : σ} (h : P s)
    (hok : (xs.forM f) s = (.ok (), s')) : P s' := by
  induction xs generalizing s with
  | nil =>
    cases hok
    exact h
  | cons x xs ih =>
    rw [forM_cons] at hok
    rcases hf : f x s with ⟨_ | _, s₁⟩ <;> rw [hf] at hok
    · cases hok
    · exact ih (step x s s₁ h hf) hok

theorem reached_initial (f : β → ExceptT ε (StateM σ) Unit) (xs : List β) (s : σ) :
    (reached f xs s).map (·.1) <+: xs := by
  induction xs generalizing s with
  | nil => exact List.prefix_refl _
  | cons x xs ih =>
    rw [reached, List.map_cons]
    refine (List.prefix_cons_inj x).2 ?_
    rcases f x s with ⟨_ | _, s'⟩
    · exact List.nil_prefix
    · exact ih s'

theorem mem_of_reached {f : β → ExceptT ε (StateM σ) Unit} {xs : List β} {s : σ} {x : β × σ}
    (h : x ∈ reached f xs s) : x.1 ∈ xs :=
  (reached_initial f xs s).subset (List.mem_map_of_mem h)

/-- What the turns of a loop preserve holds at each of them, and after the loop. -/
theorem forM_invariant (f : β → ExceptT ε (StateM σ) Unit) (P : σ → Prop) (xs : List β) {s : σ}
    (step : ∀ x ∈ xs, ∀ s, P s → P (f x s).2) (h : P s) :
    P ((xs.forM f) s).2 ∧ ∀ turn ∈ reached f xs s, P turn.2 := by
  induction xs generalizing s with
  | nil => exact ⟨h, fun turn hturn => nomatch hturn⟩
  | cons x xs ih =>
    obtain ⟨hx, hxs⟩ := List.forall_mem_cons.1 step
    have hafter := hx s h
    rw [forM_cons, reached, List.forall_mem_cons]
    rcases hf : f x s with ⟨_ | _, s'⟩ <;> rw [hf] at hafter
    · exact ⟨hafter, h, fun turn hturn => nomatch hturn⟩
    · obtain ⟨hlast, hturns⟩ := ih hxs hafter
      exact ⟨hlast, h, hturns⟩

theorem forM_error_iff (f : β → ExceptT ε (StateM σ) Unit) (xs : List β) (s : σ) (e : ε) :
    ((xs.forM f) s).1 = .error e ↔ ∃ turn ∈ reached f xs s, (f turn.1 turn.2).1 = .error e := by
  induction xs generalizing s with
  | nil =>
    constructor
    · intro h
      cases h
    · rintro ⟨turn, hturn, -⟩
      cases hturn
  | cons x xs ih =>
    rw [forM_cons, reached, List.exists_mem_cons_iff]
    rcases hf : f x s with ⟨_ | _, s'⟩
    · simp
    · simp [← ih]

theorem reached_all (f : β → ExceptT ε (StateM σ) Unit) (xs : List β) (s : σ)
    (h : ((xs.forM f) s).1 = .ok ()) : (reached f xs s).map (·.1) = xs := by
  induction xs generalizing s with
  | nil => rfl
  | cons x xs ih =>
    rw [forM_cons] at h
    rw [reached, List.map_cons]
    rcases hf : f x s with ⟨_ | _, s'⟩ <;> rw [hf] at h
    · cases h
    · exact congrArg (x :: ·) (ih s' h)

/-- What all turns of a loop come to, if what each of them comes to depends on its element alone. -/
theorem flatMap_reached (f : β → ExceptT ε (StateM σ) Unit) {g : β × σ → List γ} {g' : β → List γ}
    {xs : List β} {s : σ} (h : ((xs.forM f) s).1 = .ok ())
    (hg : ∀ turn ∈ reached f xs s, (f turn.1 turn.2).1 = .ok () → g turn = g' turn.1) :
    (reached f xs s).flatMap g = xs.flatMap g' := by
  have hturns : ∀ turn ∈ reached f xs s, g turn = g' turn.1 := by
    intro turn hturn
    refine hg turn hturn ?_
    cases hresult : (f turn.1 turn.2).1 with
    | error e =>
      rw [(forM_error_iff f xs s e).2 ⟨turn, hturn, hresult⟩] at h
      cases h
    | ok _ => rfl
  rw [List.flatMap_congr hturns]
  conv_rhs => rw [← reached_all f xs s h, List.flatMap_map]

theorem filterMap_reached (f : β → ExceptT ε (StateM σ) Unit) {g : β × σ → Option γ} {g' : β → Option γ}
    {xs : List β} {s : σ} (h : ((xs.forM f) s).1 = .ok ())
    (hg : ∀ turn ∈ reached f xs s, (f turn.1 turn.2).1 = .ok () → g turn = g' turn.1) :
    (reached f xs s).filterMap g = xs.filterMap g' := by
  rw [List.filterMap_eq_flatMap_toList, List.filterMap_eq_flatMap_toList]
  exact flatMap_reached f h fun turn hturn hok => congrArg Option.toList (hg turn hturn hok)

end Storyline
