import Storyline.Proofs.Recording.Path

/-! Two plays of one path, perhaps with drivers of two kinds. If every call answers the same on scenes that
are alike, and leaves them alike, then so does the whole path, whatever else is different about the scenes. -/

namespace Storyline

variable {α δ δ' ω ω' β ε : Type}

/-- Two calls give the same answer and keep their scenes alike. -/
def SameAnswer (R : Scene δ' ω' → Scene δ ω → Prop) (s' : Scene δ' ω') (s : Scene δ ω)
    (r' : Reply (δ' × ω') ε β) (r : Reply (δ × ω) ε β) : Prop :=
  r'.result = r.result ∧ R (s'.after r') (s.after r)

/-- Two kinds of drivers that cannot be told apart by the answers to their calls on scenes that are alike.
Of the hooks and actions only `acts` matter. -/
structure Backend.Likens (b' : Backend α δ' ω') (b : Backend α δ ω) (R : Scene δ' ω' → Scene δ ω → Prop)
    (acts : α → Prop) : Prop where
  record : ∀ (f : Recorder → Recorder) {s' s}, R s' s → R (s'.record f) (s.record f)
  wait : ∀ {s' s}, R s' s → SameAnswer R s' s (s'.ask b'.wait) (s.ask b.wait)
  scribingOn : ∀ {s' s}, R s' s →
    SameAnswer R s' s (s'.ask (b'.scribingOn s'.desk.scribe)) (s.ask (b.scribingOn s.desk.scribe))
  scribingOff : ∀ {s' s}, R s' s → SameAnswer R s' s (s'.ask b'.scribingOff) (s.ask b.scribingOff)
  perform : ∀ {a}, acts a → ∀ {s' s}, R s' s → SameAnswer R s' s (s'.ask (b'.perform a)) (s.ask (b.perform a))
  results : ∀ {s' s}, R s' s → SameAnswer R s' s (s'.ask b'.results) (s.ask b.results)

/-- The hooks and actions that a path may perform. -/
def Path.acts (suite : Suite α) (topic : Topic α) (path : Path α) : List α :=
  suite.beforeEach.toList ++ topic.before.toList ++ path.played.filterMap (·.action) ++ topic.after.toList
    ++ suite.afterEach.toList

/-- Two actions on states of two kinds that come out the same from states that are alike. -/
def Likens {σ σ' : Type} (R : σ' → σ → Prop) (m' : ExceptT ε (StateM σ') β) (m : ExceptT ε (StateM σ) β) :
    Prop :=
  ∀ s' s, R s' s → (m' s').1 = (m s).1 ∧ R (m' s').2 (m s).2

section Likens

variable {σ σ' γ : Type} {R : σ' → σ → Prop}

theorem likens_pure (x : β) :
    Likens R (pure x : ExceptT ε (StateM σ') β) (pure x : ExceptT ε (StateM σ) β) :=
  fun _ _ h => ⟨rfl, h⟩

theorem likens_bind {m' : ExceptT ε (StateM σ') β} {m : ExceptT ε (StateM σ) β}
    {k' : β → ExceptT ε (StateM σ') γ} {k : β → ExceptT ε (StateM σ) γ} (h : Likens R m' m)
    (hk : ∀ x, Likens R (k' x) (k x)) : Likens R (m' >>= k') (m >>= k) := by
  intro s' s hs
  obtain ⟨hresult, hstate⟩ := h s' s hs
  rw [bind_apply, bind_apply]
  rcases hm' : m' s' with ⟨r', s₁'⟩
  rcases hm : m s with ⟨r, s₁⟩
  rw [hm', hm] at hresult hstate
  obtain rfl : r' = r := hresult
  cases r' with
  | error e => exact ⟨rfl, hstate⟩
  | ok x => exact hk x s₁' s₁ hstate

theorem likens_forM {f' : β → ExceptT ε (StateM σ') Unit} {f : β → ExceptT ε (StateM σ) Unit} {xs : List β}
    (h : ∀ x ∈ xs, Likens R (f' x) (f x)) : Likens R (xs.forM f') (xs.forM f) := by
  induction xs with
  | nil => exact likens_pure ()
  | cons x xs ih =>
    obtain ⟨hx, hxs⟩ := List.forall_mem_cons.1 h
    exact likens_bind hx fun _ => ih hxs

end Likens

namespace Performing

section Path

variable {b' : Backend α δ' ω'} {b : Backend α δ ω} {R : Scene δ' ω' → Scene δ ω → Prop} {acts : α → Prop}
  (hb : b'.Likens b R acts)

include hb

theorem likens_record (f : Recorder → Recorder) :
    Likens R (record f : Performing δ' ω' Unit) (record f : Performing δ ω Unit) :=
  fun _ _ h => ⟨rfl, hb.record f h⟩

theorem likens_wait : Likens R (call b'.wait) (call b.wait) := fun _ _ h => hb.wait h

theorem likens_runHook {hook : Option α} (h : ∀ a ∈ hook, acts a) :
    Likens R (runHook b' hook) (runHook b hook) := by
  cases hook with
  | none => exact likens_pure ()
  | some a => exact fun _ _ hs => hb.perform (h a rfl) hs

/-- The scribes that are handed out need not be the same. -/
theorem likens_scribed {a : α} (h : acts a) : Likens R (scribed b' a) (scribed b a) := by
  intro s' s hs
  rw [scribed_eq, scribed_eq]
  obtain ⟨hon, hs₁⟩ := hb.scribingOn hs
  rw [hon]
  cases (s.ask (b.scribingOn s.desk.scribe)).result with
  | error p => exact ⟨rfl, hs₁⟩
  | ok _ =>
    obtain ⟨hplayed, hs₂⟩ := hb.perform h hs₁
    obtain ⟨hoff, hs₃⟩ := hb.scribingOff hs₂
    dsimp only
    rw [hplayed]
    rcases ((s.after (s.ask (b.scribingOn s.desk.scribe))).ask (b.perform a)).result with (e | p) | _
    · refine ⟨?_, hs₃⟩
      dsimp only
      rw [hoff]
    · exact ⟨rfl, hs₂⟩
    · refine ⟨?_, hs₃⟩
      dsimp only
      rw [hoff]

theorem likens_runScribed {action : Option α} (h : ∀ a ∈ action, acts a) :
    Likens R (runScribed b' action) (runScribed b action) := by
  cases action with
  | none => exact likens_pure ()
  | some a => exact likens_scribed hb (h a rfl)

theorem likens_within (opening : Recorder → Recorder) {action : Option α} (h : ∀ a ∈ action, acts a) :
    Likens R (within b' opening action) (within b opening action) :=
  likens_bind (likens_record hb opening) fun _ => likens_bind (likens_wait hb) fun _ =>
    likens_bind (likens_runScribed hb h) fun _ => likens_record hb (·.endScope)

theorem likens_playPath (suite : Suite α) (topic : Topic α) (path : Path α)
    (h : ∀ a ∈ path.acts suite topic, acts a) :
    Likens R (playPath b' suite topic path) (playPath b suite topic path) := by
  simp only [Path.acts, List.mem_append, Option.mem_toList, List.mem_filterMap, or_imp, forall_and] at h
  obtain ⟨⟨⟨⟨hbeforeEach, hbefore⟩, hsteps⟩, hafter⟩, hafterEach⟩ := h
  rw [playPath_eq, playPath_eq]
  refine likens_bind ?_ fun _ => likens_bind (likens_within hb _ hbefore) fun _ =>
    likens_bind (likens_record hb _) fun _ => likens_bind (likens_forM fun step hstep => ?_) fun _ =>
    likens_bind (likens_runHook hb hafter) fun _ => likens_bind (likens_runHook hb hafterEach) fun _ =>
    likens_pure _
  · exact likens_bind (likens_record hb _) fun _ => likens_runHook hb hbeforeEach
  · exact likens_within hb _ fun a ha => hsteps a ⟨step, hstep, ha⟩

theorem likens_conclude (path : Path α) {played' : Except Interruption Bool × Scene δ' ω'}
    {played : Except Interruption Bool × Scene δ ω} (hresult : played'.1 = played.1)
    (hscene : R played'.2 played.2) :
    (conclude b' path played').1 = (conclude b path played).1 ∧
      R (conclude b' path played').2 (conclude b path played).2 := by
  obtain ⟨r', s'⟩ := played'
  obtain ⟨r, s⟩ := played
  obtain rfl : r' = r := hresult
  have hended := hb.record (·.endPath) hscene
  rcases r' with (e | p) | deferred
  · exact ⟨rfl, hended⟩
  · exact ⟨rfl, hended⟩
  · obtain ⟨hasked, hlast⟩ := hb.results hended
    simp only [conclude, call_eq, hasked]
    rcases ((s.record (·.endPath)).ask b.results).result with (e | p) | t <;> exact ⟨rfl, hlast⟩

end Path

end Performing

section Made

variable (b : Backend α δ ω) (suite : Suite α) (topic : Topic α) (story : Story α) (path : Path α)
  {world : ω} {desk : Desk}

/-- What a path whose driver could be made comes out with. -/
def ending (driver : δ) (world : ω) (desk : Desk) : Except Panic (Outcome × Tally) × Scene δ ω :=
  Performing.conclude b path (Performing.playPath b suite topic path ⟨driver, world, desk⟩)

theorem runPath_made {driver : δ} (h : (b.make world desk.slots.next).result = .ok driver) :
    let made := b.make world desk.slots.next
    let e := ending b suite topic path driver made.state (desk.takeAll made.sent)
    runPath b suite topic story path world desk =
      (e.1.map fun (outcome, tally) => ⟨story.description, path.reportedDescription, outcome, tally⟩,
        e.2.world, e.2.desk) := by
  simp only [runPath, h]
  rfl

theorem runPath_unmade {p : Panic} (h : (b.make world desk.slots.next).result = .error p) :
    let made := b.make world desk.slots.next
    runPath b suite topic story path world desk = (.error p, made.state, desk.takeAll made.sent) := by
  simp only [runPath, h]

end Made

end Storyline
