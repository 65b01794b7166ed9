import Storyline.Proofs.Calls.Cues

/-! The protocol of a path: the calls it makes to its driver follow its cues, wherever they are interrupted,
and how they end decides what is told of the path. -/

namespace Storyline

variable {α δ ω β : Type}

namespace Performing

/-- Whatever scene it starts from, a performance makes calls that follow its cues. -/
def Follows (cues : List (Cue α)) (m : Performing (Nat × δ) (List (Called α) × ω) β) : Prop :=
  ∀ s, ∃ calls, (m s).2.world.1 = s.world.1 ++ calls ∧ (m s).2.driver.1 = s.driver.1 ∧
    Storyline.Follows s.driver.1 cues calls (fault? (m s).1)

variable {γ : Type} {cues cues' : List (Cue α)}

theorem Follows.of_eq {m : Performing (Nat × δ) (List (Called α) × ω) β} (h : Follows cues m)
    (heq : cues = cues') : Follows cues' m := heq ▸ h

theorem follows_pure (x : β) :
    Follows [] (pure x : Performing (Nat × δ) (List (Called α) × ω) β) :=
  fun _ => ⟨[], (List.append_nil _).symm, rfl, .done⟩

theorem follows_record (f : Recorder → Recorder) :
    Follows [] (record f : Performing (Nat × δ) (List (Called α) × ω) Unit) :=
  fun _ => ⟨[], (List.append_nil _).symm, rfl, .done⟩

theorem follows_bind {m : Performing (Nat × δ) (List (Called α) × ω) β}
    {k : β → Performing (Nat × δ) (List (Called α) × ω) γ} (h : Follows cues m)
    (hk : ∀ x, Follows cues' (k x)) : Follows (cues ++ cues') (m >>= k) := by
  intro s
  obtain ⟨calls, hlog, hdriver, hfollows⟩ := h s
  rw [bind_apply]
  rcases hm : m s with ⟨e | x, s₁⟩ <;> rw [hm] at hlog hdriver hfollows
  · exact ⟨calls, hlog, hdriver, hfollows.cut (by simp [fault?]) cues'⟩
  · obtain ⟨calls', hlog', hdriver', hfollows'⟩ := hk x s₁
    dsimp only at hlog hdriver
    rw [hdriver] at hdriver' hfollows'
    refine ⟨calls ++ calls', ?_, hdriver', hfollows.append rfl hfollows'⟩
    dsimp only
    rw [hlog', hlog, List.append_assoc]

theorem follows_recorded (f : Recorder → Recorder) {k : Unit → Performing (Nat × δ) (List (Called α) × ω) γ}
    (h : Follows cues (k ())) : Follows cues (record f >>= k) :=
  follows_bind (follows_record f) fun _ => h

theorem follows_forM {f : β → Performing (Nat × δ) (List (Called α) × ω) Unit} {cues : β → List (Cue α)}
    (h : ∀ x, Follows (cues x) (f x)) (xs : List β) : Follows (xs.flatMap cues) (xs.forM f) := by
  induction xs with
  | nil => exact follows_pure ()
  | cons x xs ih => exact follows_bind (h x) fun _ => ih

section Watch

variable {ε : Type} {c : Call α} {toFault : ε → Interruption} {f : δ × ω → Nat → Reply (δ × ω) ε β}
  {s : Scene (Nat × δ) (List (Called α) × ω)}

theorem log_answered {x : β} (h : (s.ask (watch c toFault f)).result = .ok x) :
    (s.after (s.ask (watch c toFault f))).world.1 = s.world.1 ++ [⟨s.driver.1, c, none⟩] := by
  change s.world.1 ++ [⟨_, _, (fault? (s.ask (watch c toFault f)).result).map toFault⟩] = _
  rw [h]
  rfl

theorem log_interrupted {e : ε} (h : (s.ask (watch c toFault f)).result = .error e) :
    (s.after (s.ask (watch c toFault f))).world.1 = s.world.1 ++ [⟨s.driver.1, c, some (toFault e)⟩] := by
  change s.world.1 ++ [⟨_, _, (fault? (s.ask (watch c toFault f)).result).map toFault⟩] = _
  rw [h]
  rfl

end Watch

theorem log_two {l l₁ l₂ : List (Called α)} {x y : Called α} (h₁ : l₁ = l ++ [x]) (h₂ : l₂ = l₁ ++ [y]) :
    l₂ = l ++ [x, y] := by
  rw [h₂, h₁, List.append_assoc]
  rfl

theorem log_three {l l₁ l₂ l₃ : List (Called α)} {x y z : Called α} (h₁ : l₁ = l ++ [x])
    (h₂ : l₂ = l₁ ++ [y]) (h₃ : l₃ = l₂ ++ [z]) : l₃ = l ++ [x, y, z] := by
  rw [h₃, log_two h₁ h₂, List.append_assoc]
  rfl

theorem follows_call {cue : Cue α} {c : Call α} (single : cue.calls = [c])
    (f : δ × ω → Nat → Reply (δ × ω) Interruption β) : Follows [cue] (call (watch c id f)) := by
  intro s
  rw [call_eq]
  cases h : (s.ask (watch c id f)).result with
  | error i => exact ⟨_, log_interrupted h, rfl, .interrupted single i⟩
  | ok _ => exact ⟨_, log_answered h, rfl, .answered single .done⟩

variable (b : Backend α δ ω)

theorem follows_runHook (hook : Option α) : Follows (hookCues hook) (runHook b.watched hook) := by
  cases hook with
  | none => exact follows_pure ()
  | some a => exact follows_call rfl (b.perform a)

/-- Between the calls that hand out the scribe and take it back there is the action, and nothing else. -/
theorem follows_scribed (a : α) : Follows [.scribed a] (scribed b.watched a) := by
  intro s
  rw [scribed_eq]
  cases hon : (s.ask (b.watched.scribingOn s.desk.scribe)).result with
  | error p => exact ⟨_, log_interrupted hon, rfl, .notHanded p⟩
  | ok _ =>
    have hlog₁ := log_answered hon
    set s₁ := s.after (s.ask (b.watched.scribingOn s.desk.scribe))
    set s₂ := s₁.after (s₁.ask (b.watched.perform a))
    dsimp only
    rcases hacted : (s₁.ask (b.watched.perform a)).result with (e | p) | _
    · have hlog₂ := log_interrupted hacted
      cases hoff : (s₂.ask b.watched.scribingOff).result with
      | error p => exact ⟨_, log_three hlog₁ hlog₂ (log_interrupted hoff), rfl, .failedAndKept e p⟩
      | ok _ => exact ⟨_, log_three hlog₁ hlog₂ (log_answered hoff), rfl, .failed e⟩
    · exact ⟨_, log_two hlog₁ (log_interrupted hacted), rfl, .panicked p⟩
    · have hlog₂ := log_answered hacted
      cases hoff : (s₂.ask b.watched.scribingOff).result with
      | error p => exact ⟨_, log_three hlog₁ hlog₂ (log_interrupted hoff), rfl, .kept p⟩
      | ok _ => exact ⟨_, log_three hlog₁ hlog₂ (log_answered hoff), rfl, .acted .done⟩

theorem follows_runScribed (action : Option α) :
    Follows (action.toList.map .scribed) (runScribed b.watched action) := by
  cases action with
  | none => exact follows_pure ()
  | some a => exact follows_scribed b a

theorem follows_within (opening : Recorder → Recorder) (action : Option α) :
    Follows (scopeCues action) (within b.watched opening action) := by
  refine follows_recorded opening (Follows.of_eq ?_ (List.singleton_append))
  refine follows_bind (follows_call rfl b.wait) fun _ => Follows.of_eq ?_ (List.append_nil _)
  exact follows_bind (follows_runScribed b action) fun _ => follows_record (·.endScope)

theorem follows_visits (steps : List (Step α)) :
    Follows (steps.flatMap fun step => scopeCues step.action) (steps.forM (visit b.watched)) := by
  have hvisit (step : Step α) : Follows (scopeCues step.action) (visit b.watched step) :=
    follows_within b _ step.action
  exact follows_forM hvisit steps

theorem follows_playPath (suite : Suite α) (topic : Topic α) (path : Path α) :
    Follows (playCues suite topic path) (playPath b.watched suite topic path) := by
  rw [playPath_eq]
  simp only [playCues, List.append_assoc]
  refine follows_bind ?_ fun _ => follows_bind (follows_within b _ _) fun _ => follows_recorded _ ?_
  · exact follows_recorded _ (follows_runHook b _)
  refine follows_bind (follows_visits b path.played) fun _ => follows_bind (follows_runHook b _) fun _ => ?_
  refine Follows.of_eq ?_ (List.append_nil _)
  exact follows_bind (follows_runHook b _) fun _ => follows_pure _

end Performing

/-- The error that a path is reported with when this has interrupted it. -/
def Interruption.reported (path : Path α) : Interruption → Error
  | .error e => e
  | .panic p => .run (.panicked path.reportedDescription p.message)

/-- A panic that no path contains: one while its driver is made or asked for its results. -/
def Escapes (calls : List (Called α)) (p : Panic) : Prop :=
  ∃ c ∈ calls, (c.call = .make ∨ c.call = .results) ∧ c.fault = some (.panic p)

/-- What calls that end with `fault` decide about a path. -/
def Decides (path : Path α) (calls : List (Called α)) (fault : Option Interruption) :
    Except Panic (Outcome × Tally) → Prop
  | .error p => Escapes calls p ∧ fault = some (.panic p)
  | .ok (outcome, tally) =>
      (∀ p, ¬ Escapes calls p) ∧
        match fault with
        | none => outcome = .ofResults (path.entries.any Entry.isDeferred) tally
        | some i => outcome = .errored (i.reported path) ∧ tally = {}

theorem call_of_playCues {suite : Suite α} {topic : Topic α} {path : Path α} {c : Call α}
    (h : c ∈ (playCues suite topic path).flatMap Cue.calls) : c ≠ .make ∧ c ≠ .results := by
  have hcue : ∀ cue ∈ playCues suite topic path, cue ≠ .make ∧ cue ≠ .results := by
    intro cue hcue
    simp only [playCues, hookCues, scopeCues, List.mem_append, List.mem_flatMap, List.mem_cons,
      List.mem_map] at hcue
    constructor <;> rintro rfl <;> simp at hcue
  obtain ⟨cue, hmem, hc⟩ := List.mem_flatMap.1 h
  obtain ⟨hmake, hresults⟩ := hcue cue hmem
  cases cue with
  | make => exact absurd rfl hmake
  | results => exact absurd rfl hresults
  | wait => simp_all [Cue.calls]
  | hook a => simp_all [Cue.calls]
  | scribed a =>
    simp only [Cue.calls, List.mem_cons, List.not_mem_nil, or_false] at hc
    rcases hc with rfl | rfl | rfl <;> simp

/-- While a path is played every panic is contained. -/
theorem Follows.contained {suite : Suite α} {topic : Topic α} {path : Path α} {n : Nat}
    {calls : List (Called α)} {fault : Option Interruption}
    (h : Follows n (playCues suite topic path) calls fault) (p : Panic) : ¬ Escapes calls p := by
  rintro ⟨c, hc, hcall, -⟩
  obtain ⟨hmake, hresults⟩ := call_of_playCues (h.calls_initial.1.subset (List.mem_map_of_mem hc))
  exact hcall.elim hmake hresults

theorem escapes_results_iff {calls : List (Called α)} (h : ∀ c ∈ calls, c.fault = none) (n : Nat)
    (fault : Option Interruption) (p : Panic) :
    Escapes (calls ++ [⟨n, .results, fault⟩]) p ↔ fault = some (.panic p) := by
  constructor
  · rintro ⟨c, hc, -, hp⟩
    rcases List.mem_append.1 hc with hc | hc
    · rw [h c hc] at hp
      cases hp
    · rwa [List.mem_singleton.1 hc] at hp
  · exact fun hp => ⟨_, List.mem_append_right _ (List.mem_singleton_self _), .inr rfl, hp⟩

namespace Performing

theorem playPath_deferred {b : Backend α δ ω} {suite : Suite α} {topic : Topic α} {path : Path α}
    {s s' : Scene δ ω} {deferred : Bool} (h : playPath b suite topic path s = (.ok deferred, s')) :
    deferred = path.entries.any Entry.isDeferred := by
  rw [playPath_eq] at h
  obtain ⟨_, _, -, h⟩ := bind_eq_ok h
  obtain ⟨_, _, -, h⟩ := bind_eq_ok h
  obtain ⟨_, _, -, h⟩ := bind_eq_ok h
  obtain ⟨_, _, -, h⟩ := bind_eq_ok h
  obtain ⟨_, _, -, h⟩ := bind_eq_ok h
  obtain ⟨_, _, -, h⟩ := bind_eq_ok h
  cases h
  rfl

theorem follows_conclude (b : Backend α δ ω) (suite : Suite α) (topic : Topic α) (path : Path α)
    (s : Scene (Nat × δ) (List (Called α) × ω)) :
    let e := conclude b.watched path (playPath b.watched suite topic path s)
    ∃ calls fault, e.2.world.1 = s.world.1 ++ calls ∧
      Storyline.Follows s.driver.1 (playCues suite topic path ++ [.results]) calls fault ∧
      Decides path calls fault e.1 := by
  intro e
  obtain ⟨calls, hlog, hdriver, hfollows⟩ := follows_playPath b suite topic path s
  simp only [e]
  rcases hplayed : playPath b.watched suite topic path s with ⟨(error | p) | deferred, s₁⟩ <;>
    rw [hplayed] at hlog hdriver hfollows
  · exact ⟨calls, _, hlog, hfollows.cut (by simp [fault?]) _, hfollows.contained, rfl, rfl⟩
  · exact ⟨calls, _, hlog, hfollows.cut (by simp [fault?]) _, hfollows.contained, rfl, rfl⟩
  obtain rfl := playPath_deferred hplayed
  have hescapes := escapes_results_iff (hfollows.fault_eq_none_iff.1 rfl) s.driver.1
  set s₂ := s₁.record (·.endPath) with hs₂
  have hlast {fault : Option Interruption}
      (h : (s₂.after (s₂.ask b.watched.results)).world.1 = s₁.world.1 ++ [⟨s₁.driver.1, .results, fault⟩]) :
      (s₂.after (s₂.ask b.watched.results)).world.1 =
        s.world.1 ++ (calls ++ [⟨s.driver.1, .results, fault⟩]) := by
    rw [h, hlog, hdriver, List.append_assoc]
  simp only [conclude, call_eq, ← hs₂]
  cases hresults : (s₂.ask b.watched.results).result with
  | ok t =>
    exact ⟨_, none, hlast (log_answered hresults), hfollows.append rfl (.answered rfl .done),
      fun p => by simp [hescapes], rfl⟩
  | error i =>
    have hlog := hlast (log_interrupted hresults)
    have hcalls := hfollows.append rfl (.interrupted rfl i : Storyline.Follows _ [Cue.results] _ _)
    cases i with
    | error e => exact ⟨_, _, hlog, hcalls, fun p => by simp [hescapes], rfl, rfl⟩
    | panic p => exact ⟨_, _, hlog, hcalls, (hescapes _ p).2 rfl, rfl⟩

end Performing

theorem Decides.cons {path : Path α} {calls : List (Called α)} {fault : Option Interruption}
    {r : Except Panic (Outcome × Tally)} {c : Called α} (hc : c.fault = none) (h : Decides path calls fault r) :
    Decides path (c :: calls) fault r := by
  have hescapes (p : Panic) : Escapes (c :: calls) p ↔ Escapes calls p := by
    simp [Escapes, hc]
  rcases r with p | ⟨outcome, tally⟩
  · exact ⟨(hescapes p).2 h.1, h.2⟩
  · exact ⟨fun p => mt (hescapes p).1 (h.1 p), h.2⟩

section Path

variable (b : Backend α δ ω) (suite : Suite α) (topic : Topic α) (story : Story α) (path : Path α)
  (earlier : List (Called α)) (world : ω) (desk : Desk)

/-- The calls of a whole path, all to one new driver, and what they decide. -/
theorem runPath_follows :
    let watched := runPath b.watched suite topic story path (earlier, world) desk
    ∃ calls fault r, watched.2.1.1 = earlier ++ calls ∧
      Follows (drivers earlier + 1) (pathCues suite topic path) calls fault ∧ Decides path calls fault r ∧
      watched.1 = r.map fun (outcome, tally) =>
        ⟨story.description, path.reportedDescription, outcome, tally⟩ := by
  intro watched
  cases hmade : (b.make world desk.slots.next).result with
  | error p =>
    have hmade' : (b.watched.make (earlier, world) _).result = _ := watched_unmade b hmade
    refine ⟨[⟨drivers earlier + 1, .make, some (.panic p)⟩], _, .error p, ?_, .interrupted rfl _, ?_, ?_⟩
    · simp only [watched, runPath_unmade b.watched suite topic story path hmade']
      simp [Backend.watched, hmade, fault?]
    · exact ⟨⟨_, List.mem_singleton_self _, .inl rfl, rfl⟩, rfl⟩
    · simp only [watched, runPath_unmade b.watched suite topic story path hmade']
      rfl
  | ok driver =>
    have hmade' : (b.watched.make (earlier, world) _).result = _ := watched_made b hmade
    have hlog : (b.watched.make (earlier, world) desk.slots.next).state.1 =
        earlier ++ [⟨drivers earlier + 1, .make, none⟩] := by
      simp [Backend.watched, hmade, fault?]
    obtain ⟨calls, fault, hcalls, hfollows, hdecides⟩ := Performing.follows_conclude b suite
      topic path ⟨(drivers earlier + 1, driver), (b.watched.make (earlier, world) desk.slots.next).state,
        desk.takeAll (b.watched.make (earlier, world) desk.slots.next).sent⟩
    refine ⟨⟨drivers earlier + 1, .make, none⟩ :: calls, fault, _, ?_, .answered rfl hfollows,
      hdecides.cons rfl, ?_⟩
    · simp only [watched, runPath_made b.watched suite topic story path hmade']
      rw [ending, hcalls, hlog, List.append_assoc]
      rfl
    · simp only [watched, runPath_made b.watched suite topic story path hmade']
      rfl

end Path

/-- Calls that a path may make to the driver of number `n`. -/
structure KeepsProtocol (suite : Suite α) (topic : Topic α) (path : Path α) (n : Nat)
    (calls : List (Called α)) : Prop where
  /-- Each call comes where the cues have it, and an interruption is the end. -/
  follows : ∃ fault, Follows n (pathCues suite topic path) calls fault
  initial : calls.map (·.call) <+: (pathCues suite topic path).flatMap Cue.calls
  whole : (∀ c ∈ calls, c.fault = none) → calls.map (·.call) = (pathCues suite topic path).flatMap Cue.calls
  /-- The results are asked for exactly if nothing went wrong before. -/
  results : .results ∈ calls.map (·.call) ↔ ∀ c ∈ calls, c.call ≠ .results → c.fault = none
  /-- Of all calls the hook before the topic and the actions of steps have a scribe, and no others. -/
  scribing : withScribe false calls <+:
    (topic.before.toList ++ path.played.filterMap (·.action)).map .perform
  /-- After a panic nothing is called. -/
  panic : calls.Pairwise fun c _ => ∀ p, c.fault ≠ some (.panic p)
  driver : ∀ c ∈ calls, c.driver = n
  made : drivers calls = 1

namespace Follows

variable {suite : Suite α} {topic : Topic α} {path : Path α} {n : Nat} {calls : List (Called α)}
  {fault : Option Interruption}

theorem no_results (h : Follows n (.make :: playCues suite topic path) calls fault) :
    ∀ c ∈ calls, c.call ≠ .results := by
  intro c hc hcall
  have hmem := h.calls_initial.1.subset (List.mem_map_of_mem hc)
  rw [hcall, List.flatMap_cons, List.mem_append] at hmem
  rcases hmem with hmem | hmem
  · simp [Cue.calls] at hmem
  · exact (call_of_playCues hmem).2 rfl

theorem results_iff (h : Follows n (pathCues suite topic path) calls fault) :
    .results ∈ calls.map (·.call) ↔ ∀ c ∈ calls, c.call ≠ .results → c.fault = none := by
  have h' : Follows n ((.make :: playCues suite topic path) ++ [.results]) calls fault := h
  obtain ⟨calls₁, calls₂, rfl, h₁, h₂⟩ | ⟨hsome, h₁⟩ := h'.split
  · have hdone := h₁.fault_eq_none_iff.1 rfl
    have hlast : ∃ f, calls₂ = [⟨n, .results, f⟩] := by
      cases h₂ with
      | answered single rest =>
        cases single
        cases rest
        exact ⟨_, rfl⟩
      | interrupted single i =>
        cases single
        exact ⟨_, rfl⟩
    obtain ⟨f, rfl⟩ := hlast
    simp only [List.map_append, List.map_cons, List.map_nil, List.mem_append, List.mem_singleton, or_true,
      true_iff]
    rintro c (hc | rfl) hcall
    · exact hdone c hc
    · exact absurd rfl hcall
  · have hnot := h₁.no_results
    have hfault := mt h₁.fault_eq_none_iff.2 hsome
    constructor
    · intro hmem
      obtain ⟨c, hc, hcall⟩ := List.mem_map.1 hmem
      exact absurd hcall (hnot c hc)
    · exact fun hall => absurd (fun c hc => hall c hc (hnot c hc)) hfault

theorem drivers_eq (h : Follows n (pathCues suite topic path) calls fault) : drivers calls = 1 := by
  have h' : Follows n (.make :: (playCues suite topic path ++ [.results])) calls fault := h
  cases h' with
  | interrupted single i =>
    cases single
    rfl
  | @answered _ _ _ calls _ single rest =>
    cases single
    have hnone : drivers calls = 0 := by
      refine List.countP_eq_zero.2 fun c hc hmake => ?_
      have hmem := rest.calls_initial.1.subset (List.mem_map_of_mem hc)
      rw [List.flatMap_append, List.mem_append] at hmem
      rcases hmem with hmem | hmem
      · have hne := (call_of_playCues hmem).1
        cases hcall : c.call <;> simp_all [Call.isMake]
      · have hcall : c.call = .results := by simpa [Cue.calls] using hmem
        simp [hcall, Call.isMake] at hmake
    exact (drivers_append [_] calls).trans (by rw [hnone]; rfl)

theorem actions_eq (suite : Suite α) (topic : Topic α) (path : Path α) :
    (pathCues suite topic path).filterMap Cue.action? =
      topic.before.toList ++ path.played.filterMap (·.action) := by
  have hhook (hook : Option α) : (hookCues hook).filterMap Cue.action? = [] := by
    cases hook <;> rfl
  have hscope (action : Option α) : (scopeCues action).filterMap Cue.action? = action.toList := by
    cases action <;> rfl
  have hvisits : (path.played.flatMap fun step => scopeCues step.action).filterMap Cue.action? =
      path.played.filterMap (·.action) := by
    rw [List.filterMap_flatMap, List.filterMap_eq_flatMap_toList]
    simp only [hscope]
  simp [pathCues, playCues, List.filterMap_cons, List.filterMap_append, hhook, hscope, hvisits, Cue.action?]

end Follows

/-- The calls of a path keep the protocol whatever the driver does: they begin with a new driver, follow
the path's cues and stop where they are interrupted. Writing them down changes nothing about the path. -/
theorem calls_keep_protocol (b : Backend α δ ω) (suite : Suite α) (topic : Topic α) (story : Story α)
    (path : Path α) (earlier : List (Called α)) (world : ω) (desk : Desk) :
    let watched := runPath b.watched suite topic story path (earlier, world) desk
    (watched.1, watched.2.1.2, watched.2.2) = runPath b suite topic story path world desk ∧
    ∃ calls, watched.2.1.1 = earlier ++ calls ∧
      KeepsProtocol suite topic path (drivers earlier + 1) calls := by
  intro watched
  obtain ⟨calls, fault, r, hlog, hfollows, -⟩ := runPath_follows b suite topic story path earlier world desk
  refine ⟨runPath_watched b suite topic story path earlier world desk, calls, hlog, ?_⟩
  exact
    { follows := ⟨fault, hfollows⟩
      initial := hfollows.calls_initial.1
      whole := fun h => hfollows.calls_initial.2 (hfollows.fault_eq_none_iff.2 h)
      results := hfollows.results_iff
      scribing := by
        rw [← Follows.actions_eq suite]
        exact hfollows.withScribe_initial
      panic := hfollows.panics_last
      driver := hfollows.driver_eq
      made := hfollows.drivers_eq }

end Storyline
