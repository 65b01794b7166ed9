import Storyline.Proofs.Recording.Hearing
import Storyline.Proofs.Recording.Numbering

/-! What one path adds to the records of its topic: a setup, if there was none yet, and in the story that
is being told a step for every visit whose chain was not known. That holds however the path ends. -/

namespace Storyline

variable {α δ ω : Type}

def Visit.draft (v : Visit) : StepDraft :=
  { description := v.chain.getLastD ""
    depth := v.chain.length - 1
    isFork := v.isFork
    draft := ({} : Draft).absorb v.heard.all }

def newSteps (visits : List Visit) : List StepDraft := (visits.filter (·.isNew)).map Visit.draft

theorem newSteps_append (xs ys : List Visit) : newSteps (xs ++ ys) = newSteps xs ++ newSteps ys := by
  simp [newSteps]

theorem newSteps_singleton (v : Visit) : newSteps [v] = if v.isNew then [v.draft] else [] := by
  cases h : v.isNew <;> simp [newSteps, h]

/-- What is on record where one record stands for many scopes: what was heard in the first. -/
def kept (heard : List Heard) : Option Draft := heard.head?.map fun h => ({} : Draft).absorb h.all

theorem kept_append (xs ys : List Heard) : kept (xs ++ ys) = (kept xs).or (kept ys) := by
  cases xs <;> simp [kept]

namespace Ledger

/-- What setups, and visits in the story that is being told, add to a ledger. -/
def tell (l : Ledger) (setups : List Heard) (visits : List Visit) : Ledger :=
  ({ l with setup := l.setup.or (kept setups) } : Ledger).add (newSteps visits)

@[simp] theorem tell_nil (l : Ledger) : l.tell [] [] = l := by simp [tell, kept, newSteps]

theorem tell_tell (l : Ledger) (xs ys : List Heard) (vs ws : List Visit) :
    (l.tell xs vs).tell ys ws = l.tell (xs ++ ys) (vs ++ ws) := by
  simp [tell, add, kept_append, Option.or_assoc, newSteps_append, modifyLast_modifyLast,
    StoryDraft.add_add]

theorem tell_visits (l : Ledger) (vs : List Visit) : l.tell [] vs = l.add (newSteps vs) := by
  simp [tell, kept]

theorem tell_last (l : Ledger) (setups : List Heard) (visits : List Visit) :
    (l.tell setups visits).stories.getLast?.map (·.description) =
      l.stories.getLast?.map (·.description) := by
  rcases l with ⟨setup, stories⟩
  induction stories using List.reverseRecOn <;> simp [tell, add, StoryDraft.add, modifyLast]

end Ledger

structure Records (name : String) (channel : Nat) (past : List String) (l : Ledger) (d : Desk) : Prop where
  description : d.recorder.description = name
  isOpen : d.recorder.channel.isOpen
  channel : d.channel = channel
  past : d.recorder.pastChains = past
  ledger : d.recorder.ledger = l

structure Telling (name : String) (channel : Nat) (past : List String) (l : Ledger) (d : Desk) : Prop
    extends Records name channel past l d where
  inStory : d.recorder.inStory

/-- A change of scope that puts nothing on record. -/
structure Closes (f : Recorder → Recorder) : Prop where
  description : ∀ r, (f r).description = r.description
  isOpen : ∀ r, (f r).channel.isOpen = r.channel.isOpen
  inStory : ∀ r, (f r).inStory = r.inStory
  past : ∀ r, (f r).pastChains = r.pastChains
  ledger : ∀ r, (f r).ledger = r.ledger
  scope : ∀ r, (f r).scope = .scratch

/-- What waits is put away first. What is on record does not depend on the scratch record, nor on the path. -/
theorem closes_switch (scratch : Recorder → Draft) (chain : Recorder → String) (depth : Recorder → Nat) :
    Closes fun r =>
      { r.switch .scratch with scratch := scratch r, chain := chain r, depth := depth r } where
  description := fun r => Recorder.switch_description r .scratch
  isOpen := fun _ => rfl
  inStory := fun r => Recorder.switch_inStory r .scratch
  past := fun r => Recorder.switch_pastChains r .scratch
  ledger := fun r => Recorder.ledger_switch r .scratch
  scope := fun _ => rfl

theorem closes_beginScratch : Closes (·.beginScratch) :=
  closes_switch (fun _ => {}) (fun r => (r.switch .scratch).chain) fun r => (r.switch .scratch).depth

theorem closes_endScope : Closes (·.endScope) :=
  closes_switch (fun r => (r.switch .scratch).scratch) (fun r => (r.switch .scratch).chain)
    fun r => (r.switch .scratch).depth

theorem closes_beginPath : Closes (·.beginPath) :=
  closes_switch (fun r => (r.switch .scratch).scratch) (fun r => r.beginPath.chain) fun _ => 0

theorem closes_endPath : Closes (·.endPath) :=
  closes_switch (fun r => (r.switch .scratch).scratch) (fun _ => "") fun _ => 0

section Telling

variable {name story : String} {channel : Nat} {past : List String} {l : Ledger} {d d' : Desk}
  {ms : List Message}

theorem Telling.closes {f : Recorder → Recorder} (h : Telling name channel past l d) (hf : Closes f) :
    Telling name channel past l (d.record f) where
  description := (hf.description _).trans h.description
  isOpen := (hf.isOpen _).trans h.isOpen
  inStory := (hf.inStory _).trans h.inStory
  channel := h.channel
  past := (hf.past _).trans h.past
  ledger := (hf.ledger _).trans h.ledger

/-- Outside of setup and steps messages are lost on the ledger. -/
theorem Telling.hears (h : Telling name channel past l d) (hscope : d.recorder.scope = .scratch)
    (hd : Hears d d' ms) : Telling name channel past l d' ∧ d'.recorder.scope = .scratch := by
  have heq := hd.recorder.trans (Recorder.hear_eq d.recorder ms h.isOpen)
  refine ⟨⟨⟨?_, ?_, hd.channel.trans h.channel, ?_, ?_⟩, ?_⟩, ?_⟩
  · rw [heq, ← h.description]
  · rw [heq]; exact h.isOpen
  · rw [heq, ← h.past]
  · rw [hd.recorder, Recorder.ledger_hear _ _ h.isOpen, hscope, h.ledger]
    rfl
  · rw [heq]; exact h.inStory
  · rw [heq, hscope]

/-- What is heard in a setup's scope goes on record if it is the first one. -/
theorem Telling.setup {heard : Heard} (h : Telling name channel past l d)
    (hd : Hears (d.record (·.beginSetup)) d' heard.all) :
    Telling name channel past (l.tell [heard] []) d' := by
  have heq := hd.recorder.trans (Recorder.hear_eq _ heard.all (by simpa [Desk.record] using h.isOpen))
  refine ⟨⟨?_, ?_, hd.channel.trans h.channel, ?_, ?_⟩, ?_⟩
  · simpa [heq, Desk.record] using h.description
  · simpa [heq, Desk.record] using h.isOpen
  · simpa [heq, Desk.record] using h.past
  · rw [hd.recorder, ← h.ledger]
    refine (Recorder.ledger_setup _ _ h.isOpen).trans ?_
    simp [Ledger.tell, kept, newSteps]
  · simpa [heq, Desk.record] using h.inStory

/-- A step that begins is put on record unless its chain is known, and from then on the chain is. -/
theorem Telling.step (h : Telling name channel past l d) (description : String) (isFork : Bool)
    (hd : Hears (d.record (·.beginStep description isFork)) d' ms) :
    Telling name channel (past.insert (d.recorder.chain ++ ">" ++ description))
      (if past.contains (d.recorder.chain ++ ">" ++ description) then l
        else l.add [⟨description, d.recorder.depth, isFork, ({} : Draft).absorb ms⟩]) d' ∧
    d'.recorder.chain = d.recorder.chain ++ ">" ++ description ∧
    d'.recorder.depth = d.recorder.depth + 1 := by
  have heq := hd.recorder.trans (Recorder.hear_eq _ ms (by simpa [Desk.record] using h.isOpen))
  refine ⟨⟨⟨?_, ?_, hd.channel.trans h.channel, ?_, ?_⟩, ?_⟩, ?_, ?_⟩
  · simpa [heq, Desk.record] using h.description
  · simpa [heq, Desk.record] using h.isOpen
  · simpa [heq, Desk.record, h.past] using Recorder.beginStep_pastChains _ description isFork h.inStory
  · have hledger := Recorder.ledger_step d.recorder description isFork ms h.isOpen
    rw [hd.recorder, ← h.ledger, ← h.past]
    refine hledger.trans ?_
    simp only [Recorder.lists, h.inStory, Bool.true_and, Bool.not_eq_true']
    cases d.recorder.pastChains.contains (d.recorder.chain ++ ">" ++ description) <;> rfl
  · simpa [heq, Desk.record] using h.inStory
  · simp [heq, Desk.record]
  · simp [heq, Desk.record]

end Telling

theorem visitsFrom_concat (b : Backend α δ ω) (trail : List String) (done : List (Step α × Scene δ ω))
    (step : Step α) (s : Scene δ ω) :
    visitsFrom b trail (done ++ [(step, s)]) =
      visitsFrom b trail done ++ [visitAt b (trail ++ done.map (·.1.description)) step s] := by
  induction done generalizing trail with
  | nil => simp [visitsFrom]
  | cons x done ih => simp [visitsFrom, ih]

namespace Performing

variable (b : Backend α δ ω) {name story : String} {channel : Nat} {past : List String} {l : Ledger}

/-- One visit: it adds its step to the ledger if it is a new one, and its chain becomes known. -/
theorem visit_tells {trail : List String} (step : Step α) (s : Scene δ ω)
    (h : Telling name channel past l s.desk) (hchain : s.desk.recorder.chain = chainText story trail)
    (hdepth : s.desk.recorder.depth = trail.length) :
    let v := visitAt b trail step s
    let s' := (visit b step s).2
    Telling name channel (past.insert (v.text story)) (l.tell [] [v]) s'.desk ∧
    s'.desk.recorder.chain = chainText story v.chain ∧ s'.desk.recorder.depth = v.chain.length ∧
    Logged channel past (withTexts story [v]) := by
  intro v s'
  have htext : s.desk.recorder.chain ++ ">" ++ step.description = v.text story := by
    rw [hchain, ← chainText_concat]
    rfl
  have hnew : v.isNew = !past.contains (v.text story) := by
    rw [← htext]
    simp [v, visitAt, Recorder.lists, h.inStory, h.past]
  have hlogged : Logged channel past (withTexts story [v]) := by
    refine ⟨⟨hnew, ?_, ?_⟩, trivial⟩
    · rw [← htext, ← h.past, ← Recorder.beginStep_pastChains _ _ step.isFork h.inStory]
      simp [v, visitAt, Recorder.recordNumber, Scene.record, Desk.record]
    · rw [← h.channel]
      exact heardIn_scribe b _ _
  obtain ⟨s₁, hears, hrun⟩ := hears_within b (·.beginStep step.description step.isFork) step.action s
  obtain ⟨htells, hchain₁, hdepth₁⟩ := h.step step.description step.isFork hears
  have hdraft : v.draft =
      ⟨step.description, s.desk.recorder.depth, step.isFork, ({} : Draft).absorb v.heard.all⟩ := by
    simp [Visit.draft, v, visitAt, hdepth]
  have hadd : (if past.contains (v.text story) then l else l.add [v.draft]) = l.tell [] [v] := by
    rw [Ledger.tell_visits, newSteps_singleton, hnew]
    cases past.contains (v.text story) <;> simp
  rw [htext] at htells hchain₁
  have htells' : Telling name channel (past.insert (v.text story)) (l.tell [] [v]) s₁.desk := by
    rw [← hadd, hdraft]
    exact htells
  have hlength : v.chain.length = trail.length + 1 := by simp [v, visitAt]
  rcases hrun with hrun | ⟨e, hrun⟩
  · have hs' : s' = s₁.record (·.endScope) := congrArg Prod.snd hrun
    rw [hs']
    refine ⟨htells'.closes closes_endScope, ?_, ?_, hlogged⟩
    · simpa [Scene.record, Desk.record, Recorder.endScope, Visit.text] using hchain₁
    · simpa [Scene.record, Desk.record, Recorder.endScope, hlength, hdepth] using hdepth₁
  · have hs' : s' = s₁ := congrArg Prod.snd hrun
    rw [hs']
    exact ⟨htells', hchain₁, by rw [hdepth₁, hdepth, hlength], hlogged⟩

theorem visits_tell (steps : List (Step α)) (s : Scene δ ω) (h : Telling name channel past l s.desk)
    (hchain : s.desk.recorder.chain = story) (hdepth : s.desk.recorder.depth = 0) :
    let visits := visitsFrom b [] (reached (visit b) steps s)
    let s' := ((steps.forM (visit b)) s).2
    Telling name channel (knownAfter past (visits.map (·.text story))) (l.tell [] visits) s'.desk ∧
    Logged channel past (withTexts story visits) := by
  intro visits s'
  have hloop := forM_reached (visit b) (fun done s =>
    Telling name channel (knownAfter past ((visitsFrom b [] done).map (·.text story)))
      (l.tell [] (visitsFrom b [] done)) s.desk ∧
    s.desk.recorder.chain = chainText story (done.map (·.1.description)) ∧
    s.desk.recorder.depth = (done.map (·.1.description)).length ∧
    Logged channel past (withTexts story (visitsFrom b [] done))) ?_ steps s [] ?_
  · obtain ⟨htells, -, -, hlogged⟩ := hloop
    exact ⟨htells, hlogged⟩
  · rintro done step s ⟨htells, hchain, hdepth, hlogged⟩
    obtain ⟨htells', hchain', hdepth', hlogged'⟩ :=
      visit_tells b step s htells hchain hdepth
    rw [visitsFrom_concat]
    refine ⟨?_, ?_, ?_, ?_⟩
    · simpa [Ledger.tell_tell, knownAfter_append, knownAfter_cons] using htells'
    · simpa [visitAt] using hchain'
    · simpa [visitAt] using hdepth'
    · rw [withTexts, List.map_append, logged_append]
      refine ⟨hlogged, ?_⟩
      simpa [withTexts, Function.comp_def] using hlogged'
  · refine ⟨?_, ?_, ?_, trivial⟩
    · simpa [visitsFrom] using h
    · simpa [chainText] using hchain
    · simpa using hdepth

theorem within_scope {opening : Recorder → Recorder} {action : Option α} {s s' : Scene δ ω}
    (hok : within b opening action s = (.ok (), s')) : s'.desk.recorder.scope = .scratch := by
  obtain ⟨s₁, -, hrun⟩ := hears_within b opening action s
  rw [hok] at hrun
  rcases hrun with hrun | ⟨e, hrun⟩ <;> cases hrun
  rfl

theorem playEntries_eq (entries : List (Entry α)) :
    playEntries b entries = do
      ((Path.mk entries).played.forM (visit b))
      return entries.any Entry.isDeferred := by
  induction entries with
  | nil => rfl
  | cons entry entries ih =>
    cases entry with
    | deferred => rfl
    | step step =>
      rw [playEntries, ih]
      have hplayed : (Path.mk (.step step :: entries)).played = step :: (Path.mk entries).played := by
        simp [Path.played, Entry.isDeferred]
      rw [hplayed]
      simp [visit, within, Entry.isDeferred, bind_assoc]

/-- A path in the order it is played: a setup, then the visits, each in a scope of its own. -/
theorem playPath_eq (suite : Suite α) (topic : Topic α) (path : Path α) :
    playPath b suite topic path = do
      enter b suite
      within b (·.beginSetup) topic.before
      record (·.beginPath)
      path.played.forM (visit b)
      runHook b topic.after
      runHook b suite.afterEach
      return path.entries.any Entry.isDeferred := by
  simp [playPath, playEntries_eq, enter, within, bind_assoc]

theorem runHook_tells {s : Scene δ ω} (hook : Option α) (h : Telling name channel past l s.desk)
    (hscope : s.desk.recorder.scope = .scratch) :
    Telling name channel past l (runHook b hook s).2.desk ∧
      (runHook b hook s).2.desk.recorder.scope = .scratch := by
  obtain ⟨ms, hears⟩ := hears_runHook b hook s
  exact h.hears hscope hears

theorem enter_tells {s : Scene δ ω} (suite : Suite α) (h : Telling name channel past l s.desk) :
    Telling name channel past l (enter b suite s).2.desk ∧
      (enter b suite s).2.desk.recorder.scope = .scratch := by
  have hrun : enter b suite s = runHook b suite.beforeEach (s.record (·.beginScratch)) := by
    rw [enter, bind_apply]
    rfl
  rw [hrun]
  exact runHook_tells b _ (h.closes closes_beginScratch) rfl

theorem setup_tells {s : Scene δ ω} (topic : Topic α) (h : Telling name channel past l s.desk) :
    Telling name channel past (l.tell [heardIn b topic.before (s.record (·.beginSetup))] [])
      (within b (·.beginSetup) topic.before s).2.desk := by
  obtain ⟨s₁, hears, hrun⟩ := hears_within b (·.beginSetup) topic.before s
  rcases hrun with hrun | ⟨e, hrun⟩ <;> rw [hrun]
  · exact (h.setup hears).closes closes_endScope
  · exact h.setup hears

theorem ending_tells {s : Scene δ ω} (suite : Suite α) (topic : Topic α) (deferred : Bool)
    (h : Telling name channel past l s.desk) (hscope : s.desk.recorder.scope = .scratch) :
    Telling name channel past l ((do
      runHook b topic.after
      runHook b suite.afterEach
      return deferred : Performing δ ω Bool) s).2.desk := by
  obtain ⟨htopic, hscope⟩ := runHook_tells b topic.after h hscope
  rw [bind_apply]
  rcases hafter : runHook b topic.after s with ⟨_ | _, s₁⟩ <;> rw [hafter] at htopic hscope
  · exact htopic
  · obtain ⟨heach, -⟩ := runHook_tells b suite.afterEach htopic hscope
    dsimp only
    rw [bind_apply]
    rcases hlast : runHook b suite.afterEach s₁ with ⟨_ | _, s₂⟩ <;> rw [hlast] at heach
    · exact heach
    · exact heach

theorem beginPath_chain {r : Recorder} (h : r.inStory)
    (hstory : r.ledger.stories.getLast?.map (·.description) = some story) : r.beginPath.chain = story := by
  have hcurrent : (r.switch .scratch).currentStory = r.ledger.stories.getLast? := by
    simp [Recorder.currentStory, h, Recorder.ledger]
  simp [Recorder.beginPath, hcurrent, hstory]

/-- A whole path adds to the records what its trace tells, wherever it ends. -/
theorem playPath_tells (suite : Suite α) (topic : Topic α) (path : Path α) (s : Scene δ ω)
    (h : Telling name channel past l s.desk)
    (hstory : l.stories.getLast?.map (·.description) = some story) :
    let p := playTrace b suite topic path s
    Telling name channel (knownAfter past (p.visits.map (·.text story))) (l.tell p.setup.toList p.visits)
      (playPath b suite topic path s).2.desk ∧
    Logged channel past (withTexts story p.visits) ∧ (∀ heard ∈ p.setup, heard.scribe = ⟨channel⟩) := by
  intro p
  obtain ⟨hentered, -⟩ := enter_tells b suite h
  rw [playPath_eq, bind_apply]
  simp only [p, playTrace]
  rcases henter : enter b suite s with ⟨_ | _, s₁⟩ <;> rw [henter] at hentered
  · exact ⟨by simpa using hentered, trivial, by simp⟩
  have hscribe : (heardIn b topic.before (s₁.record (·.beginSetup))).scribe = ⟨channel⟩ := by
    rw [heardIn_scribe, ← hentered.channel]
    rfl
  have hsetup := setup_tells b topic hentered
  dsimp only
  rw [bind_apply]
  rcases hw : within b (·.beginSetup) topic.before s₁ with ⟨_ | _, s₂⟩ <;> rw [hw] at hsetup
  · exact ⟨by simpa using hsetup, trivial, by simpa using hscribe⟩
  -- from here on the path is in its story, and every turn of the loop is one visit
  have hbegun := hsetup.closes closes_beginPath
  have hchain : (s₂.record (·.beginPath)).desk.recorder.chain = story :=
    beginPath_chain hsetup.inStory (by rw [hsetup.ledger, Ledger.tell_last]; exact hstory)
  obtain ⟨htells, hlogged⟩ := visits_tell b path.played (s₂.record (·.beginPath)) hbegun hchain rfl
  rw [Ledger.tell_tell] at htells
  refine ⟨?_, hlogged, by simpa using hscribe⟩
  dsimp only
  rw [bind_apply]
  dsimp only [record]
  rw [bind_apply]
  rcases hloop : (path.played.forM (visit b)) (s₂.record (·.beginPath)) with ⟨_ | _, s₃⟩ <;>
    rw [hloop] at htells
  · exact htells
  · have hscope := forM_ok (visit b) (fun s => s.desk.recorder.scope = .scratch)
      (fun _ _ _ _ hok => within_scope b hok) path.played (by rfl) hloop
    exact ending_tells b suite topic _ htells hscope

/-- When a path ends, its scope is closed first, and what the results send is lost. -/
theorem conclude_tells (path : Path α) {played : Except Interruption Bool × Scene δ ω}
    (h : Telling name channel past l played.2.desk) :
    let s' := (conclude b path played).2
    Telling name channel past l s'.desk ∧ s'.desk.recorder.scope = .scratch := by
  have hended := h.closes closes_endPath
  rcases played with ⟨(_ | _) | deferred, s⟩
  · exact ⟨hended, rfl⟩
  · exact ⟨hended, rfl⟩
  · have hasked := (s.record (·.endPath)).hears_after ((s.record (·.endPath)).ask b.results)
    have hresults := hended.hears rfl hasked
    dsimp only [conclude]
    rw [call_eq]
    rcases ((s.record (·.endPath)).ask b.results).result with (_ | _) | _ <;> exact hresults

end Performing

/-- A path from its driver to its report: whatever happens, it adds to the records what its trace tells,
and no scope is open after it. -/
theorem runPath_tells (b : Backend α δ ω) {name : String} {channel : Nat} {past : List String} {l : Ledger}
    (suite : Suite α) (topic : Topic α) (story : Story α) (path : Path α) (world : ω) {desk : Desk}
    (h : Telling name channel past l desk) (hscope : desk.recorder.scope = .scratch)
    (hstory : l.stories.getLast?.map (·.description) = some story.description) :
    let p := pathTrace b suite topic path world desk
    let desk' := (runPath b suite topic story path world desk).2.2
    Telling name channel (knownAfter past (p.visits.map (·.text story.description)))
      (l.tell p.setup.toList p.visits) desk' ∧
    desk'.recorder.scope = .scratch ∧
    Logged channel past (withTexts story.description p.visits) ∧
    (∀ heard ∈ p.setup, heard.scribe = ⟨channel⟩) := by
  obtain ⟨hmade, hmadeScope⟩ := h.hears hscope (hears_takeAll desk (b.make world desk.slots.next).sent)
  dsimp only [runPath, pathTrace]
  cases (b.make world desk.slots.next).result with
  | error p =>
    exact ⟨by simpa using hmade, hmadeScope, trivial, by simp⟩
  | ok driver =>
    obtain ⟨htells, hlogged, hscribe⟩ := Performing.playPath_tells b suite topic path
      ⟨driver, (b.make world desk.slots.next).state, desk.takeAll (b.make world desk.slots.next).sent⟩
      hmade hstory
    obtain ⟨htold, hclosed⟩ := Performing.conclude_tells b path htells
    exact ⟨htold, hclosed, hlogged, hscribe⟩

end Storyline
