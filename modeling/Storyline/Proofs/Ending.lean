import Storyline.Proofs.Files
import Storyline.Proofs.Verdict

/-! How a command ends. It ends well exactly if it could start, every path that was run was reported as passed or
deferred, and every outlet answered well to all that it was told. What could not start has made no drivers and
has reported nothing. -/

namespace Storyline

variable {α δ ω τ τ' : Type}

theorem firstErrorOf_eq_ok {rs : List (Except Error Unit)} :
    firstErrorOf rs = .ok () ↔ ∀ r ∈ rs, r = .ok () := by
  induction rs with
  | nil => simp [firstErrorOf]
  | cons r rs ih => cases r <;> simp [firstErrorOf, firstError, ih]

/-- All that the observers of a row have answered was good. -/
def Satisfied (os : List (τ × List (Except Error Unit))) : Prop :=
  ∀ o ∈ os, ∀ answer ∈ o.2, answer = .ok ()

theorem satisfied_cons {o : τ × List (Except Error Unit)} {os : List (τ × List (Except Error Unit))} :
    Satisfied (o :: os) ↔ (∀ answer ∈ o.2, answer = .ok ()) ∧ Satisfied os := List.forall_mem_cons

section Answering

variable (notify : Notify τ ω) (e : Event)

theorem Notify.row_cons (o : τ) (os : List τ) (w : ω) :
    notify.row e (o :: os) w =
      let told := notify e o w
      let others := notify.row e os told.2.2
      (told.1 :: others.1, told.2.1 :: others.2.1, others.2.2) := rfl

theorem Notify.row_answering (os : List (τ × List (Except Error Unit))) (w : ω) :
    let kept := notify.answering.row e os w
    (kept.1, kept.2.1.map Prod.fst, kept.2.2) = notify.row e (os.map Prod.fst) w := by
  induction os generalizing w with
  | nil => rfl
  | cons o os ih =>
    have htail := ih (notify e o.1 w).2.2
    intro kept
    rw [List.map_cons, Notify.row_cons]
    dsimp only at htail ⊢
    rw [← htail]
    rfl

theorem Notify.row_satisfied (os : List (τ × List (Except Error Unit))) (w : ω) :
    Satisfied (notify.answering.row e os w).2.1 ↔
      Satisfied os ∧ ∀ r ∈ (notify.answering.row e os w).1, r = .ok () := by
  induction os generalizing w with
  | nil => simp [row, Satisfied]
  | cons o os ih =>
    have htail := ih (notify e o.1 w).2.2
    have hhead : (∀ answer ∈ o.2 ++ [(notify e o.1 w).1], answer = .ok ()) ↔
        (∀ answer ∈ o.2, answer = .ok ()) ∧ (notify e o.1 w).1 = .ok () := by
      rw [List.forall_mem_append, List.forall_mem_singleton]
    simp only [row, answering, satisfied_cons, List.forall_mem_cons, hhead]
    rw [show Satisfied (notify.answering.row e os (notify e o.1 w).2.2).2.1 ↔ _ from htail]
    tauto

theorem Chain.notify_answering {c' : Chain (τ × List (Except Error Unit))} {c : Chain τ}
    (h : c'.toList.map Prod.fst = c.toList) (w : ω) :
    let kept := c'.notify notify.answering e w
    let told := c.notify notify e w
    (kept.1, kept.2.1.toList.map Prod.fst, kept.2.2) = (told.1, told.2.1.toList, told.2.2) := by
  have hkept := Chain.notify_row notify.answering e c' w
  have htold := Chain.notify_row notify e c w
  have hrow := notify.row_answering e c'.toList w
  rw [h] at hrow
  simp only [Prod.mk.injEq] at hkept htold hrow ⊢
  obtain ⟨hresult, hseats, hworld⟩ := hkept
  rw [hresult, hseats, hworld, htold.1, htold.2.1, htold.2.2, ← hrow]
  exact ⟨rfl, rfl, rfl⟩

theorem Chain.notify_satisfied (c : Chain (τ × List (Except Error Unit))) (w : ω) :
    Satisfied (c.notify notify.answering e w).2.1.toList ↔
      Satisfied c.toList ∧ (c.notify notify.answering e w).1 = .ok () := by
  have hrow := Chain.notify_row notify.answering e c w
  simp only [Prod.mk.injEq] at hrow
  rw [hrow.1, hrow.2.1, notify.row_satisfied, firstErrorOf_eq_ok]

end Answering

/-- With drivers of one kind two runs stay alike if what is told leaves them so. -/
theorem RunLikens.of_tell {b : Backend α δ ω} {notify' : Notify τ' ω} {notify : Notify τ ω} {suite : Suite α}
    {R : Running τ' ω → Running τ ω → Prop}
    (hworld : ∀ {s' s}, R s' s → s'.world = s.world) (hdesk : ∀ {s' s}, R s' s → s'.desk = s.desk)
    (hpath : ∀ world desk {s' s}, R s' s → R { s' with world, desk } { s with world, desk })
    (htell : ∀ e {s' s}, R s' s → R (s'.tell notify' e) (s.tell notify e)) :
    RunLikens b notify' b notify suite R where
  desk := hdesk
  reseat := by
    intro f s' s h
    have hreseated := hpath s.world (f s.desk) h
    rw [hdesk h]
    convert hreseated using 2
    exact hworld h
  tell := htell
  path := by
    intro topic story path s' s h
    unfold runSelectedPath
    rw [hworld h, hdesk h]
    rcases runPath b suite topic story path s.world s.desk with ⟨_ | report, world, desk⟩
    · exact ⟨rfl, hpath world desk h⟩
    · exact ⟨rfl, htell (.path report) (hpath world desk h)⟩

/-- A chain of observers, with all that it is told and with what each of them answers. -/
def Notify.minuted (notify : Notify τ ω) : Notify (Chain (τ × List (Except Error Unit)) × List Event) ω :=
  Notify.keeping (Chain.notify notify.answering)

/-- A run whose observers are a chain, with all that it is told and with what each of them answers. -/
abbrev Minuted (τ ω : Type) := Running (Chain (τ × List (Except Error Unit)) × List Event) ω

namespace Minuted

/-- A run has come to the same point as one in which nothing is kept. -/
structure Likens (s' : Minuted τ ω) (s : Running (Chain τ) ω) : Prop where
  world : s'.world = s.world
  desk : s'.desk = s.desk
  summary : s'.summary = s.summary
  observers : s'.observer.1.toList.map Prod.fst = s.observer.toList

/-- The totals are those of all reports, and no error is counted if all answers were good. -/
structure Counted (s : Minuted τ ω) : Prop where
  summary : s.summary = .totals s.reports (s.told.countP Event.isDeferral) s.summary.reportErrors
  answers : s.summary.reportErrors = 0 ↔ Satisfied s.observer.1.toList

variable {notify : Notify τ ω} (e : Event)

theorem Likens.tell {s' : Minuted τ ω} {s : Running (Chain τ) ω} (h : s'.Likens s) :
    Likens (s'.tell notify.minuted e) (s.tell (Chain.notify notify) e) := by
  obtain ⟨world, ⟨chain', events⟩, desk, summary⟩ := s'
  obtain ⟨_, chain, _, _⟩ := s
  obtain ⟨rfl, rfl, rfl, hobservers⟩ := h
  have htold := Chain.notify_answering notify e hobservers world
  simp only [Prod.mk.injEq] at htold
  obtain ⟨hresult, hseats, hworld⟩ := htold
  refine ⟨hworld, rfl, ?_, hseats⟩
  rw [Running.summary_tell, Running.summary_tell]
  dsimp only
  rw [← hresult]
  rfl

theorem Counted.tell {s : Minuted τ ω} (h : s.Counted) : Counted (s.tell notify.minuted e) := by
  have hsatisfied := Chain.notify_satisfied notify e s.observer.1 s.world
  have hsummary : (s.tell notify.minuted e).summary =
      s.summary.add (e, (s.observer.1.notify notify.answering e s.world).1) := Running.summary_tell notify.minuted e s
  have hreports : (s.tell notify.minuted e).reports = s.reports ++ e.report?.toList := by
    change (s.told ++ [e]).filterMap Event.report? = _
    rw [List.filterMap_append]
    cases e <;> rfl
  have hcount := Summary.totals_count s.reports (s.told.countP Event.isDeferral) s.summary.reportErrors e
  rw [← h.summary] at hcount
  refine ⟨?_, ?_⟩
  · change _ = Summary.totals _ ((s.told ++ [e]).countP Event.isDeferral) _
    rw [hsummary, Summary.add, hreports, hcount, List.countP_append, List.countP_singleton]
    rfl
  · rw [hsummary, Summary.add, hcount]
    change _ ↔ Satisfied (s.observer.1.notify notify.answering e s.world).2.1.toList
    rw [hsatisfied, ← h.answers]
    cases (s.observer.1.notify notify.answering e s.world).1 with
    | error e => simp [Summary.totals, Except.isOk, Except.toBool]
    | ok _ => simp [Summary.totals, Except.isOk, Except.toBool]

end Minuted

section Minutes

variable (b : Backend α δ ω) (notify : Notify τ ω) (selection : Selection) (suite : Suite α) (os : List τ)
  (world : ω)

def Chain.unasked : Chain (τ × List (Except Error Unit)) := .row (os.map fun o => (o, []))

theorem Chain.toList_row : (Chain.row os).toList = os := by
  have hlist : Chain.listOf (os.map .observer) = os := by
    induction os with
    | nil => rfl
    | cons o os ih => exact congrArg (o :: ·) ih
  exact hlist

/-- To keep what is told and what each observer answers does not change a run. -/
theorem runSuite_minuted :
    let minuted := runSuite b notify.minuted selection suite (.unasked os, []) world
    let run := runSuite b (Chain.notify notify) selection suite (.row os) world
    minuted.1 = run.1 ∧ Minuted.Likens minuted.2 run.2 := by
  have hlikens : RunLikens b notify.minuted b (Chain.notify notify) suite Minuted.Likens := by
    apply RunLikens.of_tell
    · exact fun h => h.world
    · exact fun h => h.desk
    · exact fun _ _ _ _ h => ⟨rfl, rfl, h.summary, h.observers⟩
    · exact fun e _ _ h => h.tell e
  have hstart : Minuted.Likens (.start (.unasked os, []) world) (.start (.row os) world) := by
    refine ⟨rfl, rfl, rfl, ?_⟩
    rw [Running.start, Running.start, Chain.unasked, Chain.toList_row, Chain.toList_row, List.map_map]
    exact List.map_id os
  exact hlikens.run selection (fun h => h.summary) _ _ world world hstart

theorem runSuite_counted :
    Minuted.Counted (runSuite b notify.minuted selection suite (.unasked os, []) world).2 := by
  apply runSuite_keeps
  · intro s world desk h
    exact ⟨h.summary, h.answers⟩
  · intro e s h
    exact h.tell e
  · refine ⟨rfl, iff_of_true rfl ?_⟩
    intro o ho
    rw [Running.start, Chain.unasked, Chain.toList_row] at ho
    obtain ⟨o', -, rfl⟩ := List.mem_map.1 ho
    exact nofun

theorem runSuite_summary {notify : Notify τ ω} {observer : τ} {summary : Summary}
    (h : (runSuite b notify selection suite observer world).1 = .ok summary) :
    (runSuite b notify selection suite observer world).2.summary = summary := by
  obtain ⟨s, -, hrun⟩ := runSuite_ok b notify selection suite h
  rw [hrun] at h ⊢
  exact Except.ok.inj h

/-- In a run that comes to its end the reports that are told are those of its turns. -/
theorem forall_reports_iff {notify : Notify τ ω} {observer : τ} {summary : Summary} {good : PathReport → Prop}
    (h : (runSuite b notify.keeping selection suite (observer, []) world).1 = .ok summary) :
    (∀ report ∈ (runSuite b notify.keeping selection suite (observer, []) world).2.reports, good report) ↔
      ∀ t ∈ suiteTurns b notify.keeping selection suite (observer, []) world,
        ∃ report, t.result b suite = .ok report ∧ good report := by
  have hturns := (runSuite_ok_iff b notify.keeping selection suite (observer, []) world).1 ⟨summary, h⟩
  rw [told_reports]
  simp only [List.mem_filterMap]
  constructor
  · intro hgood t ht
    obtain ⟨report, hresult⟩ := hturns t ht
    exact ⟨report, hresult, hgood report ⟨t, ht, by rw [hresult]; rfl⟩⟩
  · rintro hgood report ⟨t, ht, hsome⟩
    obtain ⟨report', hresult, hgood⟩ := hgood t ht
    rw [hresult] at hsome
    cases hsome
    exact hgood

/-- A run is a success if every path comes to a report of no failure and every observer answers well. -/
theorem runSuite_success_iff :
    let minuted := runSuite b notify.minuted selection suite (.unasked os, []) world
    Ending.ofResult minuted.1 = .success ↔
      (∀ t ∈ suiteTurns b notify.minuted selection suite (.unasked os, []) world,
        ∃ report, t.result b suite = .ok report ∧ (report.outcome = .passed ∨ report.outcome = .deferred)) ∧
      Satisfied minuted.2.observer.1.toList := by
  intro minuted
  have hcounted : Minuted.Counted minuted.2 := runSuite_counted b notify selection suite os world
  have hunfailed : ∀ report ∈ minuted.2.reports, ¬ report.outcome.isFailure → report.tally.failed = 0 :=
    reports_unfailed b (Chain.notify notify.answering) selection suite (.unasked os) world
  have hsuccess : minuted.2.summary.isSuccess ↔
      (∀ report ∈ minuted.2.reports, report.outcome = .passed ∨ report.outcome = .deferred) ∧
        Satisfied minuted.2.observer.1.toList := by
    rw [hcounted.summary, Summary.isSuccess_totals hunfailed, hcounted.answers]
    simp only [Outcome.not_isFailure_iff]
  cases hrun : minuted.1 with
  | error p =>
    refine iff_of_false nofun ?_
    rintro ⟨hturns, -⟩
    obtain ⟨summary, hok⟩ := (runSuite_ok_iff b notify.minuted selection suite (.unasked os, []) world).2
      fun t ht => (hturns t ht).imp fun _ h => h.1
    cases hok.symm.trans hrun
  | ok summary =>
    have hend : minuted.2.summary = summary := runSuite_summary b selection suite world hrun
    have hreports : (∀ report ∈ minuted.2.reports, report.outcome = .passed ∨ report.outcome = .deferred) ↔ _ :=
      forall_reports_iff b selection suite world hrun
    rw [hend, hreports] at hsuccess
    rw [Ending.ofResult_eq_success]
    constructor
    · rintro ⟨_, ⟨⟩, hsummary⟩
      exact hsuccess.1 hsummary
    · intro hgood
      exact ⟨summary, rfl, hsuccess.2 hgood⟩

end Minutes

section Startup

theorem isOk_bind {ε β γ : Type} {x : Except ε β} {f : β → Except ε γ} :
    (x >>= f).isOk ↔ ∃ y, x = .ok y ∧ (f y).isOk := by
  cases x with
  | error e => simp [bind, Except.bind, Except.isOk, Except.toBool]
  | ok y => simp [bind, Except.bind]

theorem isOk_map {ε β γ : Type} {x : Except ε β} {f : β → γ} : (x.map f).isOk = x.isOk := by
  cases x <;> rfl

theorem isOk_mapError {ε ε' β : Type} {x : Except ε β} {f : ε → ε'} : (x.mapError f).isOk = x.isOk := by
  cases x <;> rfl

theorem isOk_mapM {ε β γ : Type} {f : β → Except ε γ} (xs : List β) :
    (xs.mapM f).isOk ↔ ∀ x ∈ xs, (f x).isOk := by
  induction xs with
  | nil => simp [pure, Except.pure, Except.isOk, Except.toBool]
  | cons x xs ih =>
    rw [List.mapM_cons, isOk_bind, List.forall_mem_cons, ← ih]
    cases hx : f x with
    | error e => simp [Except.isOk, Except.toBool]
    | ok y =>
      cases hxs : xs.mapM f with
      | error e => simp [bind, Except.bind, Except.isOk, Except.toBool]
      | ok ys => simp [bind, Except.bind, pure, Except.pure, Except.isOk, Except.toBool]

def Arguments.lists (a : Arguments) : List String := a.topics.toList ++ a.stories.toList ++ a.paths.toList

section Readiness

variable [Dialect]

def Pattern.Readable (list : String) : Prop :=
  ∀ entry ∈ Pattern.entries list, (Pattern.ofText entry).isOk

theorem Filters.patterns?_isOk (list? : Option String) :
    (Filters.patterns? list?).isOk ↔ ∀ list ∈ list?, Pattern.Readable list := by
  cases list? with
  | none => simp [patterns?, Except.isOk, Except.toBool]
  | some list =>
    rw [patterns?, isOk_map, Pattern.ofList, isOk_mapM]
    simp [Pattern.Readable]

theorem Arguments.filters_isOk (a : Arguments) : a.filters.isOk ↔ ∀ list ∈ a.lists, Pattern.Readable list := by
  have hthree (x y z : Except RunFault (Option (List Pattern))) :
      (do return (⟨← x, ← y, ← z⟩ : Filters) : Except RunFault Filters).isOk ↔ x.isOk ∧ y.isOk ∧ z.isOk := by
    cases x <;> cases y <;> cases z <;> simp [bind, Except.bind, pure, Except.pure, Except.isOk, Except.toBool]
  rw [filters, isOk_mapError, Filters.ofLists, hthree]
  simp only [Filters.patterns?_isOk, lists, List.forall_mem_append, Option.mem_toList, Option.mem_def, and_assoc]

/-- Nothing stands in the way of a run: the patterns can be read, the settings loaded, and the directory for
transcripts made, if there is to be one. -/
structure Arguments.Ready (load : Settings.Loader) (a : Arguments) (env : Environment) (fs : Files) : Prop where
  patterns : ∀ list ∈ a.lists, Pattern.Readable list
  settings : (load a.config env fs).isOk
  directory : ∀ settings, load a.config env fs = .ok settings →
    ∀ dir ∈ (settings.overriddenBy a.settings).transcriptsDir, (fs.makePath dir).1.isOk

end Readiness

structure Launch where
  selection : Selection
  settings : Settings
  outlets : List Outlet
  files : Files

namespace Launch

variable (l : Launch) (b : Backend α δ ω) (suite : Suite α) (world : ω)

/-- The run, with all that the outlets are told, and with what each of them answers. -/
def run : Except Panic Summary × Minuted Outlet (ω × Files) :=
  runSuite b.beside (Outlet.notify.beside : Notify Outlet (ω × Files)).minuted l.selection suite
    (.unasked l.outlets, []) (world, l.files)

def turns : List (PathTurn α (ω × Files)) :=
  suiteTurns b.beside (Outlet.notify.beside : Notify Outlet (ω × Files)).minuted l.selection suite
    (.unasked l.outlets, []) (world, l.files)

def session (r : Except Panic Summary × Minuted Outlet (ω × Files)) : Session ω where
  ending := .ofResult r.1
  settings := l.settings
  console := Harness.consoleText (.row (r.2.observer.1.toList.map Prod.fst))
  files := r.2.world.2
  world := r.2.world.1

theorem run_success_iff :
    (l.session (l.run b suite world)).ending = .success ↔
      (∀ t ∈ l.turns b suite world, ∃ report, t.result b.beside suite = .ok report ∧
        (report.outcome = .passed ∨ report.outcome = .deferred)) ∧
      Satisfied (l.run b suite world).2.observer.1.toList :=
  runSuite_success_iff b.beside Outlet.notify.beside l.selection suite l.outlets (world, l.files)

end Launch

theorem Ending.exitCode_eq_zero {ending : Ending} : ending.exitCode = 0 ↔ ending = .success := by
  cases ending <;> simp [exitCode]

namespace Harness

section Outlets

variable (sink : Sink) (fs : Files)

theorem outlets_isOk (settings : Settings) :
    (outlets sink settings fs).1.isOk ↔ ∀ dir ∈ settings.transcriptsDir, (fs.makePath dir).1.isOk := by
  unfold outlets
  cases settings.transcriptsDir with
  | none => simp [Except.isOk, Except.toBool]
  | some dir =>
    rw [isOk_map, Writer.new]
    rcases hmade : fs.makePath dir with ⟨_ | _, fs'⟩ <;> simp [Except.isOk, Except.toBool, hmade]

theorem outlets_files (settings : Settings) : (outlets sink settings fs).2.SameFiles fs := by
  unfold outlets
  cases settings.transcriptsDir with
  | none => exact fun _ _ => Iff.rfl
  | some dir =>
    have hfiles : (fs.makePath dir).2.SameFiles fs := Files.sameFiles_makePath dir
    unfold Writer.new
    rcases hmade : fs.makePath dir with ⟨_ | _, fs'⟩ <;> rw [hmade] at hfiles <;> dsimp only <;> rw [hmade] <;>
      exact hfiles

theorem consoleText_row (c : Chain Outlet) : consoleText (.row c.toList) = consoleText c := by
  rw [consoleText, Chain.toList_row]
  rfl

end Outlets

section Launching

variable [Dialect]

def launch? (load : Settings.Loader) (sink : Sink) (a : Arguments) (env : Environment) (fs : Files) :
    Option Launch := do
  let (filters, settings) ← (prepare load a env fs).toOption
  let (members, fs) := outlets sink settings fs
  return ⟨filters.selection, settings, ← members.toOption, fs⟩

variable (load : Settings.Loader) (sink : Sink) (drivers : Settings → Backend α δ ω) (a : Arguments)
  (env : Environment) (suite : Suite α) (world : ω) (fs : Files)

theorem launch?_isSome_iff : (launch? load sink a env fs).isSome ↔ a.Ready load env fs := by
  have hready : a.Ready load env fs ↔ a.filters.isOk ∧ (load a.config env fs).isOk ∧
      ∀ settings, load a.config env fs = .ok settings →
        (outlets sink (settings.overriddenBy a.settings) fs).1.isOk := by
    simp only [a.filters_isOk, outlets_isOk]
    exact ⟨fun h => ⟨h.patterns, h.settings, h.directory⟩, fun h => ⟨h.1, h.2.1, h.2.2⟩⟩
  rw [hready, launch?, prepare]
  cases a.filters with
  | error e => simp [bind, Except.bind, Except.toOption, Except.isOk, Except.toBool]
  | ok filters =>
    cases load a.config env fs with
    | error e => simp [bind, Except.bind, Except.toOption, Except.isOk, Except.toBool]
    | ok settings =>
      rcases houtlets : outlets sink (settings.overriddenBy a.settings) fs with ⟨_ | members, fs'⟩ <;>
        simp [bind, Except.bind, pure, Except.pure, Except.toOption, Except.isOk, Except.toBool, houtlets]

theorem runOn_launch {l : Launch} (h : launch? load sink a env fs = some l) :
    runOn load sink drivers a env suite world fs = l.session (l.run (drivers l.settings) suite world) := by
  unfold launch? at h
  unfold runOn
  rcases hprepare : prepare load a env fs with e | ⟨filters, settings⟩
  · rw [hprepare] at h
    cases h
  · rcases houtlets : outlets sink settings fs with ⟨_ | members, fs'⟩
    · simp [hprepare, houtlets, bind, Except.toOption] at h
    · simp only [hprepare, houtlets, bind, Except.toOption, Option.bind_some] at h
      cases h
      obtain ⟨hresult, hlikens⟩ := runSuite_minuted (drivers settings).beside
        (Outlet.notify.beside : Notify Outlet (ω × Files)) filters.selection suite members (world, fs')
      dsimp only
      rw [houtlets, Launch.session, Launch.run]
      dsimp only
      rw [hresult, hlikens.world, hlikens.observers, consoleText_row]

/-- A run that cannot start makes no drivers, reports nothing and writes no file. -/
theorem runOn_aborted (h : launch? load sink a env fs = none) :
    let session := runOn load sink drivers a env suite world fs
    (∃ e, session.ending = .aborted e) ∧ session.world = world ∧ session.console = sink.text ∧
      session.files.SameFiles fs := by
  unfold launch? at h
  unfold runOn
  rcases hprepare : prepare load a env fs with e | ⟨filters, settings⟩
  · exact ⟨⟨e, rfl⟩, rfl, rfl, fun _ _ => Iff.rfl⟩
  · have hfiles : (outlets sink settings fs).2.SameFiles fs := outlets_files sink fs settings
    rcases houtlets : outlets sink settings fs with ⟨e | members, fs'⟩
    · rw [houtlets] at hfiles
      dsimp only
      rw [houtlets]
      exact ⟨⟨e, rfl⟩, rfl, rfl, hfiles⟩
    · simp [hprepare, houtlets, bind, pure, Except.toOption] at h

end Launching

end Harness

end Startup

end Storyline
