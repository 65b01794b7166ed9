import Storyline.Proofs.Announcements
import Storyline.Proofs.Isolation
import Mathlib.Algebra.GroupWithZero.Nat

/-! The totals of a run. They are counted up while it goes on, event by event and answer by answer, and come
to the sums and counts over all that was told and answered. No count goes down, so if words of 64 bits hold the
totals in the end, they do so all the way. With what an outcome says of a path's results the totals decide when
a run is a success. -/

namespace Storyline

variable {α δ ω τ : Type}

/-- The same observers, beside someone who keeps what they answer. -/
def Notify.answering (notify : Notify τ ω) : Notify (τ × List (Except Error Unit)) ω :=
  fun e (observer, answers) world =>
    let (result, observer, world) := notify e observer world
    (result, (observer, answers ++ [result]), world)

def Announcement.isDeferral : Announcement → Bool
  | .story _ deferred => deferred
  | _ => false

def Event.isDeferral (e : Event) : Bool := e.announcement.isDeferral

namespace Running

/-- All that has been answered so far, one answer for each event that was told. -/
def answers (s : Running ((τ × List (Except Error Unit)) × List Event) ω) : List (Except Error Unit) :=
  s.observer.1.2

/-- The run as it is without those who keep events and answers. -/
def unkept (s : Running ((τ × List (Except Error Unit)) × List Event) ω) : Running τ ω :=
  ⟨s.world, s.observer.1.1, s.desk, s.summary⟩

end Running

namespace Summary

/-- What reports, deferred stories and errors of observers come to. -/
def totals (reports : List PathReport) (storiesDeferred reportErrors : Nat) : Summary where
  expectations := {
    passed := (reports.map (·.tally.passed)).sum
    failed := (reports.map (·.tally.failed)).sum
    failure := reports.findSome? (·.tally.failure) }
  pathsRun := reports.length
  pathsFailed := reports.countP (·.outcome.isFailure)
  pathsDeferred := reports.countP (·.outcome = .deferred)
  storiesDeferred := storiesDeferred
  reportErrors := reportErrors

variable (reports : List PathReport) (storiesDeferred reportErrors : Nat)

theorem totals_record (report : PathReport) :
    (totals reports storiesDeferred reportErrors).record report =
      totals (reports ++ [report]) storiesDeferred reportErrors := by
  have hfailure : (reports.findSome? (·.tally.failure)).or report.tally.failure =
      (reports ++ [report]).findSome? (·.tally.failure) := by
    rw [List.findSome?_append, List.findSome?_singleton]
  have hfailed : reports.countP (·.outcome.isFailure) + (if report.outcome.isFailure then 1 else 0) =
      (reports ++ [report]).countP (·.outcome.isFailure) := by
    rw [List.countP_append, List.countP_singleton]
  have hdeferred : reports.countP (·.outcome = .deferred) + (if report.outcome = .deferred then 1 else 0) =
      (reports ++ [report]).countP (·.outcome = .deferred) := by
    rw [List.countP_append, List.countP_singleton]
    simp only [decide_eq_true_eq]
  simp only [record, totals, Tally.merge, hfailure, hfailed, hdeferred, List.map_append, List.map_singleton,
    List.sum_append, List.sum_singleton, List.length_append, List.length_singleton]

theorem totals_count (e : Event) :
    (totals reports storiesDeferred reportErrors).count e =
      totals (reports ++ e.report?.toList) (storiesDeferred + if e.isDeferral then 1 else 0) reportErrors := by
  have hrest (h : e.report? = none) : reports ++ e.report?.toList = reports := by simp [h]
  cases e with
  | path report => exact totals_record reports storiesDeferred reportErrors report
  | story description deferred =>
    rw [hrest rfl]
    cases deferred <;> rfl
  | topic description => rw [hrest rfl]; rfl
  | transcript t => rw [hrest rfl]; rfl
  | finish summary => rw [hrest rfl]; rfl

/-- An event is counted before it is told, and its answer after that. -/
def add (s : Summary) (told : Event × Except Error Unit) : Summary :=
  let counted := s.count told.1
  { counted with reportErrors := counted.reportErrors + if told.2.isOk then 0 else 1 }

end Summary

section Tallied

variable (b : Backend α δ ω) (notify : Notify τ ω) (selection : Selection) (suite : Suite α)
  {s : Running ((τ × List (Except Error Unit)) × List Event) ω}

theorem kept_runLikens :
    RunLikens b notify.answering.keeping b notify suite fun s' s => s'.unkept = s where
  desk := by
    rintro s' _ rfl
    rfl
  reseat := by
    rintro f s' _ rfl
    rfl
  tell := by
    rintro e s' _ rfl
    rfl
  path := by
    rintro topic story path s' _ rfl
    unfold runSelectedPath Running.unkept
    rcases runPath b suite topic story path s'.world s'.desk with ⟨_ | report, world, desk⟩ <;> exact ⟨rfl, rfl⟩

/-- To keep what is told and answered does not change a run. -/
theorem runSuite_kept (observer : τ) (world : ω) :
    let kept := runSuite b notify.answering.keeping selection suite ((observer, []), []) world
    (kept.1, kept.2.unkept) = runSuite b notify selection suite observer world := by
  intro kept
  obtain ⟨hresult, hstate⟩ := (kept_runLikens b notify suite).run selection
    (by rintro s' _ rfl; rfl) ((observer, []), []) observer world world rfl
  exact Prod.ext hresult hstate

theorem Running.summary_announce (notify : Notify τ ω) (e : Event) (s : Running τ ω) :
    (s.announce notify e).summary =
      { s.summary with
        reportErrors := s.summary.reportErrors + if (notify e s.observer s.world).1.isOk then 0 else 1 } := by
  unfold announce
  rcases notify e s.observer s.world with ⟨_ | _, _, _⟩ <;> rfl

/-- The totals are those of all that has been told and answered so far. -/
structure Running.Tallied (s : Running ((τ × List (Except Error Unit)) × List Event) ω) : Prop where
  summary : s.summary = .totals s.reports (s.told.countP Event.isDeferral) (s.answers.countP (!·.isOk))
  answered : s.answers.length = s.told.length

theorem Running.told_tell (e : Event) : (s.tell notify.answering.keeping e).told = s.told ++ [e] :=
  told_announce notify.answering _ e

theorem Running.reports_tell (e : Event) :
    (s.tell notify.answering.keeping e).reports = s.reports ++ e.report?.toList := by
  rw [reports, told_tell, List.filterMap_append]
  cases e <;> rfl

theorem Running.answers_tell (e : Event) :
    (s.tell notify.answering.keeping e).answers = s.answers ++ [(notify e s.observer.1.1 s.world).1] := rfl

theorem Running.summary_tell (notify : Notify τ ω) (e : Event) (s : Running τ ω) :
    (s.tell notify e).summary = s.summary.add (e, (notify e s.observer s.world).1) :=
  summary_announce notify e _

theorem Running.Tallied.tell {notify : Notify τ ω} (h : s.Tallied) (e : Event) :
    (s.tell notify.answering.keeping e).Tallied := by
  have hcount : s.summary.count e = .totals (s.reports ++ e.report?.toList)
      (s.told.countP Event.isDeferral + if e.isDeferral then 1 else 0) (s.answers.countP (!·.isOk)) := by
    rw [h.summary, Summary.totals_count]
  have hsummary : (s.tell notify.answering.keeping e).summary =
      s.summary.add (e, (notify e s.observer.1.1 s.world).1) := Running.summary_tell notify.answering.keeping e s
  refine ⟨?_, ?_⟩
  · rw [hsummary, Summary.add, hcount, Running.reports_tell, Running.told_tell, Running.answers_tell]
    simp only [Summary.totals, List.countP_append, List.countP_singleton]
    cases (notify e s.observer.1.1 s.world).1.isOk <;> rfl
  · rw [Running.answers_tell, Running.told_tell, List.length_append, List.length_append, h.answered]
    rfl

theorem topics_tallied (h : s.Tallied) :
    ((suite.topics.forM (runTopic b notify.answering.keeping selection suite)) s).2.Tallied :=
  topics_keep b notify.answering.keeping selection suite
    (fun _ _ _ hs => ⟨hs.summary, hs.answered⟩) (fun e _ hs => hs.tell e) h

theorem runSuite_tallied (observer : τ) (world : ω) :
    (runSuite b notify.answering.keeping selection suite ((observer, []), []) world).2.Tallied :=
  runSuite_keeps b notify.answering.keeping selection suite
    (fun _ _ _ hs => ⟨hs.summary, hs.answered⟩) (fun e _ hs => hs.tell e) ⟨rfl, rfl⟩

end Tallied

/-- No count has gone down. -/
structure Summary.Grows (s s' : Summary) : Prop where
  passed : s.expectations.passed ≤ s'.expectations.passed
  failed : s.expectations.failed ≤ s'.expectations.failed
  pathsRun : s.pathsRun ≤ s'.pathsRun
  pathsFailed : s.pathsFailed ≤ s'.pathsFailed
  pathsDeferred : s.pathsDeferred ≤ s'.pathsDeferred
  storiesDeferred : s.storiesDeferred ≤ s'.storiesDeferred
  reportErrors : s.reportErrors ≤ s'.reportErrors

namespace Summary

variable {s s' s'' : Summary}

theorem Grows.refl (s : Summary) : s.Grows s := by constructor <;> exact Nat.le_refl _

theorem Grows.trans (h : s.Grows s') (h' : s'.Grows s'') : s.Grows s'' where
  passed := Nat.le_trans h.passed h'.passed
  failed := Nat.le_trans h.failed h'.failed
  pathsRun := Nat.le_trans h.pathsRun h'.pathsRun
  pathsFailed := Nat.le_trans h.pathsFailed h'.pathsFailed
  pathsDeferred := Nat.le_trans h.pathsDeferred h'.pathsDeferred
  storiesDeferred := Nat.le_trans h.storiesDeferred h'.storiesDeferred
  reportErrors := Nat.le_trans h.reportErrors h'.reportErrors

theorem Fits.of_grows (hfits : s'.Fits) (h : s.Grows s') : s.Fits where
  expectations := {
    passed := Nat.lt_of_le_of_lt h.passed hfits.expectations.passed
    failed := Nat.lt_of_le_of_lt h.failed hfits.expectations.failed }
  pathsRun := Nat.lt_of_le_of_lt h.pathsRun hfits.pathsRun
  pathsFailed := Nat.lt_of_le_of_lt h.pathsFailed hfits.pathsFailed
  pathsDeferred := Nat.lt_of_le_of_lt h.pathsDeferred hfits.pathsDeferred
  storiesDeferred := Nat.lt_of_le_of_lt h.storiesDeferred hfits.storiesDeferred
  reportErrors := Nat.lt_of_le_of_lt h.reportErrors hfits.reportErrors

theorem grows_record (s : Summary) (report : PathReport) : s.Grows (s.record report) := by
  constructor <;> first | exact Nat.le_add_right _ _ | exact Nat.le_refl _

theorem grows_count (s : Summary) (e : Event) : s.Grows (s.count e) := by
  cases e with
  | path report => exact grows_record s report
  | story description deferred =>
    cases deferred with
    | false => exact .refl s
    | true => exact { Grows.refl s with storiesDeferred := Nat.le_succ _ }
  | topic description => exact .refl s
  | transcript t => exact .refl s
  | finish summary => exact .refl s

theorem grows_add (s : Summary) (told : Event × Except Error Unit) : s.Grows (s.add told) :=
  (grows_count s told.1).trans { Grows.refl _ with reportErrors := Nat.le_add_right _ _ }

theorem grows_foldl (told : List (Event × Except Error Unit)) (s : Summary) : s.Grows (told.foldl add s) := by
  induction told generalizing s with
  | nil => exact .refl s
  | cons first told ih => exact (grows_add s first).trans (ih (s.add first))

end Summary

/-- The totals are added up from what is told and answered, one event after the other. -/
theorem runSuite_added (b : Backend α δ ω) (notify : Notify τ ω) (selection : Selection) (suite : Suite α)
    (observer : τ) (world : ω) :
    let kept := (runSuite b notify.answering.keeping selection suite ((observer, []), []) world).2
    kept.summary = (kept.told.zip kept.answers).foldl .add {} := by
  intro kept
  suffices h : kept.answers.length = kept.told.length ∧
      kept.summary = (kept.told.zip kept.answers).foldl .add {} from h.2
  refine runSuite_keeps b notify.answering.keeping selection suite
    (P := fun s => s.answers.length = s.told.length ∧ s.summary = (s.told.zip s.answers).foldl .add {})
    (fun _ _ _ hs => hs) (fun e s hs => ?_) ⟨rfl, rfl⟩
  obtain ⟨hlength, hsummary⟩ := hs
  rw [Running.told_tell, Running.answers_tell, Running.summary_tell, List.zip_append hlength.symm,
    List.foldl_append, ← hsummary]
  exact ⟨by simp [hlength], rfl⟩

/-- If words of 64 bits hold the totals in which a run ends, they hold them all the way, so no addition has
overflowed. This is so even if a panic has ended the run. -/
theorem totals_fit_throughout (b : Backend α δ ω) (notify : Notify τ ω) (selection : Selection) (suite : Suite α)
    (observer : τ) (world : ω) :
    let kept := (runSuite b notify.answering.keeping selection suite ((observer, []), []) world).2
    kept.summary.Fits → ∀ n, (((kept.told.zip kept.answers).take n).foldl .add ({} : Summary)).Fits := by
  intro kept hfits n
  have hsplit : kept.summary = ((kept.told.zip kept.answers).drop n).foldl .add
      (((kept.told.zip kept.answers).take n).foldl .add {}) := by
    rw [← List.foldl_append, List.take_append_drop]
    exact runSuite_added b notify selection suite observer world
  rw [hsplit] at hfits
  exact hfits.of_grows (Summary.grows_foldl _ _)

namespace Selection

variable (selection : Selection)

theorem storyProgram_deferrals (story : Story α) :
    (selection.storyProgram story).countP (·.isDeferral) = if story.isDeferred then 1 else 0 := by
  unfold storyProgram
  split
  · rfl
  · simp [Announcement.isDeferral, List.countP_map, Function.comp_def]

theorem topicProgram_deferrals (topic : Topic α) :
    (selection.topicProgram topic).countP (·.isDeferral) = (selection.stories topic).countP (·.isDeferred) := by
  by_cases hnone : selection.stories topic = []
  · simp [topicProgram, hnone]
  · have hstories (stories : List (Story α)) :
        (stories.flatMap selection.storyProgram).countP (·.isDeferral) = stories.countP (·.isDeferred) := by
      induction stories with
      | nil => rfl
      | cons story stories ih =>
        rw [List.flatMap_cons, List.countP_append, ih, storyProgram_deferrals, List.countP_cons, Nat.add_comm]
    rw [selection.topicProgram_eq hnone, List.countP_append, List.countP_cons, hstories]
    rfl

/-- The program announces each selected story that is deferred once. -/
theorem program_deferrals (suite : Suite α) :
    (selection.program suite).countP (·.isDeferral) =
      (suite.topics.flatMap selection.stories).countP (·.isDeferred) := by
  have htopics : (suite.topics.flatMap selection.topicProgram).countP (·.isDeferral) =
      (suite.topics.flatMap selection.stories).countP (·.isDeferred) := by
    simp only [List.countP_flatMap, Function.comp_def, topicProgram_deferrals]
  rw [program, List.countP_append, htopics]
  rfl

end Selection

theorem Outcome.ofResults_isFailure (deferred : Bool) (tally : Tally) :
    (Outcome.ofResults deferred tally).isFailure = tally.isFailure := by
  unfold ofResults
  cases htally : tally.isFailure <;> cases deferred <;> rfl

/-- A path is reported with an error and no results, or as its results say. -/
theorem PathTurn.result_classified {b : Backend α δ ω} {suite : Suite α} {t : PathTurn α ω} {report : PathReport}
    (h : t.result b suite = .ok report) :
    (∃ e, report.outcome = .errored e ∧ report.tally = {}) ∨
      report.outcome = .ofResults (t.path.entries.any Entry.isDeferred) report.tally := by
  have hwatched := congrArg Prod.fst (runPath_watched b suite t.topic t.story t.path [] t.world t.desk)
  obtain ⟨calls, fault, r, -, -, hdecides, hresult⟩ :=
    runPath_follows b suite t.topic t.story t.path [] t.world t.desk
  have hresult : t.result b suite = _ := hwatched.symm.trans hresult
  rw [h] at hresult
  rcases r with p | ⟨outcome, tally⟩
  · cases hresult
  · obtain rfl := Except.ok.inj hresult
    cases fault with
    | none => exact .inr hdecides.2
    | some i => exact .inl ⟨_, hdecides.2⟩

theorem PathTurn.failed_eq_zero {b : Backend α δ ω} {suite : Suite α} {t : PathTurn α ω} {report : PathReport}
    (h : t.result b suite = .ok report) (houtcome : ¬ report.outcome.isFailure) : report.tally.failed = 0 := by
  rcases t.result_classified h with ⟨e, herrored, -⟩ | hresults
  · rw [herrored] at houtcome
    exact absurd rfl houtcome
  · rw [hresults, Outcome.ofResults_isFailure, Tally.isFailure] at houtcome
    simpa using houtcome

theorem Outcome.not_isFailure_iff {outcome : Outcome} :
    ¬ outcome.isFailure ↔ outcome = .passed ∨ outcome = .deferred := by
  cases outcome <;> simp [isFailure]

theorem Summary.isSuccess_totals {reports : List PathReport} {storiesDeferred reportErrors : Nat}
    (hreports : ∀ report ∈ reports, ¬ report.outcome.isFailure → report.tally.failed = 0) :
    (totals reports storiesDeferred reportErrors).isSuccess ↔
      (∀ report ∈ reports, ¬ report.outcome.isFailure) ∧ reportErrors = 0 := by
  have hfailed : (totals reports storiesDeferred reportErrors).pathsFailed = 0 ↔
      ∀ report ∈ reports, ¬ report.outcome.isFailure := List.countP_eq_zero
  have hexpectations (h : ∀ report ∈ reports, ¬ report.outcome.isFailure) :
      ¬ (totals reports storiesDeferred reportErrors).expectations.isFailure := by
    have hsum : (reports.map (·.tally.failed)).sum = 0 := by
      rw [List.sum_eq_zero_iff_forall_eq_nat]
      exact List.forall_mem_map.2 fun report hreport => hreports report hreport (h report hreport)
    simp [totals, Tally.isFailure, hsum]
  rw [← hfailed] at hexpectations ⊢
  rw [isSuccess, Bool.and_eq_true, Bool.and_eq_true, beq_iff_eq, beq_iff_eq, Bool.not_eq_true']
  constructor
  · rintro ⟨⟨hnone, -⟩, herrors⟩
    exact ⟨hnone, herrors⟩
  · rintro ⟨hnone, herrors⟩
    exact ⟨⟨hnone, by simpa using hexpectations hnone⟩, herrors⟩

theorem reports_unfailed (b : Backend α δ ω) (notify : Notify τ ω) (selection : Selection) (suite : Suite α)
    (observer : τ) (world : ω) :
    ∀ report ∈ (runSuite b notify.keeping selection suite (observer, []) world).2.reports,
      ¬ report.outcome.isFailure → report.tally.failed = 0 := by
  intro report hreport
  rw [told_reports] at hreport
  obtain ⟨t, -, hsome⟩ := List.mem_filterMap.1 hreport
  cases hresult : t.result b suite with
  | error p =>
    rw [hresult] at hsome
    cases hsome
  | ok report' =>
    rw [hresult] at hsome
    cases hsome
    exact t.failed_eq_zero hresult

/-- The totals are those of a success if no path has failed so far and no observer. -/
theorem Running.Tallied.isSuccess_iff {s : Running ((τ × List (Except Error Unit)) × List Event) ω}
    (h : s.Tallied)
    (hreports : ∀ report ∈ s.reports, ¬ report.outcome.isFailure → report.tally.failed = 0) :
    s.summary.isSuccess ↔
      (∀ report ∈ s.reports, report.outcome = .passed ∨ report.outcome = .deferred) ∧
      ∀ answer ∈ s.answers, answer = .ok () := by
  have hanswer (answer : Except Error Unit) : ¬ (!answer.isOk) ↔ answer = .ok () := by
    cases answer <;> simp [Except.isOk, Except.toBool]
  rw [h.summary, Summary.isSuccess_totals hreports, List.countP_eq_zero]
  simp only [Outcome.not_isFailure_iff, hanswer]

/-- The summary of a run that comes to its end is exact: it holds the sums and counts over all reports, the
first detail of a failure among them, the number of deferred stories that are selected, and the number of
errors that came back from observers, that of the last event included. The run is a success if and only if
every path has passed or is deferred and every answer was good. To keep what is told and answered does not
change the run. -/
theorem totals_exact (b : Backend α δ ω) (notify : Notify τ ω) (selection : Selection) (suite : Suite α)
    (observer : τ) (world : ω) {summary : Summary}
    (h : (runSuite b notify selection suite observer world).1 = .ok summary) :
    let kept := runSuite b notify.answering.keeping selection suite ((observer, []), []) world
    (kept.1, kept.2.unkept) = runSuite b notify selection suite observer world ∧
    kept.2.answers.length = kept.2.told.length ∧
    summary = .totals kept.2.reports ((suite.topics.flatMap selection.stories).countP (·.isDeferred))
      (kept.2.answers.countP (!·.isOk)) ∧
    (summary.isSuccess ↔
      (∀ report ∈ kept.2.reports, report.outcome = .passed ∨ report.outcome = .deferred) ∧
      ∀ answer ∈ kept.2.answers, answer = .ok ()) := by
  intro kept
  have hkept : (kept.1, kept.2.unkept) = runSuite b notify selection suite observer world :=
    runSuite_kept b notify selection suite observer world
  have hok : kept.1 = .ok summary := (congrArg Prod.fst hkept).trans h
  have hsummary : kept.2.summary = summary := by
    obtain ⟨s, -, hrun⟩ := runSuite_ok b notify.answering.keeping selection suite hok
    obtain hrun : kept = _ := hrun
    rw [hrun] at hok ⊢
    exact Except.ok.inj hok
  have hdeferrals : kept.2.told.countP Event.isDeferral =
      (suite.topics.flatMap selection.stories).countP (·.isDeferred) := by
    have htold := told_runSuite b notify.answering selection suite (observer, []) world
    have hannounced := suiteEvents_announced b notify.answering.keeping selection suite _ _ hok
    rw [← htold] at hannounced
    calc
      kept.2.told.countP Event.isDeferral = (kept.2.told.map Event.announcement).countP (·.isDeferral) := by
        rw [List.countP_map]
        rfl
      _ = _ := by
        rw [← selection.program_deferrals suite]
        exact congrArg _ hannounced
  have htallied : kept.2.Tallied := runSuite_tallied b notify selection suite observer world
  refine ⟨hkept, htallied.answered, ?_, ?_⟩
  · rw [← hsummary, ← hdeferrals]
    exact htallied.summary
  · rw [← hsummary]
    exact htallied.isSuccess_iff (reports_unfailed b notify.answering selection suite (observer, []) world)

namespace Rehearsal

theorem mixed_totals :
    let summary : Summary := {
      expectations := { passed := 3, failed := 1 }
      pathsRun := 5, pathsFailed := 3, pathsDeferred := 1, storiesDeferred := 1, reportErrors := 5 }
    (runSuite backend grumbling everything mixed 0 {}).1 = .ok summary ∧
    let kept := runSuite backend grumbling.answering.keeping everything mixed ((0, []), []) {}
    kept.2.answers.length = kept.2.told.length ∧
    summary = .totals kept.2.reports ((mixed.topics.flatMap everything.stories).countP (·.isDeferred))
      (kept.2.answers.countP (!·.isOk)) := by
  intro summary
  have hok : (runSuite backend grumbling everything mixed 0 {}).1 = .ok summary := by decide +kernel
  obtain ⟨-, hanswered, htotals, -⟩ := totals_exact backend grumbling everything mixed 0 {} hok
  exact ⟨hok, hanswered, htotals⟩

end Rehearsal

end Storyline
