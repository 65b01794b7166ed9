import Storyline.Proofs.Containment
import Storyline.Proofs.Totals

/-! What is reported of a path. Whether it is deferred is decided twice, by its last entry and by the marker that
is met when it is played. The two agree on every path of a specification, since there nothing comes after a
marker. -/

namespace Storyline

variable {α δ ω : Type}

theorem Steps.routes_deferred (nodes : List (Node α)) :
    ∀ route ∈ routes nodes, route.any Entry.isDeferred = route.getLast?.any Entry.isDeferred := by
  induction nodes using routes.induct
    (motive_1 := fun node =>
      ∀ route ∈ node.routes, route.any Entry.isDeferred = route.getLast?.any Entry.isDeferred) with
  | case1 alternative ih route hroute => exact ih route (by simpa [Node.routes] using hroute)
  | case2 node h => cases node <;> simp_all [Node.routes]
  | case3 => simp [routes]
  | case4 rest => simp [routes]
  | case5 alternative rest ihf ih =>
    simp only [routes, List.forall_mem_append]
    exact ⟨ihf, ih⟩
  | case6 s rest h => simp [routes, h, Entry.isDeferred]
  | case7 s rest h hrest => simp [routes, h, hrest]
  | case8 s rest h hrest ih =>
    intro route hroute
    simp only [routes, h, hrest] at hroute
    obtain ⟨tail, htail, rfl⟩ := List.mem_map.1 hroute
    have hstep : (Entry.step s).isDeferred = false := rfl
    cases tail with
    | nil => rfl
    | cons entry tail =>
      rw [List.any_cons, hstep, Bool.false_or, List.getLast?_cons_cons]
      exact ih _ htail

theorem Story.paths_deferred_iff {story : Story α} {path : Path α} (h : path ∈ story.paths) :
    path.entries.any Entry.isDeferred = path.isDeferred := by
  unfold Story.paths at h
  cases hspec : story.spec with
  | none =>
    rw [hspec] at h
    cases h
  | some spec =>
    rw [hspec, Option.map_some, Option.getD_some, (Steps.paths_eq_routes spec).1] at h
    obtain ⟨route, hroute, rfl⟩ := List.mem_map.1 h
    exact Steps.routes_deferred spec route hroute

namespace PathTurn

variable (t : PathTurn α ω) (b : Backend α δ ω) (suite : Suite α)

/-- What the driver answers when it is asked for its results, if it comes to that. -/
def answer? : Option Tally :=
  let made := b.make t.world t.desk.slots.next
  match made.result with
  | .error _ => none
  | .ok driver =>
      match Performing.playPath b suite t.topic t.path ⟨driver, made.state, t.desk.takeAll made.sent⟩ with
      | (.error _, _) => none
      | (.ok _, s) => ((s.record (·.endPath)).ask b.results).result.toOption

variable {t b suite}

/-- The results in a report are the driver's own, unless an error is reported. -/
theorem answer_of_result {report : PathReport} (h : t.result b suite = .ok report)
    (hresults : ∀ e, report.outcome ≠ .errored e) : t.answer? b suite = some report.tally := by
  unfold result runPath at h
  unfold answer?
  dsimp only at h ⊢
  cases hmade : (b.make t.world t.desk.slots.next).result with
  | error p =>
    rw [hmade] at h
    cases h
  | ok driver =>
    rw [hmade] at h
    dsimp only at h ⊢
    rcases hplayed : Performing.playPath b suite t.topic t.path
      ⟨driver, (b.make t.world t.desk.slots.next).state, t.desk.takeAll (b.make t.world t.desk.slots.next).sent⟩
      with ⟨(e | p) | deferred, s⟩ <;> rw [hplayed] at h
    · cases h
      exact absurd rfl (hresults e)
    · cases h
      exact absurd rfl (hresults _)
    · dsimp only [Performing.conclude] at h
      rw [Performing.call_eq] at h
      rcases hasked : ((s.record (·.endPath)).ask b.results).result with (e | p) | tally <;> rw [hasked] at h
      · cases h
        exact absurd rfl (hresults e)
      · cases h
      · cases h
        dsimp only
        rw [hasked]
        rfl

variable (t b suite)

/-- A report that says of a path what became of it. -/
structure Classified (report : PathReport) : Prop where
  story : report.story = t.story.description
  description : report.description = t.path.description ++ if t.path.isDeferred then deferredSuffix else ""
  /-- There is an error in it exactly if a call was interrupted, and then there are no results. -/
  errored : (∃ c ∈ t.calls b suite, c.fault ≠ none) ↔ ∃ e, report.outcome = .errored e
  empty : (∃ c ∈ t.calls b suite, c.fault ≠ none) → report.tally = {}
  /-- The error is that of a call, or tells of the panic that a call has ended in. -/
  cause : ∀ e, report.outcome = .errored e →
    ∃ c ∈ t.calls b suite, ∃ i, c.fault = some i ∧ e = i.reported t.path
  /-- What interrupted the path was contained. -/
  contained : ∀ p, ¬ Escapes (t.calls b suite) p
  /-- Otherwise the results are the driver's, and the outcome says which way they are. -/
  answered : (∀ c ∈ t.calls b suite, c.fault = none) → t.answer? b suite = some report.tally
  failed : (∀ c ∈ t.calls b suite, c.fault = none) → (report.outcome = .failed ↔ 0 < report.tally.failed)
  deferred : (∀ c ∈ t.calls b suite, c.fault = none) →
    (report.outcome = .deferred ↔ report.tally.failed = 0 ∧ t.path.isDeferred)
  passed : (∀ c ∈ t.calls b suite, c.fault = none) →
    (report.outcome = .passed ↔ report.tally.failed = 0 ∧ ¬ t.path.isDeferred)

end PathTurn

theorem Outcome.ofResults_iff (deferred : Bool) (tally : Tally) :
    (ofResults deferred tally = .failed ↔ 0 < tally.failed) ∧
    (ofResults deferred tally = .deferred ↔ tally.failed = 0 ∧ deferred) ∧
    (ofResults deferred tally = .passed ↔ tally.failed = 0 ∧ ¬ deferred) := by
  by_cases hfailed : 0 < tally.failed
  · have hne : tally.failed ≠ 0 := by omega
    simp [ofResults, Tally.isFailure, hfailed, hne]
  · have heq : tally.failed = 0 := by omega
    cases deferred <;> simp [ofResults, Tally.isFailure, heq]

/-- A path of a story is reported as what it is and as what became of it: deferred in its description exactly if
it ends with a marker, and with an outcome that is an error, a failure, a deferral or a pass, in this order. -/
theorem reports_classified (b : Backend α δ ω) (suite : Suite α) (t : PathTurn α ω) {report : PathReport}
    (hpath : t.path ∈ t.story.paths) (h : t.result b suite = .ok report) : t.Classified b suite report := by
  have haccounts := t.accounts_of_result b suite h
  have hresults (hnone : ∀ c ∈ t.calls b suite, c.fault = none) :
      report.outcome = .ofResults t.path.isDeferred report.tally := by
    rcases t.result_classified h with ⟨e, herrored, -⟩ | hresults
    · exact absurd herrored (haccounts.undisturbed hnone e)
    · rw [hresults, t.story.paths_deferred_iff hpath]
  -- Without an interrupted call there is no error, so a reported error comes from the interruption.
  have herrored {e : Error} (he : report.outcome = .errored e) : ∃ c ∈ t.calls b suite, c.fault ≠ none := by
    by_contra hnone
    exact haccounts.undisturbed (by simpa using hnone) e he
  exact
    { story := haccounts.story
      description := haccounts.description
      errored := by
        constructor
        · intro hinterrupted
          obtain ⟨-, c, -, i, -, he⟩ := haccounts.interrupted hinterrupted
          exact ⟨_, he⟩
        · rintro ⟨e, he⟩
          exact herrored he
      empty := fun hinterrupted => (haccounts.interrupted hinterrupted).1
      cause := by
        intro e he
        obtain ⟨-, c, hc, i, hi, hreported⟩ := haccounts.interrupted (herrored he)
        rw [he] at hreported
        exact ⟨c, hc, i, hi, Outcome.errored.inj hreported⟩
      contained := (t.result_ok_iff b suite).1 ⟨report, h⟩
      answered := fun hnone => PathTurn.answer_of_result h (haccounts.undisturbed hnone)
      failed := fun hnone => by
        rw [hresults hnone]
        exact (Outcome.ofResults_iff _ _).1
      deferred := fun hnone => by
        rw [hresults hnone]
        exact (Outcome.ofResults_iff _ _).2.1
      passed := fun hnone => by
        rw [hresults hnone]
        exact (Outcome.ofResults_iff _ _).2.2 }

namespace Rehearsal

/-- A path that is still to be written has an expectation that fails. -/
def unmet : PathTurn Script World :=
  let story : Story Script := ⟨"s", some ((Steps.step "a" [.fail 1 none]).andThen (Steps.pending "b"))⟩
  { topic := { description := "T", stories := [story] }
    story
    path := ⟨[.step { description := "a", action := some [.fail 1 none] },
      .step { description := "b", action := none }, .deferred]⟩
    world := {}
    desk := ⟨.new "T", {}, 0⟩ }

/-- It fails, and is marked as deferred all the same. -/
theorem unmet_classified :
    let report : PathReport := ⟨"s", "a > b" ++ deferredSuffix, .failed, { failed := 1 }⟩
    unmet.path ∈ unmet.story.paths ∧ unmet.result backend {} = .ok report ∧ unmet.Classified backend {} report := by
  intro report
  have hpath : unmet.path ∈ unmet.story.paths := by
    simp [unmet, Story.paths, Steps.paths, Steps.walk, Node.walk, Steps.step, Steps.pending, Steps.andThen,
      Steps.append, Steps.push, Steps.isTerminated, Node.terminates, Step.isPending]
  have hreport : unmet.result backend {} = .ok report := by decide +kernel
  exact ⟨hpath, hreport, reports_classified backend {} unmet hpath hreport⟩

end Rehearsal

end Storyline
