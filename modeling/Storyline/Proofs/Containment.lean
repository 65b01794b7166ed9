import Storyline.Proofs.Calls.Protocol
import Storyline.Proofs.Events

/-! What becomes of errors and panics. A path that is interrupted is reported with an error and without
results, and the run goes on with the next one. What is not contained is a panic while a driver is made or
asked for its results: it ends the run, and the path is not reported at all. -/

namespace Storyline

variable {α δ ω τ : Type}

theorem Outcome.ofResults_ne_errored (deferred : Bool) (tally : Tally) (e : Error) :
    Outcome.ofResults deferred tally ≠ .errored e := by
  unfold ofResults
  split
  · simp
  · split <;> simp

namespace PathTurn

def calls (t : PathTurn α ω) (b : Backend α δ ω) (suite : Suite α) : List (Called α) :=
  (runPath b.watched suite t.topic t.story t.path ([], t.world) t.desk).2.1.1

/-- A report that says how the calls made for a path have gone. -/
structure Accounts (t : PathTurn α ω) (calls : List (Called α)) (report : PathReport) : Prop where
  story : report.story = t.story.description
  description : report.description = t.path.reportedDescription
  /-- An interruption is reported as an error, and no results are. -/
  interrupted : (∃ c ∈ calls, c.fault ≠ none) → report.tally = {} ∧
    ∃ c ∈ calls, ∃ i, c.fault = some i ∧ report.outcome = .errored (i.reported t.path)
  undisturbed : (∀ c ∈ calls, c.fault = none) → ∀ e, report.outcome ≠ .errored e

variable (t : PathTurn α ω) (b : Backend α δ ω) (suite : Suite α)

/-- A path is accounted for, unless one of its calls has ended in a panic that escapes. -/
theorem result_accounts :
    match t.result b suite with
    | .ok report => (∀ p, ¬ Escapes (t.calls b suite) p) ∧ t.Accounts (t.calls b suite) report
    | .error p => Escapes (t.calls b suite) p := by
  have hwatched := congrArg Prod.fst (runPath_watched b suite t.topic t.story t.path [] t.world t.desk)
  obtain ⟨calls, fault, r, hcalls, hfollows, hdecides, hresult⟩ :=
    runPath_follows b suite t.topic t.story t.path [] t.world t.desk
  obtain rfl : t.calls b suite = calls := hcalls
  obtain hresult : t.result b suite = _ := hwatched.symm.trans hresult
  rw [hresult]
  rcases r with p | ⟨outcome, tally⟩
  · exact hdecides.1
  obtain ⟨hcontained, hfault⟩ := hdecides
  refine ⟨hcontained, rfl, rfl, fun hinterrupted => ?_, fun hnone e => ?_⟩
  · cases fault with
    | none =>
      obtain ⟨c, hc, hsome⟩ := hinterrupted
      exact absurd (hfollows.fault_eq_none_iff.1 rfl c hc) hsome
    | some i =>
      obtain ⟨houtcome, htally⟩ := hfault
      obtain ⟨c, hc, hi⟩ := hfollows.fault_mem rfl
      exact ⟨htally, c, hc, i, hi, houtcome⟩
  · obtain rfl := hfollows.fault_eq_none_iff.2 hnone
    obtain rfl : outcome = _ := hfault
    exact Outcome.ofResults_ne_errored _ _ _

theorem accounts_of_result {report : PathReport} (h : t.result b suite = .ok report) :
    t.Accounts (t.calls b suite) report := by
  have haccounts := result_accounts t b suite
  rw [h] at haccounts
  exact haccounts.2

theorem result_ok_iff :
    (∃ report, t.result b suite = .ok report) ↔ ∀ p, ¬ Escapes (t.calls b suite) p := by
  have haccounts := result_accounts t b suite
  cases hresult : t.result b suite with
  | error p =>
    rw [hresult] at haccounts
    constructor
    · rintro ⟨report, hreport⟩
      cases hreport
    · exact fun hcontained => absurd haccounts (hcontained p)
  | ok report =>
    rw [hresult] at haccounts
    exact ⟨fun _ => haccounts.1, fun _ => ⟨report, rfl⟩⟩

end PathTurn

/-- A run gives its summary exactly if no panic escapes from a path. Then every selected path is reported
once, in declaration order, with an error if it was interrupted and only then. Where a panic does escape,
the paths that no panic escapes from are reported all the same. -/
theorem interruptions_contained (b : Backend α δ ω) (notify : Notify τ ω) (selection : Selection)
    (suite : Suite α) (observer : τ) (world : ω) :
    let run := runSuite b notify.keeping selection suite (observer, []) world
    let turns := suiteTurns b notify.keeping selection suite (observer, []) world
    ((∃ summary, run.1 = .ok summary) ↔ ∀ t ∈ turns, ∀ p, ¬ Escapes (t.calls b suite) p) ∧
    (∀ summary, run.1 = .ok summary → turns.map (·.place) = selection.places suite ∧
      List.Forall₂ (fun t report => t.Accounts (t.calls b suite) report) turns run.2.reports) ∧
    ∀ t ∈ turns, (∀ p, ¬ Escapes (t.calls b suite) p) →
      ∃ report ∈ run.2.reports, t.Accounts (t.calls b suite) report := by
  intro run turns
  have hreports : run.2.reports = turns.filterMap fun t => (t.result b suite).toOption :=
    told_reports b notify selection suite observer world
  have hends : (∃ summary, run.1 = .ok summary) ↔ ∀ t ∈ turns, ∃ report, t.result b suite = .ok report :=
    runSuite_ok_iff b notify.keeping selection suite (observer, []) world
  refine ⟨?_, fun summary hok => ⟨suiteTurns_places b notify.keeping selection suite _ _ hok, ?_⟩, ?_⟩
  · simpa only [PathTurn.result_ok_iff] using hends
  · exact (reported_all b notify selection suite observer world hok).imp fun t report hresult =>
      t.accounts_of_result b suite hresult
  · intro t ht hcontained
    obtain ⟨report, hresult⟩ := (t.result_ok_iff b suite).2 hcontained
    refine ⟨report, ?_, t.accounts_of_result b suite hresult⟩
    rw [hreports, List.mem_filterMap]
    exact ⟨t, ht, by rw [hresult]; rfl⟩

namespace Rehearsal

/-- The driver of the first path panics when it is asked for its results. -/
def unanswered : Suite Script :=
  { topics := [
      { description := "T"
        stories := [⟨"s", some (Steps.step "a" [.failResults (.panic (.text "boom"))])⟩,
          ⟨"next", some (Steps.step "b" [])⟩] }] }

/-- The run ends there, without a report of either path. -/
theorem results_panic_ends_run :
    let run := runSuite backend unwatched.keeping everything unanswered ((), []) {}
    let turns := suiteTurns backend unwatched.keeping everything unanswered ((), []) {}
    run.1 = .error (.text "boom") ∧ run.2.reports = [] ∧
    (everything.places unanswered).map (·.2.2.description) = ["a", "b"] ∧
    turns.map (fun t => (t.path.description, (t.calls backend unanswered).map (·.fault))) =
      [("a", [none, none, none, none, none, none, some (.panic (.text "boom"))])] := by
  refine ⟨?_, ?_, ?_, ?_⟩ <;> decide +kernel

end Rehearsal

end Storyline
