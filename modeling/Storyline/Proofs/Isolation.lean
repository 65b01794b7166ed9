import Storyline.Proofs.Calls.Scripts
import Storyline.Proofs.Events

/-! Paths do not influence each other. With drivers that keep to themselves the reports of a run are those
that its paths come to when each of them is run alone, whatever is selected besides. -/

namespace Storyline

variable {α δ ω τ : Type}

/-- A run with isolated drivers comes to its end, and its reports are those of the selected paths in
declaration order, each as the path is reported when it is run alone. -/
theorem reports_isolated {alike : δ → δ → Prop} {usable : ω → Prop} (b : Backend α δ ω)
    (notify : Notify τ ω) (selection : Selection) (suite : Suite α) (observer : τ) (world : ω)
    (hb : b.Isolated alike usable suite.acts) (hnotify : ∀ e o w, usable w → usable (notify e o w).2.2)
    (hworld : usable world) :
    let run := runSuite b notify.keeping selection suite (observer, []) world
    (∃ summary, run.1 = .ok summary) ∧
    ∀ (alone : ω) (desk : Desk), usable alone →
      run.2.reports.map .ok = (selection.places suite).map fun (topic, story, path) =>
        (runPath b suite topic story path alone desk).1 := by
  intro run
  set turns := suiteTurns b notify.keeping selection suite (observer, []) world
  have hpath (t : PathTurn α ω) (hdeclared : t.Declared suite) (husable : usable t.world) {alone : ω}
      (halone : usable alone) (desk : Desk) :=
    runPath_isolated hb suite t.topic t.story
      (Path.acts_declared hdeclared.1 hdeclared.2.1 hdeclared.2.2) husable halone t.desk desk
  have hturns : ∀ t ∈ turns, t.Declared suite ∧ usable t.world :=
    suiteTurns_invariant b notify.keeping selection suite
      (fun t hdeclared husable => (hpath t hdeclared husable husable t.desk).2.2)
      (fun e o w h => hnotify e o.1 w h) (observer, []) hworld
  have hends : ∃ summary, run.1 = .ok summary := by
    refine (runSuite_ok_iff b notify.keeping selection suite (observer, []) world).2 fun t ht => ?_
    obtain ⟨hdeclared, husable⟩ := hturns t ht
    exact (hpath t hdeclared husable husable t.desk).1
  refine ⟨hends, fun alone desk halone => ?_⟩
  obtain ⟨summary, hok⟩ := hends
  have hreported := reported_all b notify selection suite observer world hok
  calc
    run.2.reports.map .ok = turns.map fun t => t.result b suite := by
      rw [← List.forall₂_eq_eq_eq, List.forall₂_map_left_iff, List.forall₂_map_right_iff]
      exact hreported.flip.imp fun report t hresult => hresult.symm
    _ = turns.map fun t => (runPath b suite t.topic t.story t.path alone desk).1 := by
      refine List.map_congr_left fun t ht => ?_
      obtain ⟨hdeclared, husable⟩ := hturns t ht
      exact (hpath t hdeclared husable halone desk).2.1.symm
    _ = (turns.map (·.place)).map fun (topic, story, path) =>
        (runPath b suite topic story path alone desk).1 := by
      rw [List.map_map]
      rfl
    _ = _ := by rw [suiteTurns_places b notify.keeping selection suite _ _ hok]

namespace Rehearsal

/-- Paths that end in many ways, after a hook that sends a note. -/
def mixed : Suite Script :=
  { beforeEach := some [.pass 1, .count "paths"]
    topics := [
      { description := "T"
        before := some [.note "prepared"]
        stories := [
          ⟨"s", some ((Steps.step "a" [.note "done"]).andThen (Steps.fork [
            Steps.step "b" [.raise (.error ⟨.driver "lost", .library⟩)],
            Steps.step "c" [.raise (.panic .other)],
            Steps.step "d" [.fail 1 none],
            Steps.pending "e"]))⟩,
          ⟨"later", none⟩,
          ⟨"last", some (Steps.step "f" [.log "here"])⟩] }] }

/-- All but one of the paths. -/
def mostPaths : Selection := ⟨fun _ => true, fun _ => true, (· != "a > d")⟩

theorem mixed_isolated :
    let run := runSuite backend unwatched.keeping mostPaths mixed ((), []) {}
    backend.Isolated Player.Alike World.Usable mixed.acts ∧ World.Usable {} ∧
    run.2.reports.map .ok = ((mostPaths.places mixed).map fun (topic, story, path) =>
      (runPath backend mixed topic story path {} ⟨.new "", {}, 0⟩).1) ∧
    run.2.reports.map (fun r => (r.description, r.outcome.isFailure, r.tally.passed)) =
      [("a > b", true, 0), ("a > c", true, 0), ("a > e" ++ deferredSuffix, false, 1), ("f", false, 1)] := by
  have hb : backend.Isolated Player.Alike World.Usable mixed.acts := backend_isolated (by decide +kernel)
  obtain ⟨-, hreports⟩ := reports_isolated backend unwatched mostPaths mixed () {} hb (fun _ _ _ h => h) rfl
  exact ⟨hb, rfl, hreports {} ⟨.new "", {}, 0⟩ rfl, by decide +kernel⟩

end Rehearsal

end Storyline
