import Storyline.Outlet
import Storyline.Proofs.Announcements
import Storyline.Proofs.Isolation

/-! Whoever watches a run has no influence on it. Observers may be of any kind and answer what they like; as
long as their world is apart from that of the drivers, the same calls are made, the same is told, and the same
is counted, but for the errors that the observers themselves have answered. -/

namespace Storyline

variable {α δ ω κ κ' τ τ' : Type}

/-- The totals without what observers had to say to them. -/
def Summary.unreported (s : Summary) : Summary := { s with reportErrors := 0 }

theorem Summary.unreported_count (s : Summary) (e : Event) :
    (s.count e).unreported = s.unreported.count e := by
  cases e with
  | story description deferred => cases deferred <;> rfl
  | _ => rfl

theorem PathTurn.contained_of_isOk {b : Backend α δ ω} {suite : Suite α} {t : PathTurn α ω}
    (h : (t.result b suite).isOk) : ∀ p, ¬ Escapes (t.calls b suite) p := by
  refine (t.result_ok_iff b suite).1 ?_
  cases hresult : t.result b suite with
  | ok report => exact ⟨report, rfl⟩
  | error p =>
    rw [hresult] at h
    cases h

section Apart

/-- The scene of a driver whose calls are written down, as it is without a world that the driver never
touches. -/
def Scene.apart (s : Scene (Nat × δ) (List (Called α) × ω × κ)) : Scene (Nat × δ) (List (Called α) × ω) :=
  ⟨s.driver, (s.world.1, s.world.2.1), s.desk⟩

variable (b : Backend α δ ω)

theorem apart_likens :
    (b.beside : Backend α δ (ω × κ)).watched.Likens b.watched (fun s' s => s'.apart = s) fun _ => True where
  record := by
    rintro f s' _ rfl
    rfl
  wait := by
    rintro s' _ rfl
    exact ⟨rfl, rfl⟩
  scribingOn := by
    rintro s' _ rfl
    exact ⟨rfl, rfl⟩
  scribingOff := by
    rintro s' _ rfl
    exact ⟨rfl, rfl⟩
  perform := by
    rintro a - s' _ rfl
    exact ⟨rfl, rfl⟩
  results := by
    rintro s' _ rfl
    exact ⟨rfl, rfl⟩

/-- A path does not depend on the world of others. -/
theorem runPath_apart (suite : Suite α) (topic : Topic α) (story : Story α) (path : Path α)
    (world : List (Called α) × ω × κ) (desk : Desk) :
    let r := runPath (b.beside : Backend α δ (ω × κ)).watched suite topic story path world desk
    (r.1, (r.2.1.1, r.2.1.2.1), r.2.2) = runPath b.watched suite topic story path (world.1, world.2.1) desk := by
  intro r
  obtain ⟨earlier, world, shared⟩ := world
  cases hmade : (b.make world desk.slots.next).result with
  | error p =>
    have hbeside : ((b.beside : Backend α δ (ω × κ)).make (world, shared) desk.slots.next).result = .error p :=
      hmade
    simp only [r, runPath_unmade b.watched suite topic story path (watched_unmade b hmade),
      runPath_unmade b.beside.watched suite topic story path (watched_unmade b.beside hbeside)]
    rfl
  | ok driver =>
    have hbeside : ((b.beside : Backend α δ (ω × κ)).make (world, shared) desk.slots.next).result = .ok driver :=
      hmade
    set made := b.watched.make (earlier, world) desk.slots.next with hset
    obtain ⟨hresult, hscene⟩ := Performing.likens_playPath (apart_likens b) suite topic path (fun _ _ => trivial)
      ⟨(drivers earlier + 1, driver), (made.state.1, made.state.2, shared), desk.takeAll made.sent⟩
      ⟨(drivers earlier + 1, driver), made.state, desk.takeAll made.sent⟩ rfl
    obtain ⟨houtcome, hend⟩ := Performing.likens_conclude (apart_likens b) path hresult hscene
    rw [runPath_made b.watched suite topic story path (watched_made b hmade)]
    simp only [r, runPath_made b.beside.watched suite topic story path (watched_made b.beside hbeside)]
    unfold ending
    rw [← hset, ← houtcome, ← hend]
    rfl

end Apart

/-- A run whose calls are written down, with someone who keeps what is told, in a world that drivers and
observers have one part of each. -/
abbrev Attended (α ω κ τ : Type) := Running (τ × List Event) (List (Called α) × ω × κ)

/-- Two runs have come to the same point, with observers of their own. -/
structure Attended.Akin (s' : Attended α ω κ' τ') (s : Attended α ω κ τ) : Prop where
  calls : s'.world.1 = s.world.1
  world : s'.world.2.1 = s.world.2.1
  desk : s'.desk = s.desk
  told : s'.told = s.told
  summary : s'.summary.unreported = s.summary.unreported

def Running.close (notify : Notify τ ω) (s : Running τ ω) : Running τ ω := s.tell notify (.finish s.summary)

section Akin

variable (b : Backend α δ ω) (notify : Notify τ κ) (notify' : Notify τ' κ') (selection : Selection)
  (suite : Suite α)

theorem Attended.told_tell (e : Event) (s : Attended α ω κ τ) :
    Running.told (s.tell notify.beside.keeping.beside e) = s.told ++ [e] := rfl

theorem Attended.summary_tell (e : Event) (s : Attended α ω κ τ) :
    (s.tell notify.beside.keeping.beside e).summary.unreported = s.summary.unreported.count e := by
  rw [← Summary.unreported_count]
  rfl

theorem Attended.Akin.tell {s' : Attended α ω κ' τ'} {s : Attended α ω κ τ} (h : s'.Akin s) (e : Event) :
    Attended.Akin (s'.tell notify'.beside.keeping.beside e) (s.tell notify.beside.keeping.beside e) where
  calls := h.calls
  world := h.world
  desk := h.desk
  told := by rw [told_tell, told_tell, h.told]
  summary := by rw [summary_tell, summary_tell, h.summary]

theorem Attended.Akin.close {s' : Attended α ω κ' τ'} {s : Attended α ω κ τ} (h : s'.Akin s) :
    (s'.close notify'.beside.keeping.beside).summary.unreported =
      (s.close notify.beside.keeping.beside).summary.unreported := by
  unfold Running.close
  rw [summary_tell, summary_tell, h.summary]
  rfl

theorem akin_runLikens :
    RunLikens (b.beside : Backend α δ (ω × κ')).watched notify'.beside.keeping.beside
      (b.beside : Backend α δ (ω × κ)).watched notify.beside.keeping.beside suite Attended.Akin where
  desk := fun h => h.desk
  reseat := fun f _ _ h => ⟨h.calls, h.world, congrArg f h.desk, h.told, h.summary⟩
  tell := fun e _ _ h => h.tell notify notify' e
  path := by
    intro topic story path s' s h
    have hboth : (let r' := runPath (b.beside : Backend α δ (ω × κ')).watched suite topic story path s'.world s'.desk
        (r'.1, (r'.2.1.1, r'.2.1.2.1), r'.2.2)) =
        let r := runPath (b.beside : Backend α δ (ω × κ)).watched suite topic story path s.world s.desk
        (r.1, (r.2.1.1, r.2.1.2.1), r.2.2) := by
      rw [runPath_apart b suite topic story path s'.world s'.desk, h.calls, h.world, h.desk]
      exact (runPath_apart b suite topic story path s.world s.desk).symm
    unfold runSelectedPath
    rcases hr' : runPath b.beside.watched suite topic story path s'.world s'.desk with ⟨r', world', desk'⟩
    rcases hr : runPath b.beside.watched suite topic story path s.world s.desk with ⟨r, world, desk⟩
    rw [hr', hr] at hboth
    simp only [Prod.mk.injEq] at hboth
    obtain ⟨rfl, ⟨hcalls, hworld⟩, rfl⟩ := hboth
    have hafter : Attended.Akin { s' with world := world', desk := desk' } { s with world, desk := desk' } :=
      ⟨hcalls, hworld, rfl, h.told, h.summary⟩
    cases r' with
    | error p => exact ⟨rfl, hafter⟩
    | ok report => exact ⟨rfl, hafter.tell notify notify' (.path report)⟩

/-- If one of two runs comes to its end, so does the other, and from the same point. -/
theorem runSuite_akin (world : ω) (observer : τ) (shared : κ) (observer' : τ') (shared' : κ')
    {summary : Summary}
    (hok : (runSuite (b.beside : Backend α δ (ω × κ)).watched notify.beside.keeping.beside selection suite
      (observer, []) ([], world, shared)).1 = .ok summary) :
    ∃ (s' : Attended α ω κ' τ') (s : Attended α ω κ τ), s'.Akin s ∧
      runSuite b.beside.watched notify.beside.keeping.beside selection suite (observer, []) ([], world, shared) =
        (.ok (s.close notify.beside.keeping.beside).summary, s.close notify.beside.keeping.beside) ∧
      runSuite b.beside.watched notify'.beside.keeping.beside selection suite (observer', []) ([], world, shared') =
        (.ok (s'.close notify'.beside.keeping.beside).summary, s'.close notify'.beside.keeping.beside) := by
  obtain ⟨s, htopics, hrun⟩ := runSuite_ok b.beside.watched notify.beside.keeping.beside selection suite hok
  obtain ⟨hresult, hakin⟩ := (akin_runLikens b notify notify' suite).topics selection
    (.start (observer', []) ([], world, shared')) (.start (observer, []) ([], world, shared))
    ⟨rfl, rfl, rfl, rfl, rfl⟩
  rw [htopics] at hresult hakin
  refine ⟨_, s, hakin, hrun, ?_⟩
  rcases htopics' : (suite.topics.forM (runTopic b.beside.watched notify'.beside.keeping.beside selection suite))
    (.start (observer', []) ([], world, shared')) with ⟨r', s'⟩
  rw [htopics'] at hresult
  obtain rfl : r' = .ok () := hresult
  rw [runSuite_eq, htopics']
  rfl

theorem finish_not_mem_topicProgram (topic : Topic α) : Announcement.finish ∉ selection.topicProgram topic := by
  by_cases hnone : selection.stories topic = []
  · simp [Selection.topicProgram, hnone]
  · have hstory (story : Story α) : Announcement.finish ∉ selection.storyProgram story := by
      unfold Selection.storyProgram
      split <;> simp
    simp [selection.topicProgram_eq hnone, hstory]

end Akin

/-- Of two runs that no panic escapes from and that differ in their observers alone, each comes to its end. The
same calls are made to the drivers in the same order, and leave the same world behind. The observers are told
the same events with the same reports and transcripts, and one end, where the totals and the summaries that are
given differ at most in the number of errors that were answered. To write the calls down does not change a run. -/
theorem observers_without_influence (b : Backend α δ ω) (selection : Selection) (suite : Suite α) (world : ω)
    (notify : Notify τ κ) (observer : τ) (shared : κ) (notify' : Notify τ' κ') (observer' : τ') (shared' : κ')
    (hcontained : ∀ t ∈ suiteTurns (b.beside : Backend α δ (ω × κ)) notify.beside.keeping selection suite
      (observer, []) (world, shared), ∀ p, ¬ Escapes (t.calls b.beside suite) p) :
    let run := runSuite b.beside notify.beside.keeping selection suite (observer, []) (world, shared)
    let run' := runSuite b.beside notify'.beside.keeping selection suite (observer', []) (world, shared')
    let watched := runSuite b.beside.watched notify.beside.keeping.beside selection suite (observer, [])
      ([], world, shared)
    let watched' := runSuite b.beside.watched notify'.beside.keeping.beside selection suite (observer', [])
      ([], world, shared')
    ((watched.1, watched.2.unwatched) = run ∧ (watched'.1, watched'.2.unwatched) = run') ∧
    watched.2.world.1 = watched'.2.world.1 ∧ run.2.world.1 = run'.2.world.1 ∧
    ∃ events totals totals' summary summary',
      run.1 = .ok summary ∧ run'.1 = .ok summary' ∧
      run.2.told = events ++ [.finish totals] ∧ run'.2.told = events ++ [.finish totals'] ∧
      (∀ e ∈ events, e.announcement ≠ .finish) ∧
      totals.unreported = totals'.unreported ∧ summary.unreported = summary'.unreported := by
  intro run run' watched watched'
  have hwatched : (watched.1, watched.2.unwatched) = run :=
    runSuite_watched b.beside notify.beside.keeping selection suite (observer, []) [] (world, shared)
  have hwatched' : (watched'.1, watched'.2.unwatched) = run' :=
    runSuite_watched b.beside notify'.beside.keeping selection suite (observer', []) [] (world, shared')
  obtain ⟨summary, hok⟩ : ∃ summary, run.1 = .ok summary := by
    refine (runSuite_ok_iff b.beside notify.beside.keeping selection suite (observer, []) (world, shared)).2 ?_
    exact fun t ht => (t.result_ok_iff b.beside suite).2 (hcontained t ht)
  have hok_watched : watched.1 = .ok summary := (congrArg Prod.fst hwatched).trans hok
  obtain ⟨s', s, hakin, hend, hend'⟩ :=
    runSuite_akin b notify notify' selection suite world observer shared observer' shared' hok_watched
  obtain ⟨hend, hend'⟩ : watched = _ ∧ watched' = _ := ⟨hend, hend'⟩
  have hrun : run = (.ok (s.close notify.beside.keeping.beside).summary,
      Running.unwatched (s.close notify.beside.keeping.beside)) := by
    rw [← hwatched, hend]
  have hrun' : run' = (.ok (s'.close notify'.beside.keeping.beside).summary,
      Running.unwatched (s'.close notify'.beside.keeping.beside)) := by
    rw [← hwatched', hend']
  have htold : run.2.told = s.told ++ [.finish s.summary] := by
    rw [hrun]
    exact Attended.told_tell notify (.finish s.summary) s
  have htold' : run'.2.told = s.told ++ [.finish s'.summary] := by
    rw [hrun', ← hakin.told]
    exact Attended.told_tell notify' (.finish s'.summary) s'
  have hannounced : s.told.map Event.announcement = suite.topics.flatMap selection.topicProgram := by
    have hprogram := suiteEvents_announced b.beside notify.beside.keeping selection suite
      (observer, []) (world, shared) hok
    rw [← told_runSuite] at hprogram
    change run.2.told.map Event.announcement = _ at hprogram
    rw [htold, List.map_append, Selection.program] at hprogram
    exact List.append_inj_left' hprogram rfl
  refine ⟨⟨hwatched, hwatched'⟩, ?_, ?_, s.told, s.summary, s'.summary, _, _, congrArg Prod.fst hrun,
    congrArg Prod.fst hrun', htold, htold', fun e he hfinish => ?_, hakin.summary.symm,
    (hakin.close notify notify').symm⟩
  · rw [hend, hend']
    exact hakin.calls.symm
  · rw [hrun, hrun']
    exact hakin.world.symm
  · have hmem : Announcement.finish ∈ s.told.map Event.announcement := List.mem_map.2 ⟨e, he, hfinish⟩
    rw [hannounced] at hmem
    obtain ⟨topic, -, htopic⟩ := List.mem_flatMap.1 hmem
    exact finish_not_mem_topicProgram selection topic htopic

namespace Rehearsal

/-- A console, and a writer for a directory that is there. -/
def recorded : Chain Outlet :=
  .chain [.observer (.console {}), .observer (.writer { dir := "out", commit := none })]

/-- Outlets in a world of scripts that has the files for them, with all that they are told. -/
def outletsTold : Notify (Chain Outlet × List Event) (World × Files) :=
  (Notify.beside (Chain.notify Outlet.notify)).keeping

/-- One run is told to an observer that often answers with an error, the other to a console and a writer. -/
theorem mixed_without_influence :
    let run := runSuite backend.beside grumbling.beside.keeping everything mixed (0, []) ({}, {})
    let run' := runSuite backend.beside outletsTold everything mixed (recorded, [])
      ({}, Files.mk [(["out"], .directory)])
    (∀ t ∈ suiteTurns backend.beside grumbling.beside.keeping everything mixed (0, []) ({}, {}),
      ∀ p, ¬ Escapes (t.calls backend.beside mixed) p) ∧
    (∃ events totals totals', run.2.told = events ++ [.finish totals] ∧ run'.2.told = events ++ [.finish totals'] ∧
      totals.unreported = totals'.unreported) ∧
    (run.1.toOption.map (·.reportErrors), run'.1.toOption.map (·.reportErrors)) = (some 5, some 0) := by
  intro run run'
  have hreports : ∀ t ∈ suiteTurns backend.beside grumbling.beside.keeping everything mixed (0, []) ({}, {}),
      (t.result backend.beside mixed).isOk := by decide +kernel
  have hcontained := fun t ht => PathTurn.contained_of_isOk (hreports t ht)
  obtain ⟨-, -, -, events, totals, totals', -, -, -, -, htold, htold', -, htotals, -⟩ :=
    observers_without_influence backend everything mixed {} grumbling 0 {} (Chain.notify Outlet.notify) recorded
      (Files.mk [(["out"], .directory)]) hcontained
  exact ⟨hcontained, ⟨events, totals, totals', htold, htold', htotals⟩, by decide +kernel⟩

end Rehearsal

end Storyline
