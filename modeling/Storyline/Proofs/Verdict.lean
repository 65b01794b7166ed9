import Storyline.Harness
import Storyline.Proofs.Chains
import Storyline.Proofs.Totals
import Storyline.Rehearsal.Run

/-! The verdict on the console. It is written while the last event is still being told, so it is that of the
totals up to there. What an observer answers to the last event itself counts towards the ending of the command,
but comes too late for the console. -/

namespace Storyline

variable {α δ ω τ : Type}

namespace Sink

/-- A sink that takes whatever is written. -/
structure Works (s : Sink) : Prop where
  room : s.room = none
  flush : s.flushFails = false

/-- The verdict of a success is the last that is written. -/
def SaysAllOk (s : Sink) : Prop := "ALL OK!\n".toList <:+ s.text.toList

theorem writeLines_works {s : Sink} (h : s.Works) (lines : List String) :
    (s.writeLines lines).2.Works ∧
      (s.writeLines lines).2.text.toList = s.text.toList ++ lines.flatMap fun line => line.toList ++ ['\n'] := by
  induction lines generalizing s with
  | nil => exact ⟨h, (List.append_nil _).symm⟩
  | cons line lines ih =>
    have hwrite : s.write (line ++ "\n") = (.ok (), { s with text := s.text ++ (line ++ "\n") }) := by
      rw [write, h.room]
    obtain ⟨hworks, htext⟩ := ih (s := { s with text := s.text ++ (line ++ "\n") }) ⟨h.room, h.flush⟩
    rw [writeLines, hwrite]
    refine ⟨hworks, htext.trans ?_⟩
    simp [String.toList_append]

end Sink

namespace Console

theorem notify_works (e : Event) {s : Sink} (h : s.Works) : (notify e s).2.Works := by
  unfold notify
  split
  · exact h
  · exact (Sink.writeLines_works h _).1

/-- What is written at the end of a run ends with the verdict on its totals. -/
theorem notify_finish (summary : Summary) {s : Sink} (h : s.Works) :
    (notify (.finish summary) s).2.SaysAllOk ↔ summary.isSuccess := by
  obtain ⟨-, htext⟩ := Sink.writeLines_works h (finishLines summary)
  have hright (text : String) : text.toList <:+ (right text).toList := by
    rw [right, String.toList_append]
    exact List.suffix_append _ _
  have hverdict (line verdict : String) :
      verdict.toList ++ ['\n'] <:+ s.text.toList ++ [line, right verdict].flatMap fun line => line.toList ++ ['\n'] := by
    obtain ⟨margin, hmargin⟩ := hright verdict
    exact ⟨s.text.toList ++ (line.toList ++ ['\n']) ++ margin, by simp [← hmargin]⟩
  change "ALL OK!\n".toList <:+ (s.writeLines (finishLines summary)).2.text.toList ↔ _
  rw [htext, finishLines]
  cases hsuccess : summary.isSuccess with
  | true => simpa using hverdict _ "ALL OK!"
  | false =>
    have hfailed := hverdict (right s!"Expectations Failed: {summary.expectations.failed}") "FAILED!"
    refine iff_of_false (fun hok => ?_) nofun
    have heq := (List.suffix_of_suffix_length_le hok hfailed (by decide)).eq_of_length (by decide)
    exact absurd heq (by decide)

end Console

/-- The observers of one kind are consoles, which only write to their sinks. -/
def Notify.Consoles (notify : Notify τ ω) (console : Sink → τ) : Prop :=
  ∀ e sink w, notify e (console sink) w =
    ((Console.notify e sink).1, console (Console.notify e sink).2, w)

section Verdict

variable {notify : Notify τ ω} {console : Sink → τ} {n : Nat}

theorem Chain.notify_console (h : notify.Consoles console) {c : Chain τ} {sink : Sink}
    (hseat : c.toList[n]? = some (console sink)) (e : Event) (w : ω) :
    (c.notify notify e w).2.1.toList[n]? = some (console (Console.notify e sink).2) := by
  obtain ⟨w', hafter⟩ := Chain.notify_seat notify e hseat w
  rw [h] at hafter
  exact hafter

/-- A console that works has seat `n` among the observers of a run. -/
def Running.Seats (console : Sink → τ) (n : Nat)
    (s : Running ((Chain τ × List (Except Error Unit)) × List Event) ω) : Prop :=
  ∃ sink, s.observer.1.1.toList[n]? = some (console sink) ∧ sink.Works

theorem topics_seat (b : Backend α δ ω) (selection : Selection) (suite : Suite α) (h : notify.Consoles console)
    {s : Running ((Chain τ × List (Except Error Unit)) × List Event) ω} (hseats : s.Seats console n) :
    ((suite.topics.forM (runTopic b (Notify.answering (Chain.notify notify)).keeping selection suite)) s).2.Seats
      console n := by
  refine topics_keep b (Notify.answering (Chain.notify notify)).keeping selection suite
    (fun s _ _ hs => hs) (fun e s hs => ?_) hseats
  obtain ⟨sink, hseat, hworks⟩ := hs
  exact ⟨(Console.notify e sink).2, Chain.notify_console h hseat e s.world, Console.notify_works e hworks⟩

/-- A run that comes to its end has told all but the end of it, with the console in its seat, and then tells
that with the totals up to there. -/
theorem runSuite_closing (b : Backend α δ ω) (selection : Selection) (suite : Suite α)
    (h : notify.Consoles console) {chain : Chain τ} {world : ω} {sink : Sink}
    (hseat : chain.toList[n]? = some (console sink)) (hworks : sink.Works) {summary : Summary}
    (hok : (runSuite b (Notify.answering (Chain.notify notify)).keeping selection suite ((chain, []), []) world).1 =
      .ok summary) :
    let kept := (runSuite b (Notify.answering (Chain.notify notify)).keeping selection suite ((chain, []), []) world).2
    ∃ s : Running ((Chain τ × List (Except Error Unit)) × List Event) ω, s.Tallied ∧ s.Seats console n ∧
      kept = s.tell (Notify.answering (Chain.notify notify)).keeping (.finish s.summary) ∧
      kept.summary = summary := by
  intro kept
  obtain ⟨s, htopics, hend⟩ := runSuite_ok b (Notify.answering (Chain.notify notify)).keeping selection suite hok
  have hstate : kept = s.tell (Notify.answering (Chain.notify notify)).keeping (.finish s.summary) :=
    congrArg Prod.snd hend
  have htallied := topics_tallied b (Chain.notify notify) selection suite
    (s := .start ((chain, []), []) world) ⟨rfl, rfl⟩
  have hseats := topics_seat b selection suite h (s := .start ((chain, []), []) world) ⟨sink, hseat, hworks⟩
  rw [htopics] at htallied hseats
  refine ⟨s, htallied, hseats, hstate, ?_⟩
  have hresult := (congrArg Prod.fst hend).symm.trans hok
  rw [hstate]
  exact Except.ok.inj hresult

theorem Ending.ofResult_eq_success {result : Except Panic Summary} :
    Ending.ofResult result = .success ↔ ∃ summary, result = .ok summary ∧ summary.isSuccess := by
  cases result with
  | error p => simp [ofResult]
  | ok summary => cases hsuccess : summary.isSuccess <;> simp [ofResult, hsuccess]

/-- In a run that comes to its end every console that works is left with the verdict on all that was reported
and on all answers but the last, which comes when the verdict has been written. So the verdict is that of the
ending, unless the only error of the run is the answer to its last event. -/
theorem verdict_before_last_answer (b : Backend α δ ω) (selection : Selection) (suite : Suite α)
    (h : notify.Consoles console) (chain : Chain τ) (world : ω) {sink : Sink}
    (hseat : chain.toList[n]? = some (console sink)) (hworks : sink.Works) {summary : Summary}
    (hok : (runSuite b (Chain.notify notify) selection suite chain world).1 = .ok summary) :
    let run := runSuite b (Chain.notify notify) selection suite chain world
    let kept := runSuite b (Notify.answering (Chain.notify notify)).keeping selection suite ((chain, []), []) world
    (kept.1, kept.2.unkept) = run ∧
    ∃ told : Sink, run.2.observer.toList[n]? = some (console told) ∧
    ∃ earlier last, kept.2.answers = earlier ++ [last] ∧
      (told.SaysAllOk ↔
        (∀ report ∈ kept.2.reports, report.outcome = .passed ∨ report.outcome = .deferred) ∧
        ∀ answer ∈ earlier, answer = .ok ()) ∧
      (Ending.ofResult run.1 = .success ↔ told.SaysAllOk ∧ last = .ok ()) ∧
      ((told.SaysAllOk ↔ Ending.ofResult run.1 = .success) ↔ (told.SaysAllOk → last = .ok ())) := by
  intro run kept
  have hkept : (kept.1, kept.2.unkept) = run := runSuite_kept b (Chain.notify notify) selection suite chain world
  have hok' : kept.1 = .ok summary := (congrArg Prod.fst hkept).trans hok
  obtain ⟨s, htallied, ⟨before, hbefore, hstill⟩, hstate, hsummary⟩ :=
    runSuite_closing b selection suite h hseat hworks hok'
  obtain hstate : kept.2 = s.tell (Notify.answering (Chain.notify notify)).keeping (.finish s.summary) := hstate
  have hreports : kept.2.reports = s.reports := by
    rw [hstate, Running.reports_tell]
    exact List.append_nil _
  have hunfailed := reports_unfailed b (Notify.answering (Chain.notify notify)) selection suite (chain, []) world
  obtain hunfailed : ∀ report ∈ kept.2.reports, ¬ report.outcome.isFailure → report.tally.failed = 0 := hunfailed
  have hfinal : kept.2.Tallied := by
    rw [hstate]
    exact htallied.tell _
  have hseated : run.2.observer.toList[n]? =
      some (console (Console.notify (.finish s.summary) before).2) := by
    rw [← hkept]
    change kept.2.observer.1.1.toList[n]? = _
    rw [hstate]
    exact Chain.notify_console h hbefore (.finish s.summary) s.world
  have hverdict : (Console.notify (.finish s.summary) before).2.SaysAllOk ↔
      (∀ report ∈ kept.2.reports, report.outcome = .passed ∨ report.outcome = .deferred) ∧
      ∀ answer ∈ s.answers, answer = .ok () := by
    rw [Console.notify_finish s.summary hstill, hreports]
    exact htallied.isSuccess_iff (by rwa [← hreports])
  have hanswers : kept.2.answers =
      s.answers ++ [(Chain.notify notify (.finish s.summary) s.observer.1.1 s.world).1] := by
    rw [hstate]
    rfl
  have hending : Ending.ofResult run.1 = .success ↔
      (Console.notify (.finish s.summary) before).2.SaysAllOk ∧
        (Chain.notify notify (.finish s.summary) s.observer.1.1 s.world).1 = .ok () := by
    have hsuccess : Ending.ofResult run.1 = .success ↔ kept.2.summary.isSuccess := by
      rw [Ending.ofResult_eq_success, hsummary, show run.1 = .ok summary from hok]
      simp
    rw [hsuccess, hfinal.isSuccess_iff hunfailed, hverdict, hanswers, List.forall_mem_append,
      List.forall_mem_singleton, and_assoc]
  refine ⟨hkept, _, hseated, s.answers, _, hanswers, hverdict, hending, ?_⟩
  rw [hending]
  constructor
  · exact fun hsame hannounced => (hsame.1 hannounced).2
  · exact fun hlast => ⟨fun hannounced => ⟨hannounced, hlast hannounced⟩, fun hsuccess => hsuccess.1⟩

end Verdict

namespace Rehearsal

def passing : Suite Script :=
  { topics := [{ description := "T", stories := [⟨"s", some (Steps.step "a" [.pass 1])⟩] }] }

/-- A console, and in a group with others one who keeps what is told. -/
def attended : Chain Watcher :=
  .chain [.observer (.outlet (.console {})), .chain [.observer .silent, .observer (.collector { name := "obs" })]]

theorem passing_announced :
    let run := runSuite backend.beside (Chain.notify Watcher.notify) everything passing attended ({}, {})
    run.1 = .ok { expectations := { passed := 1 }, pathsRun := 1 } ∧
    ∃ told : Sink, run.2.observer.toList[0]? = some (.outlet (.console told)) ∧ told.SaysAllOk := by
  have hconsoles : Watcher.notify.Consoles fun sink => .outlet (.console sink) := fun _ _ _ => rfl
  have hok : (runSuite backend.beside (Chain.notify Watcher.notify) everything passing attended ({}, {})).1 =
      .ok { expectations := { passed := 1 }, pathsRun := 1 } := by decide +kernel
  obtain ⟨-, told, hseat, earlier, last, -, -, hending, -⟩ :=
    verdict_before_last_answer (n := 0) backend.beside everything passing hconsoles attended ({}, {})
      rfl ⟨rfl, rfl⟩ hok
  obtain ⟨hannounced, -⟩ := hending.1 (Ending.ofResult_eq_success.2 ⟨_, hok, rfl⟩)
  exact ⟨hok, told, hseat, hannounced⟩

/-- A directory for transcripts in which a directory stands where the index should be written. -/
def blocked : Files := ⟨[(["out", "index2.json"], .directory), (["out"], .directory)]⟩

/-- The index cannot be written, which only comes up when the verdict is on the console. -/
theorem late_error_unannounced :
    let session := Harness.run (fun _ => backend) { transcripts := some "out" } [] passing {} blocked
    session.ending = .failure ∧ ({ text := session.console } : Sink).SaysAllOk := by
  intro session
  have hconsole : session.console =
      "\n\n" ++ Console.right "T" ++ "\n" ++ String.ofList (List.replicate Console.width '-') ++ "\ns\n  ok: a\n" ++
        Console.right "Expectations Passed: 1" ++ "\n" ++ String.ofList (List.replicate 73 ' ') ++ "ALL OK!\n" := by
    decide +kernel
  refine ⟨by decide +kernel, ?_⟩
  rw [Sink.SaysAllOk, hconsole, String.toList_append]
  exact List.suffix_append _ _

end Rehearsal

end Storyline
