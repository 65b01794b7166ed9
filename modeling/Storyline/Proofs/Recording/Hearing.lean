import Storyline.Proofs.Recording.Loop

/-! Between two changes of scope a path's calls do nothing to the recorder but send it messages, and
these are the ones the trace tells of. -/

namespace Storyline

variable {α δ ω ε β : Type}

/-- What happened at a desk meanwhile, as far as its recorder is concerned: some messages arrived. -/
structure Hears (d d' : Desk) (ms : List Message) : Prop where
  recorder : d'.recorder = d.recorder.hear ms
  channel : d'.channel = d.channel

theorem Hears.refl (d : Desk) : Hears d d [] := ⟨rfl, rfl⟩

theorem Hears.trans {d d' d'' : Desk} {ms ns : List Message} (h : Hears d d' ms) (h' : Hears d' d'' ns) :
    Hears d d'' (ms ++ ns) :=
  ⟨by rw [h'.recorder, h.recorder, Recorder.hear_hear], h'.channel.trans h.channel⟩

theorem hears_take (d : Desk) (c : Command) : Hears d (d.take c) (d.message? c).toList := by
  cases c with
  | note scribe text =>
    by_cases h : scribe = d.scribe <;> constructor <;>
      simp [Desk.take, Desk.send, Desk.message?, Desk.record, Recorder.hear, h]
  | reserve scribe =>
    by_cases h : scribe = d.scribe <;> constructor <;>
      simp [Desk.take, Desk.send, Desk.message?, Desk.record, Recorder.hear, h]
  | fill slot action => exact ⟨rfl, rfl⟩
  | drop slot => exact ⟨rfl, rfl⟩

theorem hears_takeAll (d : Desk) (cs : List Command) : Hears d (d.takeAll cs) (d.arriving cs) := by
  induction cs generalizing d with
  | nil => exact Hears.refl d
  | cons c cs ih => exact (hears_take d c).trans (ih _)

namespace Scene

theorem hears_after (s : Scene δ ω) (r : Reply (δ × ω) ε β) : Hears s.desk (s.after r).desk (s.arriving r) :=
  hears_takeAll _ _

end Scene

namespace Performing

variable (b : Backend α δ ω)

theorem call_eq (f : δ × ω → Nat → Reply (δ × ω) Interruption β) (s : Scene δ ω) :
    call f s = ((s.ask f).result, s.after (s.ask f)) := rfl

theorem callSafe_eq (f : δ × ω → Nat → Reply (δ × ω) Panic β) (s : Scene δ ω) :
    callSafe f s = ((s.ask f).result.mapError .panic, s.after (s.ask f)) := rfl

/-- A scribed action call by call. The scribe is taken back after an error, but not after a panic. -/
theorem scribed_eq (action : α) (s : Scene δ ω) :
    scribed b action s =
      match (s.ask (b.scribingOn s.desk.scribe)).result with
      | .error p => (.error (.panic p), s.after (s.ask (b.scribingOn s.desk.scribe)))
      | .ok _ =>
          let s₁ := s.after (s.ask (b.scribingOn s.desk.scribe))
          let s₂ := s₁.after (s₁.ask (b.perform action))
          let off := s₂.ask b.scribingOff
          match (s₁.ask (b.perform action)).result with
          | .error (.panic p) => (.error (.panic p), s₂)
          | .error (.error e) =>
              (match off.result with
                | .error p => .error (.panic p)
                | .ok _ => .error (.error e), s₂.after off)
          | .ok _ => (off.result.mapError .panic, s₂.after off) := by
  simp only [scribed, bind_apply, callSafe_eq, call_eq]
  cases (s.ask (b.scribingOn s.desk.scribe)).result with
  | error p => rfl
  | ok _ =>
    dsimp only [Except.mapError]
    generalize s.after (s.ask (b.scribingOn s.desk.scribe)) = s₁
    generalize s₁.after (s₁.ask (b.perform action)) = s₂
    rcases (s₁.ask (b.perform action)).result with (e | p) | _
    · dsimp only
      cases (s₂.ask b.scribingOff).result <;> rfl
    · rfl
    · dsimp only
      cases (s₂.ask b.scribingOff).result <;> rfl

theorem hears_scribed (action : α) (s : Scene δ ω) :
    Hears s.desk (scribed b action s).2.desk (heardScribed b action s).all := by
  have hon := s.hears_after (s.ask (b.scribingOn s.desk.scribe))
  rw [scribed_eq, heardScribed]
  dsimp only
  rcases (s.ask (b.scribingOn s.desk.scribe)).result with _ | _
  · exact hon
  · set s₁ := s.after (s.ask (b.scribingOn s.desk.scribe))
    have hplayed := s₁.hears_after (s₁.ask (b.perform action))
    set s₂ := s₁.after (s₁.ask (b.perform action))
    have hoff := s₂.hears_after (s₂.ask b.scribingOff)
    rcases (s₁.ask (b.perform action)).result with (_ | _) | _
    · exact (hon.trans hplayed).trans hoff
    · simpa using hon.trans hplayed
    · exact (hon.trans hplayed).trans hoff

/-- What follows the opening of a scope sends messages only, until the scope ends or the path does. -/
theorem hears_within (opening : Recorder → Recorder) (action : Option α) (s : Scene δ ω) :
    ∃ s', Hears (s.record opening).desk s'.desk (heardIn b action (s.record opening)).all ∧
      (within b opening action s = (.ok (), s'.record (·.endScope)) ∨
        ∃ e, within b opening action s = (.error e, s')) := by
  set begun := s.record opening with hbegun
  have hwait := begun.hears_after (begun.ask b.wait)
  have hrun : within b opening action s =
      (do call b.wait; runScribed b action; record (·.endScope)) begun := by
    rw [within, bind_apply]
    rfl
  rw [hrun]
  simp only [bind_apply, call_eq, heardIn]
  cases (begun.ask b.wait).result with
  | error e => exact ⟨_, hwait, .inr ⟨e, rfl⟩⟩
  | ok _ =>
    cases action with
    | none => exact ⟨_, hwait, .inl rfl⟩
    | some action =>
      have hscribed := hears_scribed b action (begun.after (begun.ask b.wait))
      dsimp only [runScribed]
      rcases hr : scribed b action (begun.after (begun.ask b.wait)) with ⟨e | _, s'⟩ <;> rw [hr] at hscribed
      · exact ⟨s', hwait.trans hscribed, .inr ⟨e, rfl⟩⟩
      · exact ⟨s', hwait.trans hscribed, .inl rfl⟩

theorem heardScribed_scribe (action : α) (s : Scene δ ω) :
    (heardScribed b action s).scribe = s.desk.scribe := by
  rw [heardScribed]
  split <;> rfl

theorem heardIn_scribe (action : Option α) (s : Scene δ ω) : (heardIn b action s).scribe = s.desk.scribe := by
  unfold heardIn
  dsimp only
  split
  · rw [heardScribed_scribe, Desk.scribe, (s.hears_after _).channel]
    rfl
  · rfl

theorem hears_runHook (hook : Option α) (s : Scene δ ω) :
    ∃ ms, Hears s.desk (runHook b hook s).2.desk ms := by
  cases hook with
  | none => exact ⟨[], Hears.refl _⟩
  | some hook => exact ⟨_, s.hears_after (s.ask (b.perform hook))⟩

end Performing

end Storyline
