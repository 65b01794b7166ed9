import Storyline.Proofs.Calls.Log

/-! What a path is to ask of its driver, as a list of cues, and when calls follow cues. A cue is a single
call, or an action between the calls that hand out a scribe and take it back. Calls follow cues one after
another and end with the first that is interrupted; what else is known of them is read off the cues. -/

namespace Storyline

variable {α : Type}

/-- What a path asks for next. For a scribed action the driver is handed a scribe, for a hook it is not. -/
inductive Cue (α : Type) where
  | make
  | wait
  | hook (action : α)
  | scribed (action : α)
  | results
deriving Repr, DecidableEq

def Cue.calls : Cue α → List (Call α)
  | .make => [.make]
  | .wait => [.wait]
  | .hook a => [.perform a]
  | .scribed a => [.scribingOn, .perform a, .scribingOff]
  | .results => [.results]

/-- The action for which a scribe is handed out. -/
def Cue.action? : Cue α → Option α
  | .scribed a => some a
  | _ => none

def hookCues (hook : Option α) : List (Cue α) := hook.toList.map .hook

def scopeCues (action : Option α) : List (Cue α) := .wait :: action.toList.map .scribed

/-- A path from the hook before each path to the one after each path. -/
def playCues (suite : Suite α) (topic : Topic α) (path : Path α) : List (Cue α) :=
  hookCues suite.beforeEach ++ scopeCues topic.before ++ path.played.flatMap (fun step => scopeCues step.action)
    ++ hookCues topic.after ++ hookCues suite.afterEach

def pathCues (suite : Suite α) (topic : Topic α) (path : Path α) : List (Cue α) :=
  .make :: playCues suite topic path ++ [.results]

/-- Calls to one driver that follow cues up to the first interruption, or to the end if there is none. An
action that gives an error is still followed by the call that takes the scribe back. -/
inductive Follows (n : Nat) : List (Cue α) → List (Called α) → Option Interruption → Prop
  | done : Follows n [] [] none
  | answered {cue c cues calls fault} (single : cue.calls = [c]) (rest : Follows n cues calls fault) :
      Follows n (cue :: cues) (⟨n, c, none⟩ :: calls) fault
  | interrupted {cue c cues} (single : cue.calls = [c]) (i : Interruption) :
      Follows n (cue :: cues) [⟨n, c, some i⟩] (some i)
  | acted {a cues calls fault} (rest : Follows n cues calls fault) :
      Follows n (.scribed a :: cues)
        (⟨n, .scribingOn, none⟩ :: ⟨n, .perform a, none⟩ :: ⟨n, .scribingOff, none⟩ :: calls) fault
  | notHanded {a cues} (p : Panic) :
      Follows n (.scribed a :: cues) [⟨n, .scribingOn, some (.panic p)⟩] (some (.panic p))
  | panicked {a cues} (p : Panic) :
      Follows n (.scribed a :: cues) [⟨n, .scribingOn, none⟩, ⟨n, .perform a, some (.panic p)⟩]
        (some (.panic p))
  | failed {a cues} (e : Error) :
      Follows n (.scribed a :: cues)
        [⟨n, .scribingOn, none⟩, ⟨n, .perform a, some (.error e)⟩, ⟨n, .scribingOff, none⟩]
        (some (.error e))
  | failedAndKept {a cues} (e : Error) (p : Panic) :
      Follows n (.scribed a :: cues)
        [⟨n, .scribingOn, none⟩, ⟨n, .perform a, some (.error e)⟩, ⟨n, .scribingOff, some (.panic p)⟩]
        (some (.panic p))
  | kept {a cues} (p : Panic) :
      Follows n (.scribed a :: cues)
        [⟨n, .scribingOn, none⟩, ⟨n, .perform a, none⟩, ⟨n, .scribingOff, some (.panic p)⟩]
        (some (.panic p))

/-- The calls that are made while the driver has a scribe, up to the one that takes it back. -/
def withScribe : Bool → List (Called α) → List (Call α)
  | _, [] => []
  | has, c :: rest =>
      match c.call with
      | .scribingOn => withScribe true rest
      | .scribingOff => withScribe false rest
      | call => (if has then [call] else []) ++ withScribe has rest

namespace Follows

variable {n : Nat} {cues cues' : List (Cue α)} {calls calls' : List (Called α)}
  {fault fault' : Option Interruption} {i : Interruption}

theorem append (h : Follows n cues calls fault) (hnone : fault = none) (h' : Follows n cues' calls' fault') :
    Follows n (cues ++ cues') (calls ++ calls') fault' := by
  induction h with
  | done => exact h'
  | answered single _ ih => exact .answered single (ih hnone)
  | acted _ ih => exact .acted (ih hnone)
  | _ => cases hnone

theorem cut (h : Follows n cues calls fault) (hsome : fault ≠ none) (cues' : List (Cue α)) :
    Follows n (cues ++ cues') calls fault := by
  induction h with
  | done => exact absurd rfl hsome
  | answered single _ ih => exact .answered single (ih hsome)
  | acted _ ih => exact .acted (ih hsome)
  | interrupted single i => exact .interrupted single i
  | notHanded p => exact .notHanded p
  | panicked p => exact .panicked p
  | failed e => exact .failed e
  | failedAndKept e p => exact .failedAndKept e p
  | kept p => exact .kept p

/-- Either all of the first cues are followed and then the others, or there is an interruption before. -/
theorem split (h : Follows n (cues ++ cues') calls fault) :
    (∃ calls₁ calls₂, calls = calls₁ ++ calls₂ ∧ Follows n cues calls₁ none ∧ Follows n cues' calls₂ fault) ∨
      fault ≠ none ∧ Follows n cues calls fault := by
  induction cues generalizing calls with
  | nil => exact .inl ⟨[], calls, rfl, .done, h⟩
  | cons cue cues ih =>
    cases h with
    | answered single rest =>
      obtain ⟨calls₁, calls₂, rfl, h₁, h₂⟩ | ⟨hsome, h⟩ := ih rest
      · exact .inl ⟨_, calls₂, rfl, .answered single h₁, h₂⟩
      · exact .inr ⟨hsome, .answered single h⟩
    | acted rest =>
      obtain ⟨calls₁, calls₂, rfl, h₁, h₂⟩ | ⟨hsome, h⟩ := ih rest
      · exact .inl ⟨_, calls₂, rfl, .acted h₁, h₂⟩
      · exact .inr ⟨hsome, .acted h⟩
    | interrupted single i => exact .inr ⟨by simp, .interrupted single i⟩
    | notHanded p => exact .inr ⟨by simp, .notHanded p⟩
    | panicked p => exact .inr ⟨by simp, .panicked p⟩
    | failed e => exact .inr ⟨by simp, .failed e⟩
    | failedAndKept e p => exact .inr ⟨by simp, .failedAndKept e p⟩
    | kept p => exact .inr ⟨by simp, .kept p⟩

/-- The calls are the first of those that the cues ask for, and all of them if there is no interruption. -/
theorem calls_initial (h : Follows n cues calls fault) :
    calls.map (·.call) <+: cues.flatMap Cue.calls ∧
      (fault = none → calls.map (·.call) = cues.flatMap Cue.calls) := by
  induction h with
  | done => simp
  | answered single _ ih => simpa [single] using ih
  | interrupted single i => simp [single]
  | acted _ ih => simpa [Cue.calls] using ih
  | _ => simp [Cue.calls]

theorem fault_eq_none_iff (h : Follows n cues calls fault) :
    fault = none ↔ ∀ c ∈ calls, c.fault = none := by
  induction h with
  | done => simp
  | answered _ _ ih => simpa using ih
  | acted _ ih => simpa using ih
  | _ => simp

theorem fault_mem (h : Follows n cues calls fault) (hsome : fault = some i) :
    ∃ c ∈ calls, c.fault = some i := by
  induction h with
  | done => cases hsome
  | answered _ _ ih => simpa using ih hsome
  | acted _ ih => simpa using ih hsome
  | failedAndKept e p => exact ⟨⟨n, .scribingOff, some (.panic p)⟩, by simp, hsome⟩
  | _ => simpa using hsome

theorem driver_eq (h : Follows n cues calls fault) : ∀ c ∈ calls, c.driver = n := by
  induction h with
  | done => simp
  | answered _ _ ih => simpa using ih
  | acted _ ih => simpa using ih
  | _ => simp

/-- Nothing is called after a panic. -/
theorem panics_last (h : Follows n cues calls fault) :
    calls.Pairwise fun c _ => ∀ p, c.fault ≠ some (.panic p) := by
  induction h with
  | done => exact List.Pairwise.nil
  | answered _ _ ih => exact List.pairwise_cons.2 ⟨by simp, ih⟩
  | acted _ ih => simp [ih]
  | _ => simp

/-- The scribe is held while actions run that are to have it, one after another, and at no other time. -/
theorem withScribe_initial (h : Follows n cues calls fault) :
    withScribe false calls <+: (cues.filterMap Cue.action?).map .perform := by
  induction h with
  | done => simp [withScribe]
  | @answered cue c cues calls fault single _ ih =>
    cases cue <;> cases single <;> simpa [withScribe, List.filterMap_cons, Cue.action?] using ih
  | @interrupted cue c cues single i => cases cue <;> cases single <;> simp [withScribe]
  | acted _ ih => simpa [withScribe, Cue.action?] using ih
  | _ => simp [withScribe, Cue.action?]

end Follows

end Storyline
