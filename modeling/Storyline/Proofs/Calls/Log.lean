import Storyline.Proofs.Calls.Likeness

/-! The calls that a path makes, in their order. They are written down by whoever hands out the drivers:
every driver gets a number, and every call to it goes into a log together with what came of it. Nothing
else changes, so the path is the one that would be played without the log. -/

namespace Storyline

variable {α δ ω β ε : Type}

/-- What is asked of drivers and of those who make them. -/
inductive Call (α : Type) where
  | make
  | wait
  | scribingOn
  | scribingOff
  | perform (action : α)
  | results
deriving Repr, DecidableEq

/-- A call that was made, to the driver of a number, and what interrupted it. -/
structure Called (α : Type) where
  driver : Nat
  call : Call α
  fault : Option Interruption
deriving Repr, DecidableEq

def Call.isMake : Call α → Bool
  | .make => true
  | _ => false

def drivers (log : List (Called α)) : Nat := log.countP (·.call.isMake)

@[simp] theorem drivers_append (log log' : List (Called α)) :
    drivers (log ++ log') = drivers log + drivers log' := List.countP_append

def fault? : Except ε β → Option ε
  | .ok _ => none
  | .error e => some e

def watch (call : Call α) (fault : ε → Interruption) (f : δ × ω → Nat → Reply (δ × ω) ε β)
    (s : (Nat × δ) × List (Called α) × ω) (next : Nat) : Reply ((Nat × δ) × List (Called α) × ω) ε β :=
  let r := f (s.1.2, s.2.2) next
  r.beside fun (driver, world) =>
    ((s.1.1, driver), s.2.1 ++ [⟨s.1.1, call, (fault? r.result).map fault⟩], world)

namespace Backend

/-- The same drivers, numbered in the order in which they are asked for, with a log of all calls. -/
def watched (b : Backend α δ ω) : Backend α (Nat × δ) (List (Called α) × ω) where
  make := fun (log, world) next =>
    let r := b.make world next
    let number := drivers log + 1
    { result := r.result.map fun driver => (number, driver)
      state := (log ++ [⟨number, .make, (fault? r.result).map .panic⟩], r.state)
      sent := r.sent }
  wait := watch .wait id b.wait
  scribingOn := fun scribe => watch .scribingOn .panic (b.scribingOn scribe)
  scribingOff := watch .scribingOff .panic b.scribingOff
  perform := fun action => watch (.perform action) id (b.perform action)
  results := watch .results id b.results

end Backend

def Scene.unwatched (s : Scene (Nat × δ) (List (Called α) × ω)) : Scene δ ω :=
  ⟨s.driver.2, s.world.2, s.desk⟩

section Watched

variable (b : Backend α δ ω)

theorem watched_likens : b.watched.Likens b (fun s' s => s'.unwatched = s) fun _ => True where
  record := by
    rintro f s' _ rfl
    rfl
  wait := by
    rintro s' _ rfl
    exact ⟨rfl, rfl⟩
  scribingOn := by
    rintro s' _ rfl
    exact ⟨rfl, rfl⟩
  scribingOff := by
    rintro s' _ rfl
    exact ⟨rfl, rfl⟩
  perform := by
    rintro a - s' _ rfl
    exact ⟨rfl, rfl⟩
  results := by
    rintro s' _ rfl
    exact ⟨rfl, rfl⟩

variable {earlier : List (Called α)} {world : ω} {next : Nat}

theorem watched_made {driver : δ} (h : (b.make world next).result = .ok driver) :
    (b.watched.make (earlier, world) next).result = .ok (drivers earlier + 1, driver) := by
  simp [Backend.watched, h, Except.map]

theorem watched_unmade {p : Panic} (h : (b.make world next).result = .error p) :
    (b.watched.make (earlier, world) next).result = .error p := by
  simp [Backend.watched, h, Except.map]

/-- A path that is watched comes out as it would by itself. -/
theorem runPath_watched (suite : Suite α) (topic : Topic α) (story : Story α) (path : Path α)
    (earlier : List (Called α)) (world : ω) (desk : Desk) :
    let watched := runPath b.watched suite topic story path (earlier, world) desk
    (watched.1, watched.2.1.2, watched.2.2) = runPath b suite topic story path world desk := by
  intro watched
  cases hmade : (b.make world desk.slots.next).result with
  | error p =>
    simp only [watched, runPath_unmade b suite topic story path hmade,
      runPath_unmade b.watched suite topic story path (watched_unmade b hmade)]
    rfl
  | ok driver =>
    set made := b.make world desk.slots.next
    set log := earlier ++ [⟨drivers earlier + 1, Call.make, (fault? made.result).map .panic⟩]
    obtain ⟨hresult, hscene⟩ := Performing.likens_playPath (watched_likens b) suite topic path
      (fun _ _ => trivial) ⟨(drivers earlier + 1, driver), (log, made.state), desk.takeAll made.sent⟩
      ⟨driver, made.state, desk.takeAll made.sent⟩ rfl
    obtain ⟨houtcome, hend⟩ := Performing.likens_conclude (watched_likens b) path hresult hscene
    rw [runPath_made b suite topic story path hmade]
    simp only [watched, runPath_made b.watched suite topic story path (watched_made b hmade)]
    unfold ending
    rw [← houtcome, ← hend]
    rfl

end Watched

end Storyline
