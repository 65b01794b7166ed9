import Storyline.Rehearsal.Audience
import Storyline.Run

/-! A whole run with scripted drivers and an audience, and what is left to look at after it. -/

namespace Storyline.Rehearsal

structure Rehearsed where
  result : Except Panic Summary
  audience : List (Chain Watcher)
  writers : List (Except Error Unit)
  world : World
  files : Files

def rehearse (suite : Suite Script) (selection : Selection) (seats : List Seat) (world : World)
    (files : Files) : Rehearsed :=
  let (audience, writers, files) := Seat.setUpAll true files seats
  let (result, s) := runSuite backend.beside (Chain.notify Watcher.notify) selection suite
    (.chain audience) (world, files)
  let audience := match s.observer with
    | .chain members => members
    | o => [o]
  ⟨result, audience, writers, s.world.1, s.world.2⟩

end Storyline.Rehearsal
