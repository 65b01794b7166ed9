import Storyline.Outlet
import Storyline.Rehearsal.Script

/-! Observers to rehearse with: reports to a console, writers on the shared files, and collectors that
keep what they are told and fail when they are asked to. -/

namespace Storyline

namespace Rehearsal

inductive EventKind where
  | topic | story | path | transcript | finish
deriving Repr, DecidableEq

end Rehearsal

def Event.kind : Event → Rehearsal.EventKind
  | .topic _ => .topic
  | .story .. => .story
  | .path _ => .path
  | .transcript _ => .transcript
  | .finish _ => .finish

namespace Rehearsal

/-- An error to give on an event, every time or on its `n`-th occurrence. -/
structure Failing where
  on : EventKind
  n : Option Nat
  error : Error

structure Collector where
  name : String
  fails : List Failing := []
  /-- Whether it keeps what it is told, or only logs it. -/
  keeps : Bool := true
  told : List EventKind := []

namespace Collector

def line : Event → String
  | .topic description => s!"topic:{description}"
  | .story description deferred =>
      let status := if deferred then "Deferred" else "Running"
      s!"story:{status}:{description}"
  | .path r => s!"path:{r.description}"
  | .transcript t => s!"transcript:{t.description}"
  | .finish s => s!"finish:{s.isSuccess}"

def keep (c : Collector) (e : Event) (world : World) : World :=
  match c.keeps, e with
  | true, .path r => { world with reports := world.reports ++ [r] }
  | true, .transcript t => { world with transcripts := world.transcripts ++ [t] }
  | _, _ => world

def answer (c : Collector) (kind : EventKind) : Except Error Unit :=
  let applies (f : Failing) : Bool := f.on = kind && f.n.all (· == c.told.count kind)
  match c.fails.find? applies with
  | some f => .error f.error
  | none => .ok ()

end Collector

inductive Watcher where
  | outlet (outlet : Outlet)
  | collector (collector : Collector)
  | silent

def Watcher.notify : Notify Watcher (World × Files) := fun e o (world, files) =>
  match o with
  | .outlet out =>
      let (r, out, files) := out.notify e files
      (r, .outlet out, world, files)
  | .collector c =>
      let c := { c with told := e.kind :: c.told }
      (c.answer e.kind, .collector c, c.keep e (world.write s!"{c.name}:{Collector.line e}"), files)
  | .silent => (.ok (), .silent, world, files)

inductive Seat where
  | console (sink : Sink)
  | writer (dir : String) (commit : Option String)
  | collector (name : String) (fails : List Failing)
  | silent
  | chain (members : List Seat)

instance : Inhabited Seat := ⟨.silent⟩

namespace Seat

mutual

/-- Sets up observers from left to right; a writer that cannot be made leaves no observer. Gives how
each writer fared. Only collectors at the top keep what they are told. -/
def setUp (top : Bool) (files : Files) :
    Seat → List (Chain Watcher) × List (Except Error Unit) × Files
  | .console sink => ([.observer (.outlet (.console sink))], [], files)
  | .collector name fails => ([.observer (.collector { name, fails, keeps := top })], [], files)
  | .silent => ([.observer .silent], [], files)
  | .writer dir commit =>
      match Writer.new dir commit files with
      | (.ok w, files) => ([.observer (.outlet (.writer w))], [.ok ()], files)
      | (.error e, files) => ([], [.error e], files)
  | .chain members =>
      let (group, made, files) := setUpAll false files members
      ([.chain group], made, files)

def setUpAll (top : Bool) (files : Files) :
    List Seat → List (Chain Watcher) × List (Except Error Unit) × Files
  | [] => ([], [], files)
  | seat :: rest =>
      let (group, made, files) := seat.setUp top files
      let (group', made', files) := setUpAll top files rest
      (group ++ group', made ++ made', files)

end

end Seat

def consoleTexts (members : List (Chain Watcher)) : List String :=
  (Chain.listOf members).filterMap fun
    | .outlet (.console sink) => some sink.text
    | _ => none

end Rehearsal

end Storyline
