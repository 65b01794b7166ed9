import Storyline.Console
import Storyline.Transcript.Writer

/-! Where a run's progress goes: to a console, and to transcript files. Writers share the files. -/

namespace Storyline

inductive Outlet where
  | console (sink : Sink)
  | writer (writer : Writer)
deriving Repr

namespace Outlet

/-- A writer keeps every transcript when it is told of it, and the index at the end. -/
def writerNotify (e : Event) (w : Writer) (fs : Files) : Except Error Unit × Writer × Files :=
  match e with
  | .transcript t =>
      let (r, w, fs) := w.write t fs
      (r.map fun _ => (), w, fs)
  | .finish _ =>
      let (r, fs) := w.writeIndex fs
      (r.map fun _ => (), w, fs)
  | _ => (.ok (), w, fs)

def notify : Notify Outlet Files := fun e o fs =>
  match o with
  | .console sink =>
      let (r, sink) := Console.notify e sink
      (r, .console sink, fs)
  | .writer w =>
      let (r, w, fs) := writerNotify e w fs
      (r, .writer w, fs)

end Outlet

end Storyline
