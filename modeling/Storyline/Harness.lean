import Storyline.CommandLine
import Storyline.Outlet
import Storyline.Pattern.Reader
import Storyline.Run
import Storyline.Settings.EnvironmentFile

/-! A suite run as a command: the filters are read, then the settings, then drivers are made for those
settings, and the run is reported on the console and, where the settings name a directory, in
transcripts. The first thing that fails before the run is all that happens. How patterns are written and
where settings come from is open until a command is run. -/

namespace Storyline

variable {α δ ω : Type}

inductive Ending where
  | success
  /-- Something in the run failed, or could not be reported. -/
  | failure
  /-- The run could not start. -/
  | aborted (e : Error)
  | panicked (p : Panic)
deriving Repr, DecidableEq

def Ending.ofResult : Except Panic Summary → Ending
  | .error p => .panicked p
  | .ok summary => if summary.isSuccess then .success else .failure

namespace Ending

/-- What goes to the error stream. -/
def report : Ending → String
  | .aborted e => e.text ++ "\n"
  | _ => ""

def exitCode : Ending → Nat
  | .success => 0
  | .failure | .aborted _ => 1
  | .panicked _ => 101

end Ending

namespace Arguments

def filters [Dialect] (a : Arguments) : Except Error Filters :=
  (Filters.ofLists a.topics a.stories a.paths).mapError .run

/-- The settings that stand above all others. -/
def settings (a : Arguments) : Settings := ⟨a.endpoint, a.transcripts, a.commit⟩

end Arguments

structure Session (ω : Type) where
  ending : Ending
  /-- The settings that drivers were made for. -/
  settings : Option Settings := none
  console : String := ""
  files : Files
  world : ω

namespace Harness

/-- The outlets that settings ask for; a console always, and a writer if there is a directory. -/
def outlets (sink : Sink) (settings : Settings) (fs : Files) : Except Error (List Outlet) × Files :=
  match settings.transcriptsDir with
  | none => (.ok [.console sink], fs)
  | some dir =>
      let (writer, fs) := Writer.new dir settings.commit fs
      (writer.map fun w => [.console sink, .writer w], fs)

def consoleText (o : Chain Outlet) : String :=
  String.join (o.toList.map fun
    | .console sink => sink.text
    | .writer _ => "")

section

variable [Dialect] (load : Settings.Loader)

/-- What is known before the run: what to run and with which settings. -/
def prepare (a : Arguments) (env : Environment) (fs : Files) : Except Error (Filters × Settings) := do
  let filters ← a.filters
  let settings ← load a.config env fs
  return (filters, settings.overriddenBy a.settings)

/-- Runs a suite with its report going to `sink`. -/
def runOn (sink : Sink) (drivers : Settings → Backend α δ ω) (a : Arguments) (env : Environment)
    (suite : Suite α) (world : ω) (fs : Files) : Session ω :=
  match prepare load a env fs with
  | .error e => { ending := .aborted e, console := sink.text, files := fs, world }
  | .ok (filters, settings) =>
      match outlets sink settings fs with
      | (.error e, fs) => { ending := .aborted e, settings, console := sink.text, files := fs, world }
      | (.ok members, fs) =>
          let (result, s) := runSuite (drivers settings).beside (Chain.notify Outlet.notify.beside)
            filters.selection suite (.row members) (world, fs)
          { ending := Ending.ofResult result, settings, console := consoleText s.observer,
            files := s.world.2, world := s.world.1 }

end

/-- Runs a suite on a console that takes whatever is written, with regular expressions for patterns and with
settings from a file and the environment. -/
def run (drivers : Settings → Backend α δ ω) (a : Arguments) (env : Environment) (suite : Suite α)
    (world : ω) (fs : Files) : Session ω :=
  runOn Settings.load {} drivers a env suite world fs

end Harness

/-! A command as the one who calls it sees it. -/

namespace CommandLine

def versionText : String := "fabula 0.1.0\n"

def helpText : String :=
  "Run API stories and record what they did\n\n"
    ++ "Usage: fabula [-s|--topics PATTERNS] [-t|--stories PATTERNS] [-p|--paths PATTERNS]\n"
    ++ "  [-o|--transcripts DIR] [-e|--endpoint URL] [-c|--config FILE] [--commit SHA]\n"
    ++ "  [-h|--help] [-V|--version]\n"

namespace UsageFault

def output : UsageFault → String
  | .asked .version => versionText
  | .asked .help => helpText
  | _ => ""

def report : UsageFault → String
  | .invalidValue => "a value is missing or empty\n"
  | .unknownArgument => "an argument was not expected\n"
  | .repeated => "an option was given twice\n"
  | .tooManyValues => "an option takes no value\n"
  | .asked _ => ""

def exitCode : UsageFault → Nat
  | .asked _ => 0
  | _ => 2

end UsageFault

end CommandLine

namespace Harness

structure Finished (ω : Type) where
  exitCode : Nat
  output : String
  report : String
  /-- What was run, unless the words made no command. -/
  session : Option (Session ω) := none

def Finished.files (r : Finished ω) (fs : Files) : Files := (r.session.map (·.files)).getD fs

/-- Reads the words of a command and runs it, in the environment that its own file may add to. -/
def command (drivers : Settings → Backend α δ ω) (words : List String) (env : Environment)
    (suite : Suite α) (world : ω) (fs : Files) : Finished ω :=
  match Arguments.parse words with
  | .error fault => ⟨fault.exitCode, fault.output, fault.report, none⟩
  | .ok a =>
      let s := run drivers a (env.withFile fs) suite world fs
      ⟨s.ending.exitCode, s.console, s.ending.report, some s⟩

end Harness

end Storyline
