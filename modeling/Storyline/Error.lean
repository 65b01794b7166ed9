/-! What can go wrong, as causes, and the one text each cause has. An error keeps the place where it
was raised; the library's own errors have no place of their own and carry `Origin.library`. -/

namespace Storyline

structure Origin where
  line : Nat
  file : String
deriving Repr, DecidableEq, Inhabited

def Origin.library : Origin := ⟨0, "-"⟩

inductive StoryFault where
  | emptyForkGroup (story : String)
  | emptyStory (story : String)
deriving Repr, DecidableEq

inductive RunFault where
  | invalidPattern (pattern message : String)
  | panicked (path message : String)
  | report (message : String)
deriving Repr, DecidableEq

inductive TranscriptFault where
  | serialization (message : String)
  | io (message : String)
deriving Repr, DecidableEq

inductive ConfigFault where
  | read (message : String)
  | parse (message : String)
  | load (message : String)
  | invalid (message : String)
deriving Repr, DecidableEq

/-- A driver's errors are its own; the library only carries their message. -/
inductive Cause where
  | story (fault : StoryFault)
  | driver (message : String)
  | run (fault : RunFault)
  | transcript (fault : TranscriptFault)
  | config (fault : ConfigFault)
deriving Repr, DecidableEq

structure Error where
  cause : Cause
  origin : Origin := .library
deriving Repr, DecidableEq

def StoryFault.text : StoryFault → String
  | .emptyForkGroup story => s!"Story '{story}' declares a fork group with no alternatives"
  | .emptyStory story =>
      s!"Story '{story}' has an empty step specification (use a deferred story instead)"

def RunFault.text : RunFault → String
  | .invalidPattern pattern message => s!"Invalid pattern '{pattern}': {message}"
  | .panicked path message => s!"Path '{path}' panicked: {message}"
  | .report message => s!"Report failed: {message}"

def TranscriptFault.text : TranscriptFault → String
  | .serialization message => s!"Serialization error: {message}"
  | .io message => s!"I/O error: {message}"

def ConfigFault.text : ConfigFault → String
  | .read message => s!"Failed to read config file: {message}"
  | .parse message => s!"Failed to parse config: {message}"
  | .load message => s!"Failed to load configuration: {message}"
  | .invalid message => s!"Invalid configuration: {message}"

def Cause.text : Cause → String
  | .story fault => "Story Error: " ++ fault.text
  | .driver message => "Driver Error: " ++ message
  | .run fault => "Run Error: " ++ fault.text
  | .transcript fault => "Transcript Error: " ++ fault.text
  | .config fault => "Configuration Error: " ++ fault.text

/-- The text of the part that failed, with the place it was raised at. -/
def Error.innerText (e : Error) : String :=
  s!"{e.cause.text} at line {e.origin.line} in {e.origin.file}"

def Error.text (e : Error) : String :=
  "Fabula Error: " ++ e.innerText

namespace Error

def story (fault : StoryFault) : Error := ⟨.story fault, .library⟩
def run (fault : RunFault) : Error := ⟨.run fault, .library⟩
def transcript (fault : TranscriptFault) : Error := ⟨.transcript fault, .library⟩
def config (fault : ConfigFault) : Error := ⟨.config fault, .library⟩

end Error

end Storyline
