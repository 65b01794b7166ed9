/-! The command line: options with a value each, in long and short form, and two switches that end the
reading. A value may follow its option as the next word, or be attached to it. -/

namespace Storyline

namespace CommandLine

inductive Flag where
  | topics | stories | paths | transcripts | endpoint | config | commit
deriving Repr, DecidableEq

inductive Switch where
  | help | version
deriving Repr, DecidableEq

inductive Known where
  | flag (f : Flag)
  | switch (s : Switch)
deriving Repr, DecidableEq

inductive UsageFault where
  /-- A value is missing, or is empty where it may not be. -/
  | invalidValue
  | unknownArgument
  /-- An option is given twice. -/
  | repeated
  /-- A switch is given a value. -/
  | tooManyValues
  /-- No fault, but a request to show something instead of running. -/
  | asked (s : Switch)
deriving Repr, DecidableEq

def Known.ofName? : String → Option Known
  | "topics" => some (.flag .topics)
  | "stories" => some (.flag .stories)
  | "paths" => some (.flag .paths)
  | "transcripts" => some (.flag .transcripts)
  | "endpoint" => some (.flag .endpoint)
  | "config" => some (.flag .config)
  | "commit" => some (.flag .commit)
  | "help" => some (.switch .help)
  | "version" => some (.switch .version)
  | _ => none

def Known.ofLetter? : Char → Option Known
  | 's' => some (.flag .topics)
  | 't' => some (.flag .stories)
  | 'p' => some (.flag .paths)
  | 'o' => some (.flag .transcripts)
  | 'e' => some (.flag .endpoint)
  | 'c' => some (.flag .config)
  | 'h' => some (.switch .help)
  | 'V' => some (.switch .version)
  | _ => none

/-- A path in the file system may not be empty. -/
def Flag.isFilePath (f : Flag) : Bool := f = .transcripts || f = .config

end CommandLine

open CommandLine

structure Arguments where
  topics : Option String := none
  stories : Option String := none
  paths : Option String := none
  transcripts : Option String := none
  endpoint : Option String := none
  config : Option String := none
  commit : Option String := none
deriving Repr, DecidableEq

namespace Arguments

def get (a : Arguments) : Flag → Option String
  | .topics => a.topics
  | .stories => a.stories
  | .paths => a.paths
  | .transcripts => a.transcripts
  | .endpoint => a.endpoint
  | .config => a.config
  | .commit => a.commit

def put (a : Arguments) (value : String) : Flag → Arguments
  | .topics => { a with topics := value }
  | .stories => { a with stories := value }
  | .paths => { a with paths := value }
  | .transcripts => { a with transcripts := value }
  | .endpoint => { a with endpoint := value }
  | .config => { a with config := value }
  | .commit => { a with commit := value }

end Arguments

namespace CommandLine

def assign (a : Arguments) (f : Flag) (value : String) : Except UsageFault Arguments :=
  if (a.get f).isSome then .error .repeated
  else if value.isEmpty && f.isFilePath then .error .invalidValue
  else .ok (a.put value f)

inductive Word where
  /-- After two dashes, with what follows the first equals sign. -/
  | long (name : String) (attached : Option String)
  /-- After one dash: a letter and the rest. -/
  | short (letter : Char) (rest : List Char)
  /-- Two dashes and nothing else. -/
  | escape
  | plain

def Word.ofText (text : String) : Word :=
  match text.toList with
  | ['-', '-'] => .escape
  | '-' :: '-' :: cs =>
      let name := String.ofList (cs.takeWhile (· != '='))
      match cs.dropWhile (· != '=') with
      | [] => .long name none
      | _ :: value => .long name (some (String.ofList value))
  | '-' :: c :: rest => .short c rest
  | _ => .plain

/-- The value attached to a letter; an equals sign before it does not belong to it. -/
def attachedValue : List Char → Option String
  | [] => none
  | '=' :: value => some (String.ofList value)
  | value => some (String.ofList value)

/-- What has been read. The option read last is only set once it is clear that it is complete. -/
structure Progress where
  given : Arguments := {}
  pending : Option (Flag × Option String) := none
  /-- Two dashes came; no word after them is wanted. -/
  escaped : Bool := false

namespace Progress

/-- Sets the option read last; it must have its value. -/
def resolve (p : Progress) : Except UsageFault Progress :=
  match p.pending with
  | none => .ok p
  | some (_, none) => .error .invalidValue
  | some (f, some value) => do return { p with given := ← assign p.given f value, pending := none }

/-- An option, with the value attached to it or still to come. -/
def take (p : Progress) (f : Flag) (attached : Option String) : Except UsageFault Progress := do
  let p ← p.resolve
  match attached with
  | some value => return { p with given := ← assign p.given f value }
  | none => return { p with pending := some (f, none) }

def ask (p : Progress) (s : Switch) : Except UsageFault Progress := do
  let _ ← p.resolve
  throw (.asked s)

/-- A word that is a value or nothing. -/
def supply (p : Progress) (value : String) : Except UsageFault Progress :=
  match p.pending with
  | some (f, none) => .ok { p with pending := some (f, some value) }
  | _ => .error .unknownArgument

def step (p : Progress) (text : String) : Except UsageFault Progress :=
  if p.escaped then .error .unknownArgument
  else match Word.ofText text with
    | .escape => .ok { p with escaped := true }
    | .long name attached =>
        match Known.ofName? name with
        | none => .error .unknownArgument
        | some (.flag f) => p.take f attached
        | some (.switch s) => if attached.isSome then .error .tooManyValues else p.ask s
    | .short letter rest =>
        match Known.ofLetter? letter with
        | none => .error .unknownArgument
        | some (.flag f) => p.take f (attachedValue rest)
        | some (.switch s) => p.ask s
    | .plain => p.supply text

end Progress

end CommandLine

def Arguments.parse (words : List String) : Except UsageFault Arguments := do
  let p ← words.foldlM Progress.step {}
  return (← p.resolve).given

end Storyline
