import Storyline.Json.Decoder
import Storyline.Json.Printer
import Storyline.Tally
import Storyline.Transcript.Record

/-! Transcripts as JSON documents: for each part the fields it is written with, and how it is read. -/

namespace Storyline

open Json

namespace Response

def toValue (r : Response) : Value :=
  .object [("statusCode", Value.ofOption (fun n : Nat => .int n) r.status), ("body", r.body)]

def decode : Decoder Response := fun depth raw => do
  match ← fieldsOf ["statusCode", "body"] depth raw with
  | (depth, [status, body]) =>
      return ⟨← status.nullable Decoder.word16 depth, ← body.required Decoder.value depth⟩
  | _ => none

end Response

namespace Action

def toValue (a : Action) : Value :=
  .object (Value.optionalField "actor" Value.text a.actor ++ Value.optionalField "request" id a.request
    ++ Value.optionalField "response" Response.toValue a.response)

def decode : Decoder Action := fun depth raw => do
  match ← fieldsOf ["actor", "request", "response"] depth raw with
  | (depth, [actor, request, response]) =>
      return ⟨← actor.defaulted Decoder.string.option none depth,
        ← request.defaulted (Decoder.option Decoder.value) none depth,
        ← response.defaulted (Decoder.option Response.decode) none depth⟩
  | _ => none

end Action

namespace Tally

def toValue (t : Tally) : Value :=
  .object ([("expectationsPassed", .int t.passed), ("expectationsFailed", .int t.failed)]
    ++ Value.optionalField "failure" Value.text t.failure)

def decode : Decoder Tally := fun depth raw => do
  match ← fieldsOf ["expectationsPassed", "expectationsFailed", "failure"] depth raw with
  | (depth, [passed, failed, failure]) =>
      return ⟨← passed.required Decoder.word64 depth, ← failed.required Decoder.word64 depth,
        ← failure.defaulted Decoder.string.option none depth⟩
  | _ => none

end Tally

namespace Notes

def toValue (notes : Notes) : Value :=
  .object (notes.map fun (key, texts) => (toString key, .array (texts.map Value.text)))

/-- The texts under `key` are replaced; keys stay in order. -/
def put (key : Nat) (texts : List String) : Notes → Notes
  | [] => [(key, texts)]
  | (k, old) :: rest =>
      if key = k then (k, texts) :: rest
      else if key < k then (key, texts) :: (k, old) :: rest
      else (k, old) :: put key texts rest

/-- A key is a whole number as JSON writes it. -/
def decodeKey (body : List Char) : Option Nat := do
  Decoder.word64 0 (.number (← Text.Numeral.ofText? body) body)

def decode : Decoder Notes
  | depth + 1, .object fields =>
      fields.foldlM (fun notes (key, raw) => do
        return put (← decodeKey key) (← Decoder.list Decoder.string depth raw) notes) []
  | _, _ => none

end Notes

namespace Record

def fields (r : Record) : List (String × Value) :=
  [("actions", .array (r.actions.map Action.toValue)), ("docStrings", r.notes.toValue)]

def toValue (r : Record) : Value := .object r.fields

def ofGiven (depth : Nat) (actions notes : Given) : Option Record := do
  return ⟨← actions.required (Decoder.list Action.decode) depth, ← notes.defaulted Notes.decode [] depth⟩

def decode : Decoder Record := fun depth raw => do
  match ← fieldsOf ["actions", "docStrings"] depth raw with
  | (depth, [actions, notes]) => ofGiven depth actions notes
  | _ => none

end Record

namespace StepRecord

def toValue (s : StepRecord) : Value :=
  .object ([("description", .text s.description), ("depth", .int s.depth), ("isFork", .bool s.isFork)]
    ++ s.record.fields)

def decode : Decoder StepRecord := fun depth raw => do
  match ← fieldsOf ["description", "depth", "isFork", "actions", "docStrings"] depth raw with
  | (depth, [description, level, isFork, actions, notes]) =>
      return ⟨← description.required Decoder.string depth, ← level.required Decoder.word64 depth,
        ← isFork.required Decoder.bool depth, ← Record.ofGiven depth actions notes⟩
  | _ => none

end StepRecord

namespace StoryRecord

def toValue (s : StoryRecord) : Value :=
  .object [("description", .text s.description), ("steps", .array (s.steps.map StepRecord.toValue))]

def decode : Decoder StoryRecord := fun depth raw => do
  match ← fieldsOf ["description", "steps"] depth raw with
  | (depth, [description, steps]) =>
      return ⟨← description.required Decoder.string depth,
        ← steps.defaulted (Decoder.list StepRecord.decode) [] depth⟩
  | _ => none

end StoryRecord

namespace Transcript

def toValue (t : Transcript) : Value :=
  .object ([("description", .text t.description)] ++ Value.optionalField "setup" Record.toValue t.setup
    ++ [("stories", .array (t.stories.map StoryRecord.toValue))])

def decode : Decoder Transcript := fun depth raw => do
  match ← fieldsOf ["description", "setup", "stories"] depth raw with
  | (depth, [description, setup, stories]) =>
      return ⟨← description.required Decoder.string depth,
        ← setup.defaulted (Decoder.option Record.decode) none depth,
        ← stories.required (Decoder.list StoryRecord.decode) depth⟩
  | _ => none

end Transcript

/-- One line of the index: a transcript and the file that holds it. -/
structure IndexEntry where
  description : String
  file : String
deriving Repr, DecidableEq

/-- All transcripts of a run, with the commit it ran against. -/
structure Index where
  commit : Option String
  transcripts : List IndexEntry
deriving Repr, DecidableEq

namespace IndexEntry

def toValue (e : IndexEntry) : Value := .object [("desc", .text e.description), ("file", .text e.file)]

def decode : Decoder IndexEntry := fun depth raw => do
  match ← fieldsOf ["desc", "file"] depth raw with
  | (depth, [description, file]) =>
      return ⟨← description.required Decoder.string depth, ← file.required Decoder.string depth⟩
  | _ => none

end IndexEntry

namespace Index

def toValue (i : Index) : Value :=
  .object [("commit", Value.ofOption Value.text i.commit),
    ("transcripts", .array (i.transcripts.map IndexEntry.toValue))]

def decode : Decoder Index := fun depth raw => do
  match ← fieldsOf ["commit", "transcripts"] depth raw with
  | (depth, [commit, transcripts]) =>
      return ⟨← commit.nullable Decoder.string depth,
        ← transcripts.required (Decoder.list IndexEntry.decode) depth⟩
  | _ => none

end Index

end Storyline
