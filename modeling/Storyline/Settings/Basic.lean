import Storyline.Json.Decoder

/-! What a run can be told beforehand. -/

namespace Storyline

structure Settings where
  /-- Where the interface under test is. -/
  endpoint : Option String := none
  /-- Where transcripts go; without it none are kept. -/
  transcriptsDir : Option String := none
  /-- The state of the interface under test, noted in the index of transcripts. -/
  commit : Option String := none
deriving Repr, DecidableEq

namespace Settings

open Json

def names : List String := ["endpoint", "transcripts_dir", "commit"]

/-- Settings looked up by name, if each look-up succeeds. -/
def ofNames {m : Type → Type} [Monad m] (get : String → m (Option String)) : m Settings := do
  return ⟨← get "endpoint", ← get "transcripts_dir", ← get "commit"⟩

def toValue (s : Settings) : Value :=
  .object [("endpoint", Value.ofOption Value.text s.endpoint),
    ("transcripts_dir", Value.ofOption Value.text s.transcriptsDir),
    ("commit", Value.ofOption Value.text s.commit)]

def decode : Decoder Settings := fun depth raw => do
  match ← fieldsOf names depth raw with
  | (depth, [endpoint, transcriptsDir, commit]) =>
      return ⟨← endpoint.defaulted Decoder.string.option none depth,
        ← transcriptsDir.defaulted Decoder.string.option none depth,
        ← commit.defaulted Decoder.string.option none depth⟩
  | _ => none

/-- The settings of `upper`, and where it has none, those of `s`. -/
def overriddenBy (s upper : Settings) : Settings :=
  ⟨upper.endpoint.or s.endpoint, upper.transcriptsDir.or s.transcriptsDir, upper.commit.or s.commit⟩

end Settings

end Storyline
