import Storyline.Observer

/-! The progress report in plain text. -/

namespace Storyline

/-- Where a report goes. A sink with limited room takes what fits and then fails. -/
structure Sink where
  text : String := ""
  /-- How many bytes it still takes. -/
  room : Option Nat := none
  flushFails : Bool := false
deriving Repr, DecidableEq

namespace Sink

/-- What can be read of the first `room` bytes; a torn character reads as a replacement mark. -/
def firstBytes : Nat → List Char → List Char
  | 0, _ => []
  | _, [] => []
  | room + 1, c :: rest =>
      if c.utf8Size ≤ room + 1 then c :: firstBytes (room + 1 - c.utf8Size) rest else ['\uFFFD']

def write (s : Sink) (text : String) : Except String Unit × Sink :=
  match s.room with
  | none => (.ok (), { s with text := s.text ++ text })
  | some room =>
      if text.utf8ByteSize ≤ room then
        (.ok (), { s with text := s.text ++ text, room := some (room - text.utf8ByteSize) })
      else
        (.error "sink full",
          { s with text := s.text ++ String.ofList (firstBytes room text.toList), room := some 0 })

def flush (s : Sink) : Except String Unit := if s.flushFails then .error "flush failed" else .ok ()

/-- Writes whole lines and flushes, up to the first failure. -/
def writeLines (s : Sink) : List String → Except String Unit × Sink
  | [] => (s.flush, s)
  | line :: rest =>
      match s.write (line ++ "\n") with
      | (.ok _, s) => s.writeLines rest
      | (.error e, s) => (.error e, s)

end Sink

namespace Console

def width : Nat := 80

/-- At the right margin; a text that is wider stands as it is. -/
def right (text : String) : String := String.ofList (List.replicate (width - text.length) ' ') ++ text

def detail (r : PathReport) : Option String :=
  match r.outcome with
  | .errored e => some e.text
  | .failed => some (r.tally.failure.getD s!"{r.tally.failed} expectation(s) failed")
  | .passed | .deferred => none

def pathLines (r : PathReport) : List String :=
  match detail r with
  | some detail => ["  XX: " ++ r.description, "", detail, ""]
  | none => if r.description.isEmpty then ["  ok"] else ["  ok: " ++ r.description]

def finishLines (s : Summary) : List String :=
  if s.isSuccess then [right s!"Expectations Passed: {s.expectations.passed}", right "ALL OK!"]
  else [right s!"Expectations Failed: {s.expectations.failed}", right "FAILED!"]

/-- The lines an event is worth; none at all for a transcript. -/
def lines : Event → Option (List String)
  | .topic description =>
      some ["", "", right description, String.ofList (List.replicate width '-')]
  | .story description false => some [description]
  | .story description true => some [description, "  #### deferred ####"]
  | .path r => some (pathLines r)
  | .transcript _ => none
  | .finish s => some (finishLines s)

def notify (e : Event) (s : Sink) : Except Error Unit × Sink :=
  match lines e with
  | none => (.ok (), s)
  | some lines =>
      let (r, s) := s.writeLines lines
      (r.mapError fun message => .run (.report message), s)

end Console

end Storyline
