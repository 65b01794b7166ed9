import Storyline.Error
import Storyline.Tally

/-! How a path fared, and the totals of a run. Like tallies the totals are counted without a bound. Where they
fit words of 64 bits in the end, so do all the sums on the way there, and nothing overflows. -/

namespace Storyline

inductive Outcome where
  | passed
  | failed
  | errored (e : Error)
  | deferred
deriving Repr, DecidableEq

def Outcome.isFailure : Outcome → Bool
  | .failed | .errored _ => true
  | .passed | .deferred => false

structure PathReport where
  story : String
  description : String
  outcome : Outcome
  tally : Tally
deriving Repr, DecidableEq

structure Summary where
  expectations : Tally := {}
  pathsRun : Nat := 0
  pathsFailed : Nat := 0
  pathsDeferred : Nat := 0
  storiesDeferred : Nat := 0
  reportErrors : Nat := 0
deriving Repr, DecidableEq, Inhabited

namespace Summary

def record (s : Summary) (r : PathReport) : Summary :=
  { s with
    expectations := s.expectations.merge r.tally
    pathsRun := s.pathsRun + 1
    pathsFailed := s.pathsFailed + if r.outcome.isFailure then 1 else 0
    pathsDeferred := s.pathsDeferred + if r.outcome = .deferred then 1 else 0 }

def isSuccess (s : Summary) : Bool :=
  s.pathsFailed == 0 && !s.expectations.isFailure && s.reportErrors == 0

/-- Words of 64 bits hold the totals. -/
structure Fits (s : Summary) : Prop where
  expectations : s.expectations.Fits
  pathsRun : s.pathsRun < UInt64.size
  pathsFailed : s.pathsFailed < UInt64.size
  pathsDeferred : s.pathsDeferred < UInt64.size
  storiesDeferred : s.storiesDeferred < UInt64.size
  reportErrors : s.reportErrors < UInt64.size

end Summary

end Storyline
