/-! What a driver counts: expectations met and not met, with a detail of a failure. A count is a number without
a bound. It stands for a word of 64 bits as long as it fits one. -/

namespace Storyline

structure Tally where
  passed : Nat := 0
  failed : Nat := 0
  failure : Option String := none
deriving Repr, DecidableEq, Inhabited

namespace Tally

def withFailure (t : Tally) (failure : String) : Tally := { t with failure := some failure }

def isFailure (t : Tally) : Bool := 0 < t.failed

/-- Counts add up; the first detail stands. -/
def merge (t u : Tally) : Tally :=
  ⟨t.passed + u.passed, t.failed + u.failed, t.failure.or u.failure⟩

/-- Words of 64 bits hold the counts. -/
structure Fits (t : Tally) : Prop where
  passed : t.passed < UInt64.size
  failed : t.failed < UInt64.size

end Tally

end Storyline
