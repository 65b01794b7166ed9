import Storyline.Observer

/-! Observers in groups, and in groups of groups, are told as if they stood in one row: each of them once, from
left to right, and the answer of all is the first error. -/

namespace Storyline

variable {τ ω : Type}

/-- Tells observers one after another, whatever the others answer. -/
def Notify.row (notify : Notify τ ω) (e : Event) : List τ → ω → List (Except Error Unit) × List τ × ω
  | [], w => ([], [], w)
  | o :: rest, w =>
      let (r, o, w) := notify e o w
      let (rs, rest, w) := notify.row e rest w
      (r :: rs, o :: rest, w)

def firstErrorOf : List (Except Error Unit) → Except Error Unit
  | [] => .ok ()
  | r :: rest => firstError r (firstErrorOf rest)

theorem firstErrorOf_append (rs rs' : List (Except Error Unit)) :
    firstErrorOf (rs ++ rs') = firstError (firstErrorOf rs) (firstErrorOf rs') := by
  induction rs with
  | nil => rfl
  | cons r rs ih =>
    rw [List.cons_append, firstErrorOf, firstErrorOf, ih]
    cases r <;> rfl

namespace Notify

variable (notify : Notify τ ω) (e : Event)

theorem row_append (os os' : List τ) (w : ω) :
    notify.row e (os ++ os') w =
      let (rs, os, w) := notify.row e os w
      let (rs', os', w) := notify.row e os' w
      (rs ++ rs', os ++ os', w) := by
  induction os generalizing w with
  | nil => rfl
  | cons o os ih =>
    simp only [List.cons_append, row, ih]

theorem row_seat {os : List τ} {n : Nat} {o : τ} (h : os[n]? = some o) (w : ω) :
    ∃ w', (notify.row e os w).2.1[n]? = some (notify e o w').2.1 := by
  induction os generalizing n w with
  | nil => cases h
  | cons o' os ih =>
    rw [row]
    cases n with
    | zero =>
      cases h
      exact ⟨w, rfl⟩
    | succ n => exact ih (by simpa using h) _

end Notify

namespace Chain

variable (notify : Notify τ ω) (e : Event)

mutual

/-- Groups do not matter for what the observers are told and answer. -/
theorem notify_row : ∀ (c : Chain τ) (w : ω),
    let told := c.notify notify e w
    let row := notify.row e c.toList w
    (told.1, told.2.1.toList, told.2.2) = (firstErrorOf row.1, row.2.1, row.2.2)
  | .observer o, w => by
    rcases htold : notify e o w with ⟨r, o', w'⟩
    simp only [Chain.notify, toList, Notify.row, htold, firstErrorOf]
    cases r <;> rfl
  | .chain members, w => by
    have hmembers := notifyAll_row members w
    rw [toList]
    exact hmembers

theorem notifyAll_row : ∀ (members : List (Chain τ)) (w : ω),
    let told := notifyAll notify e members w
    let row := notify.row e (listOf members) w
    (told.1, listOf told.2.1, told.2.2) = (firstErrorOf row.1, row.2.1, row.2.2)
  | [], w => rfl
  | member :: rest, w => by
    have hmember := notify_row member w
    have hrest := notifyAll_row rest (member.notify notify e w).2.2
    simp only [Prod.mk.injEq] at hmember hrest
    obtain ⟨hresult, hseats, hworld⟩ := hmember
    obtain ⟨hresults, hothers, hlast⟩ := hrest
    rw [listOf, Notify.row_append]
    simp only [notifyAll, listOf, firstErrorOf_append, ← hresult, ← hseats, ← hworld, ← hresults, ← hothers,
      ← hlast]

end

theorem notify_seat {c : Chain τ} {n : Nat} {o : τ} (h : c.toList[n]? = some o) (w : ω) :
    ∃ w', (c.notify notify e w).2.1.toList[n]? = some (notify e o w').2.1 := by
  have hrow := congrArg (·.2.1) (notify_row notify e c w)
  obtain ⟨w', hseat⟩ := notify.row_seat e h w
  exact ⟨w', (congrArg (·[n]?) hrow).trans hseat⟩

end Chain

end Storyline
