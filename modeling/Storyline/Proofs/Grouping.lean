import Storyline.Proofs.Chains
import Storyline.Rehearsal.Audience
import Mathlib.Data.List.ProdSigma

/-! Groups of observers are not noticed. However observers are put into groups, they are told the same events in the
same order, and whoever tells them gets the same answers, over any number of events. -/

namespace Storyline

variable {τ ω κ : Type}

/-- Someone at a seat was told an event, and answered. -/
structure Receipt (κ : Type) where
  event : Event
  seat : κ
  answer : Except Error Unit

namespace Notify

def inTurn (notify : Notify τ ω) : List Event → τ → ω → List (Except Error Unit) × τ × ω
  | [], o, w => ([], o, w)
  | e :: rest, o, w =>
      let (r, o, w) := notify e o w
      let (rs, o, w) := notify.inTurn rest o w
      (r :: rs, o, w)

/-- Tells each event to a row of observers; gives the answers to each. -/
def rounds (notify : Notify τ ω) : List Event → List τ → ω → List (List (Except Error Unit)) × List τ × ω
  | [], os, w => ([], os, w)
  | e :: rest, os, w =>
      let (rs, os, w) := notify.row e os w
      let (rounds, os, w) := notify.rounds rest os w
      (rs :: rounds, os, w)

/-- Observers at seats, beside someone who keeps a receipt of all that they are told. -/
def receipted (notify : Notify τ ω) : Notify (κ × τ) (ω × List (Receipt κ)) := fun e (seat, o) (w, receipts) =>
  let (r, o, w) := notify e o w
  (r, (seat, o), w, receipts ++ [⟨e, seat, r⟩])

end Notify

theorem firstErrorOf_eq_find? (rs : List (Except Error Unit)) :
    firstErrorOf rs = (rs.find? (!·.isOk)).getD (.ok ()) := by
  induction rs with
  | nil => rfl
  | cons r rs ih =>
    cases r with
    | ok u => simpa [firstErrorOf, firstError, Except.isOk, Except.toBool] using ih
    | error e => simp [firstErrorOf, firstError, Except.isOk, Except.toBool]

namespace Notify

variable (notify : Notify τ ω)

theorem length_row (e : Event) (os : List τ) (w : ω) :
    (notify.row e os w).1.length = os.length ∧ (notify.row e os w).2.1.length = os.length := by
  induction os generalizing w with
  | nil => exact ⟨rfl, rfl⟩
  | cons o os ih =>
    obtain ⟨hanswers, hseats⟩ := ih (notify e o w).2.2
    exact ⟨congrArg (· + 1) hanswers, congrArg (· + 1) hseats⟩

theorem length_rounds (events : List Event) (os : List τ) (w : ω) :
    (notify.rounds events os w).1.map List.length = (events.map fun _ => os.length) ∧
      (notify.rounds events os w).2.1.length = os.length := by
  induction events generalizing os w with
  | nil => exact ⟨rfl, rfl⟩
  | cons e events ih =>
    obtain ⟨hanswers, hseats⟩ := notify.length_row e os w
    have hrest := ih (notify.row e os w).2.1 (notify.row e os w).2.2
    rw [hseats] at hrest
    simp only [rounds, List.map_cons, hanswers]
    exact ⟨congrArg _ hrest.1, hrest.2⟩

/-- What is kept of one event: a receipt from every seat, with the answer that was given there. -/
def receiptsOf (e : Event) (seats : List κ) (answers : List (Except Error Unit)) : List (Receipt κ) :=
  (seats.zip answers).map fun (seat, answer) => ⟨e, seat, answer⟩

theorem receiptsOf_told (e : Event) {seats : List κ} {answers : List (Except Error Unit)}
    (h : seats.length = answers.length) :
    (receiptsOf e seats answers).map (fun r => (r.event, r.seat)) = seats.map (Prod.mk e) := by
  calc
    _ = ((seats.zip answers).map Prod.fst).map (Prod.mk e) := by simp [receiptsOf]
    _ = seats.map (Prod.mk e) := by rw [List.map_fst_zip (Nat.le_of_eq h)]

theorem receiptsOf_answer (e : Event) {seats : List κ} {answers : List (Except Error Unit)}
    (h : seats.length = answers.length) : (receiptsOf e seats answers).map Receipt.answer = answers := by
  calc
    _ = (seats.zip answers).map Prod.snd := by simp [receiptsOf]
    _ = answers := List.map_snd_zip (Nat.le_of_eq h.symm)

theorem row_receipted (e : Event) (os : List (κ × τ)) (w : ω) (receipts : List (Receipt κ)) :
    let told := notify.row e (os.map Prod.snd) w
    notify.receipted.row e os (w, receipts) =
      (told.1, (os.map Prod.fst).zip told.2.1, told.2.2,
        receipts ++ receiptsOf e (os.map Prod.fst) told.1) := by
  induction os generalizing w receipts with
  | nil => simp [row, receiptsOf]
  | cons o os ih =>
    have hrest := ih (notify e o.2 w).2.2 (receipts ++ [⟨e, o.1, (notify e o.2 w).1⟩])
    simp only [row, receipted, List.map_cons, receiptsOf, List.zip_cons_cons] at hrest ⊢
    rw [hrest, List.append_assoc]
    rfl

/-- Everyone in a row gives a receipt for every event, and to keep them changes nothing else. -/
theorem rounds_receipted (events : List Event) (os : List (κ × τ)) (w : ω) (receipts : List (Receipt κ)) :
    let told := notify.rounds events (os.map Prod.snd) w
    let kept := notify.receipted.rounds events os (w, receipts)
    (kept.1, kept.2.1, kept.2.2.1) = (told.1, (os.map Prod.fst).zip told.2.1, told.2.2) ∧
    kept.2.2.2.map (fun r => (r.event, r.seat)) =
      receipts.map (fun r => (r.event, r.seat)) ++ events ×ˢ os.map Prod.fst ∧
    kept.2.2.2.map Receipt.answer = receipts.map Receipt.answer ++ told.1.flatten := by
  induction events generalizing os w receipts with
  | nil =>
    have hos : os = (os.map Prod.fst).zip (os.map Prod.snd) := List.zip_of_prod rfl rfl
    simp [rounds, ← hos]
  | cons e events ih =>
    obtain ⟨hanswers, hseats⟩ := notify.length_row e (os.map Prod.snd) w
    rw [List.length_map, ← List.length_map Prod.fst] at hanswers hseats
    simp only [rounds, notify.row_receipted e os w receipts]
    obtain ⟨hsame, htold, hanswered⟩ :=
      ih ((os.map Prod.fst).zip (notify.row e (os.map Prod.snd) w).2.1) (notify.row e (os.map Prod.snd) w).2.2
        (receipts ++ receiptsOf e (os.map Prod.fst) (notify.row e (os.map Prod.snd) w).1)
    rw [List.map_snd_zip (Nat.le_of_eq hseats), List.map_fst_zip (Nat.le_of_eq hseats.symm)] at hsame
    rw [List.map_fst_zip (Nat.le_of_eq hseats.symm)] at htold
    rw [List.map_snd_zip (Nat.le_of_eq hseats)] at hanswered
    simp only [Prod.mk.injEq] at hsame ⊢
    refine ⟨⟨by rw [hsame.1], hsame.2⟩, ?_, ?_⟩
    · rw [htold, List.map_append, receiptsOf_told e hanswers.symm, List.append_assoc, List.product_cons]
    · rw [hanswered, List.map_append, receiptsOf_answer e hanswers.symm, List.append_assoc, List.flatten_cons]

end Notify

/-- However its observers are grouped, a chain is told events like a row, and answers each with the first error. -/
theorem Chain.inTurn_rounds (notify : Notify τ ω) (events : List Event) (c : Chain τ) (w : ω) :
    let told := Notify.inTurn (Chain.notify notify) events c w
    let row := notify.rounds events c.toList w
    (told.1, told.2.1.toList, told.2.2) = (row.1.map firstErrorOf, row.2.1, row.2.2) := by
  induction events generalizing c w with
  | nil => rfl
  | cons e events ih =>
    have hnow := notify_row notify e c w
    have hrest := ih (c.notify notify e w).2.1 (c.notify notify e w).2.2
    simp only [Prod.mk.injEq] at hnow hrest
    obtain ⟨hresult, hseats, hworld⟩ := hnow
    rw [hseats] at hrest
    obtain ⟨hresults, hleft⟩ := hrest
    simp only [Notify.inTurn, Notify.rounds, List.map_cons, ← hworld, ← hresult, ← hresults, Prod.mk.injEq]
    exact ⟨trivial, hleft⟩

/-- Observers in groups, each at a seat of its own or not. Every one of them is told every event once, in the order of
the events, and for each event from left to right, whatever the others answer. The answer of all to an event is the
error of the first who failed, or none. If the same observers are grouped in another way, with empty groups or with
none at all, they answer the same and are left the same, and so is their world. -/
theorem groups_unnoticed (notify : Notify τ ω) (events : List Event) (c : Chain (κ × τ)) (w : ω) :
    let told := Notify.inTurn (Chain.notify notify.receipted) events c (w, [])
    let receipts := told.2.2.2
    told.2.1.toList.map Prod.fst = c.toList.map Prod.fst ∧
    receipts.map (fun r => (r.event, r.seat)) = events ×ˢ c.toList.map Prod.fst ∧
    (∃ rounds : List (List (Except Error Unit)),
      rounds.map List.length = (events.map fun _ => c.toList.length) ∧
      receipts.map Receipt.answer = rounds.flatten ∧
      told.1 = rounds.map fun answers => (answers.find? (!·.isOk)).getD (.ok ())) ∧
    ∀ c' : Chain τ, c'.toList = c.toList.map Prod.snd →
      let plain := Notify.inTurn (Chain.notify notify) events c' w
      plain.1 = told.1 ∧ plain.2.1.toList = told.2.1.toList.map Prod.snd ∧ plain.2.2 = told.2.2.1 := by
  intro told receipts
  obtain ⟨hresults, hseats, hworld⟩ : told.1 = _ ∧ told.2.1.toList = _ ∧ told.2.2 = _ := by
    simpa only [Prod.mk.injEq] using Chain.inTurn_rounds notify.receipted events c (w, [])
  obtain ⟨hsame, htold, hanswered⟩ := notify.rounds_receipted events c.toList w []
  simp only [Prod.mk.injEq] at hsame
  obtain ⟨hanswers, hobservers, hplain⟩ := hsame
  obtain ⟨hrounds, hlength⟩ := notify.length_rounds events (c.toList.map Prod.snd) w
  rw [List.length_map] at hrounds
  rw [List.length_map, ← List.length_map Prod.fst] at hlength
  have hreceipts : receipts = (notify.receipted.rounds events c.toList (w, [])).2.2.2 := congrArg Prod.snd hworld
  have hnames : told.2.1.toList = (c.toList.map Prod.fst).zip _ := hseats.trans hobservers
  refine ⟨?_, hreceipts ▸ htold, ⟨_, hrounds, hreceipts ▸ hanswered, ?_⟩, fun c' hc' => ?_⟩
  · rw [hnames, List.map_fst_zip (Nat.le_of_eq hlength.symm)]
  · rw [hresults, hanswers]
    exact List.map_congr_left fun answers _ => firstErrorOf_eq_find? answers
  · have hplainly := Chain.inTurn_rounds notify events c' w
    rw [hc'] at hplainly
    simp only [Prod.mk.injEq] at hplainly ⊢
    obtain ⟨hresults', hseats', hworld'⟩ := hplainly
    refine ⟨?_, ?_, ?_⟩
    · rw [hresults', hresults, hanswers]
    · rw [hseats', hnames, List.map_snd_zip (Nat.le_of_eq hlength)]
    · rw [hworld', hworld, hplain]

namespace Rehearsal

/-- One who answers to stories with an error, every time or once. -/
def complaining (name : String) (n : Option Nat) : Watcher :=
  .collector { name, fails := [⟨.story, n, ⟨.driver name, .library⟩⟩] }

/-- Observers at numbered seats, in groups of which two are empty. -/
def nestedWatchers : Chain (Nat × Watcher) :=
  .chain [
    .chain [],
    .chain [
      .observer (0, .silent),
      .chain [.observer (1, complaining "rarely" (some 2)), .chain []],
      .observer (2, complaining "always" none)],
    .observer (3, complaining "too" none)]

theorem nested_unnoticed :
    let events : List Event := [.story "s" false, .topic "T", .story "later" true]
    let told := Notify.inTurn (Chain.notify Watcher.notify.receipted) events nestedWatchers (({}, {}), [])
    let row := Notify.inTurn (Chain.notify Watcher.notify) events (.row (nestedWatchers.toList.map Prod.snd)) ({}, {})
    told.2.2.2.map Receipt.seat = [0, 1, 2, 3, 0, 1, 2, 3, 0, 1, 2, 3] ∧
    told.1 = [.error ⟨.driver "always", .library⟩, .ok (), .error ⟨.driver "rarely", .library⟩] ∧
    row.1 = told.1 ∧ row.2.1.toList = told.2.1.toList.map Prod.snd ∧ row.2.2 = told.2.2.1 := by
  intro events told row
  obtain ⟨-, htold, -, hregrouped⟩ := groups_unnoticed Watcher.notify events nestedWatchers ({}, {})
  have hseats := congrArg (List.map Prod.snd) htold
  rw [List.map_map] at hseats
  exact ⟨hseats, by decide +kernel, hregrouped (.row (nestedWatchers.toList.map Prod.snd)) rfl⟩

end Rehearsal

end Storyline
