import Storyline.Proofs.Json.Reading

/-! Reading back what was written. A value nests so many containers deep, and is read where so many levels are
left, and not where fewer are. -/

namespace Storyline.Json

open Text Value

variable {β γ : Type}

/-- What is read of something that needs `height` levels, where so many are left. -/
def within (height depth : Nat) (x : β) : Option β := if height ≤ depth then some x else none

theorem within_zero (depth : Nat) (x : β) : within 0 depth x = some x := if_pos (Nat.zero_le depth)

theorem within_succ_succ (height depth : Nat) (x : β) :
    within (height + 1) (depth + 1) x = within height depth x := by
  simp only [within, Nat.add_le_add_iff_right]

theorem map_within (f : β → γ) (height depth : Nat) (x : β) :
    (within height depth x).map f = within height depth (f x) := by
  unfold within
  split_ifs <;> rfl

@[simp] theorem within_bind_some (f : β → γ) (height depth : Nat) (x : β) :
    ((within height depth x).bind fun y => some (f y)) = within height depth (f x) := by
  rw [← map_within, Option.map_eq_bind]
  rfl

/-- What is read one after the other needs the levels of both. -/
theorem within_bind_eq {height height' depth : Nat} {x : β} {f : β → Option γ} {y : γ}
    (h : f x = within height' depth y) : (within height depth x).bind f = within (max height height') depth y := by
  rw [within]
  by_cases hheight : height ≤ depth
  · rw [if_pos hheight, Option.bind_some, h]
    exact if_congr (by omega) rfl rfl
  · rw [if_neg hheight]
    exact (if_neg (by omega)).symm

@[simp] theorem within_bind (height height' depth : Nat) (x : β) (f : β → γ) :
    (within height depth x).bind (fun y => within height' depth (f y)) =
      within (max height height') depth (f x) := within_bind_eq rfl

/-- A decoder reads `v` as `x`. -/
def Reads (decode : Decoder β) (v : Value) (x : β) : Prop :=
  ∀ depth, decode depth v.raw = within v.height depth x

namespace Reads

theorem string (s : String) : Reads Decoder.string (.text s) s := by
  intro depth
  rw [Value.raw, Decoder.string, unescape_escape, Value.height, within_zero]
  exact congrArg some String.ofList_toList

theorem bool (b : Bool) : Reads Decoder.bool (.bool b) b := by
  intro depth
  rw [Value.height, within_zero]
  rfl

theorem natUpTo {bound n : Nat} (h : n ≤ bound) : Reads (Decoder.natUpTo bound) (.int n) n := by
  intro depth
  rw [Value.raw, Value.height, within_zero, Decoder.natUpTo, whole?_numeral]
  exact if_pos h

theorem raw_ne_null {v : Value} (h : v.floatFree) (hne : v ≠ .null) : v.raw ≠ .null := by
  cases v with
  | null => exact absurd rfl hne
  | real written => cases h
  | _ => exact nofun

variable {item : Decoder β} {v : Value} {x : β}

theorem option (h : Reads item v x) (hne : v.raw ≠ .null) : Reads item.option v (some x) := by
  intro depth
  rw [Decoder.option, h depth, map_within]
  exact hne

theorem none_option : Reads item.option .null none := by
  intro depth
  rw [Value.height, within_zero]
  rfl

theorem mapM_items {f : β → Value} {xs : List β} (h : ∀ x ∈ xs, Reads item (f x) x) (depth : Nat) :
    (rawItems (xs.map f)).mapM (item depth) = within (itemsHeight (xs.map f)) depth xs := by
  induction xs with
  | nil => exact (within_zero depth []).symm
  | cons x xs ih =>
    have hx := h x List.mem_cons_self
    have hxs := ih fun y hy => h y (List.mem_cons_of_mem x hy)
    rw [List.map_cons, rawItems, itemsHeight, List.mapM_cons, hx depth, hxs]
    simp only [Option.bind_eq_bind, Option.pure_def, within_bind_some, within_bind]

theorem list {f : β → Value} {xs : List β} (h : ∀ x ∈ xs, Reads item (f x) x) :
    Reads item.list (.array (xs.map f)) xs := by
  intro depth
  cases depth with
  | zero => rfl
  | succ depth =>
    rw [Value.raw, Decoder.list, Value.height, within_succ_succ, mapM_items h]

mutual

theorem value : ∀ (v : Value), v.recordable → Reads Decoder.value v v
  | .null, _, depth => (within_zero depth _).symm
  | .bool b, _, depth => (within_zero depth _).symm
  | .int n, h, depth => by
    rw [Value.raw, Decoder.value, whole?_numeral, Value.height, within_zero]
    exact if_pos h
  | .text s, _, depth => by
    rw [Value.raw, Decoder.value, unescape_escape, Value.height, within_zero]
    exact congrArg (some ∘ Value.text) String.ofList_toList
  | .array items, h, 0 => rfl
  | .array items, h, depth + 1 => by
    rw [Value.raw, Decoder.value, valueItems items h, map_within, Value.height, within_succ_succ]
  | .object fields, h, 0 => rfl
  | .object fields, h, depth + 1 => by
    obtain ⟨hkeys, hfields⟩ := Bool.and_eq_true_iff.1 h
    rw [Value.raw, Decoder.value, valueFields fields hfields, map_within, Value.height, within_succ_succ,
      sortFields_eq_self (of_decide_eq_true hkeys)]

theorem valueItems : ∀ (items : List Value), allItems isOrderly items → ∀ depth,
    Decoder.valueItems depth (rawItems items) = within (itemsHeight items) depth items
  | [], _, depth => (within_zero depth _).symm
  | v :: rest, h, depth => by
    obtain ⟨hv, hrest⟩ := Bool.and_eq_true_iff.1 h
    rw [rawItems, Decoder.valueItems, value v hv depth, valueItems rest hrest depth, itemsHeight]
    simp only [Option.bind_eq_bind, Option.pure_def, within_bind_some, within_bind]

theorem valueFields : ∀ (fields : List (String × Value)), allFields isOrderly fields → ∀ depth,
    Decoder.valueFields depth (rawFields fields) = within (fieldsHeight fields) depth fields
  | [], _, depth => (within_zero depth _).symm
  | (key, v) :: rest, h, depth => by
    obtain ⟨hv, hrest⟩ := Bool.and_eq_true_iff.1 h
    rw [rawFields, Decoder.valueFields, value v hv depth, valueFields rest hrest depth, fieldsHeight,
      unescape_escape]
    simp only [Option.bind_eq_bind, Option.pure_def, Option.bind_some, within_bind_some, within_bind,
      String.ofList_toList]

end

end Reads

end Storyline.Json
