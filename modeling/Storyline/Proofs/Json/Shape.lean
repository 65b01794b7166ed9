import Storyline.Json.Value
import Mathlib.Data.String.Basic

/-! What values are made of: which of them have no fractions in them, which can be recorded as they are, and how
deep they nest. -/

namespace Storyline.Value

mutual

def all (p : Value → Bool) : Value → Bool
  | .array items => p (.array items) && allItems p items
  | .object fields => p (.object fields) && allFields p fields
  | v => p v

def allItems (p : Value → Bool) : List Value → Bool
  | [] => true
  | v :: rest => v.all p && allItems p rest

def allFields (p : Value → Bool) : List (String × Value) → Bool
  | [] => true
  | (_, v) :: rest => v.all p && allFields p rest

end

def isReal : Value → Bool
  | .real _ => true
  | _ => false

/-- No number in it has a fraction or an exponent. -/
def floatFree (v : Value) : Bool := v.all (!·.isReal)

/-- Whole numbers are in range, and the fields of an object are in order of their keys. -/
def isOrderly : Value → Bool
  | .real _ => false
  | .int n => inRange n
  | .object fields => decide ((fields.map Prod.fst).Pairwise (· < ·))
  | .null | .bool _ | .text _ | .array _ => true

/-- A value that can be recorded and has no fractions in it. -/
def recordable (v : Value) : Bool := v.all isOrderly

mutual

theorem floatFree_of_recordable : ∀ v : Value, v.recordable → v.floatFree
  | .null, _ | .bool _, _ | .int _, _ | .text _, _ => rfl
  | .array items, h => floatFree_items items h
  | .object fields, h => floatFree_fields fields (Bool.and_eq_true_iff.1 h).2

theorem floatFree_items : ∀ items : List Value, allItems isOrderly items → allItems (!·.isReal) items
  | [], _ => rfl
  | v :: rest, h => by
    obtain ⟨hv, hrest⟩ := Bool.and_eq_true_iff.1 h
    exact Bool.and_eq_true_iff.2 ⟨floatFree_of_recordable v hv, floatFree_items rest hrest⟩

theorem floatFree_fields : ∀ fields : List (String × Value), allFields isOrderly fields →
    allFields (!·.isReal) fields
  | [], _ => rfl
  | (_, v) :: rest, h => by
    obtain ⟨hv, hrest⟩ := Bool.and_eq_true_iff.1 h
    exact Bool.and_eq_true_iff.2 ⟨floatFree_of_recordable v hv, floatFree_fields rest hrest⟩

end

theorem floatFree_array {items : List Value} : (Value.array items).floatFree ↔ ∀ v ∈ items, v.floatFree := by
  induction items with
  | nil => exact iff_of_true rfl nofun
  | cons v items ih =>
    rw [List.forall_mem_cons, ← ih]
    exact Bool.and_eq_true_iff

theorem floatFree_array_map {β : Type} {f : β → Value} {xs : List β} (h : ∀ x ∈ xs, (f x).floatFree) :
    (Value.array (xs.map f)).floatFree := by
  rw [floatFree_array]
  exact List.forall_mem_map.2 h

theorem floatFree_object {fields : List (String × Value)} :
    (Value.object fields).floatFree ↔ ∀ field ∈ fields, field.2.floatFree := by
  induction fields with
  | nil => exact iff_of_true rfl nofun
  | cons field fields ih =>
    rw [List.forall_mem_cons, ← ih]
    exact Bool.and_eq_true_iff

/-! Fields in order. -/

theorem putField_last {fields : List (String × Value)} {key : String} (h : ∀ k ∈ fields.map Prod.fst, k < key)
    (v : Value) : putField key v fields = fields ++ [(key, v)] := by
  induction fields with
  | nil => rfl
  | cons field fields ih =>
    obtain ⟨k, old⟩ := field
    have hk : k < key := h k List.mem_cons_self
    rw [putField, if_neg, if_neg hk.not_gt, ih fun k' hk' => h k' (List.mem_cons_of_mem k hk')]
    · rfl
    · rw [beq_iff_eq]
      exact hk.ne'

theorem foldl_putField {before fields : List (String × Value)}
    (h : ((before ++ fields).map Prod.fst).Pairwise (· < ·)) :
    fields.foldl (fun sorted (key, value) => putField key value sorted) before = before ++ fields := by
  induction fields generalizing before with
  | nil => exact (List.append_nil before).symm
  | cons field fields ih =>
    obtain ⟨key, v⟩ := field
    have hlast : ∀ k ∈ before.map Prod.fst, k < key := by
      intro k hk
      rw [List.map_append] at h
      exact (List.pairwise_append.1 h).2.2 k hk key List.mem_cons_self
    rw [List.append_cons] at h ⊢
    change fields.foldl _ (putField key v before) = _
    rw [putField_last hlast, ih h]

theorem sortFields_eq_self {fields : List (String × Value)} (h : (fields.map Prod.fst).Pairwise (· < ·)) :
    sortFields fields = fields :=
  foldl_putField h

/-! Depth. -/

mutual

/-- How many containers deep a value nests. -/
def height : Value → Nat
  | .null | .bool _ | .int _ | .real _ | .text _ => 0
  | .array items => itemsHeight items + 1
  | .object fields => fieldsHeight fields + 1

def itemsHeight : List Value → Nat
  | [] => 0
  | v :: rest => max v.height (itemsHeight rest)

def fieldsHeight : List (String × Value) → Nat
  | [] => 0
  | (_, v) :: rest => max v.height (fieldsHeight rest)

end

@[simp] theorem height_text (s : String) : (Value.text s).height = 0 := rfl

theorem height_array_map_le {β : Type} {f : β → Value} {xs : List β} {m : Nat} (h : ∀ x ∈ xs, (f x).height ≤ m) :
    (Value.array (xs.map f)).height ≤ m + 1 := by
  refine Nat.succ_le_succ ?_
  induction xs with
  | nil => exact Nat.zero_le m
  | cons x xs ih =>
    exact Nat.max_le.2 ⟨h x List.mem_cons_self, ih fun y hy => h y (List.mem_cons_of_mem x hy)⟩

end Storyline.Value
