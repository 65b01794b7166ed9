import Storyline.Proofs.Json.Decoding

/-! Records as objects. A field that is left out is found unnamed, and a record is read by what reads its
fields. -/

namespace Storyline.Json

open Value

variable {β γ : Type}

/-- The fields of a record, those that are left out too. -/
abbrev Layout := List (String × Option Value)

namespace Layout

def present (layout : Layout) : List (String × Value) := layout.filterMap fun (key, v) => v.map (key, ·)

def given : Option Value → Given
  | none => .unnamed
  | some v => .here v.raw

end Layout

theorem Layout.filter_present_of_notMem {layout : Layout} {key : String} (h : key ∉ layout.map Prod.fst) :
    layout.present.filter (·.1 == key) = [] := by
  rw [List.filter_eq_nil_iff]
  intro field hfield
  obtain ⟨⟨k, v⟩, hentry, hv⟩ := List.mem_filterMap.1 hfield
  obtain ⟨w, -, rfl⟩ := Option.map_eq_some_iff.1 hv
  rw [beq_iff_eq]
  rintro rfl
  exact h (List.mem_map_of_mem hentry)

theorem Layout.filter_present {layout : Layout} (hnodup : (layout.map Prod.fst).Nodup) {key : String}
    {v : Option Value} (hmem : (key, v) ∈ layout) :
    layout.present.filter (·.1 == key) = (v.map (key, ·)).toList := by
  induction layout with
  | nil => cases hmem
  | cons entry layout ih =>
    obtain ⟨k, w⟩ := entry
    obtain ⟨hk, hrest⟩ := List.nodup_cons.1 hnodup
    have hpresent : Layout.present ((k, w) :: layout) = (w.map (k, ·)).toList ++ Layout.present layout := by
      cases w <;> rfl
    rw [hpresent, List.filter_append]
    rcases List.mem_cons.1 hmem with heq | hmem
    · obtain ⟨rfl, rfl⟩ := Prod.mk.inj heq
      rw [filter_present_of_notMem hk, List.append_nil, List.filter_eq_self]
      intro field hfield
      obtain ⟨x, -, rfl⟩ := Option.map_eq_some_iff.1 (Option.mem_toList.1 hfield)
      exact beq_self_eq_true key
    · have hne : k ≠ key := by
        rintro rfl
        exact hk (List.mem_map.2 ⟨_, hmem, rfl⟩)
      have hnone : ((w.map (k, ·)).toList.filter (·.1 == key)) = [] := by
        rw [List.filter_eq_nil_iff]
        intro field hfield
        obtain ⟨x, -, rfl⟩ := Option.map_eq_some_iff.1 (Option.mem_toList.1 hfield)
        rwa [beq_iff_eq]
      rw [hnone, List.nil_append, ih hrest hmem]

theorem namedAs_cons (name : String) (body : List Char) (raw : Raw) (fields : List (List Char × Raw)) :
    namedAs name ((body, raw) :: fields) =
      if unescape body == some name.toList then raw :: namedAs name fields else namedAs name fields := by
  by_cases h : (unescape body == some name.toList) = true
  · rw [if_pos h]
    exact List.filterMap_cons_some (if_pos h)
  · rw [if_neg h]
    exact List.filterMap_cons_none (if_neg h)

theorem namedAs_rawFields (name : String) (fields : List (String × Value)) :
    namedAs name (rawFields fields) = (fields.filter (·.1 == name)).map (·.2.raw) := by
  induction fields with
  | nil => rfl
  | cons field fields ih =>
    obtain ⟨key, v⟩ := field
    have hkey : (unescape (escape key.toList) == some name.toList) = (key == name) := by
      rw [unescape_escape, Bool.eq_iff_iff, beq_iff_eq, beq_iff_eq, Option.some_inj, String.toList_inj]
    rw [rawFields, namedAs_cons, hkey, ih, List.filter_cons]
    split_ifs <;> rfl

theorem unescape_rawFields (fields : List (String × Value)) :
    ((rawFields fields).all fun (key, _) => (unescape key).isSome) = true := by
  induction fields with
  | nil => rfl
  | cons field fields ih =>
    obtain ⟨key, v⟩ := field
    have hkey : (unescape (escape key.toList)).isSome = true := by rw [unescape_escape, Option.isSome_some]
    exact Bool.and_eq_true_iff.2 ⟨hkey, ih⟩

theorem mapM_some {f : β → Option γ} {g : β → γ} {xs : List β} (h : ∀ x ∈ xs, f x = some (g x)) :
    xs.mapM f = some (xs.map g) := by
  induction xs with
  | nil => rfl
  | cons x xs ih =>
    rw [List.mapM_cons, h x List.mem_cons_self, ih fun y hy => h y (List.mem_cons_of_mem x hy)]
    rfl

theorem fieldsOf_raw {layout : Layout} (hnodup : (layout.map Prod.fst).Nodup) (depth : Nat) :
    fieldsOf (layout.map Prod.fst) (depth + 1) (Value.object layout.present).raw =
      some (depth, layout.map fun entry => Layout.given entry.2) := by
  have hnamed : ∀ entry ∈ layout, namedAs entry.1 (rawFields layout.present) = (entry.2.map Value.raw).toList := by
    intro entry hentry
    rw [namedAs_rawFields, Layout.filter_present hnodup hentry]
    cases entry.2 <;> rfl
  rw [Value.raw, fieldsOf, if_pos (unescape_rawFields _), List.mapM_map, mapM_some]
  · rfl
  · intro entry hentry
    simp only [Function.comp_apply, hnamed entry hentry]
    cases entry.2 <;> rfl

def Layout.height : Option Value → Nat
  | none => 0
  | some v => v.height

@[simp] theorem Layout.fieldsHeight_present_nil : fieldsHeight (present []) = 0 := rfl

@[simp] theorem Layout.fieldsHeight_present_cons (entry : String × Option Value) (layout : Layout) :
    fieldsHeight (present (entry :: layout)) = max (height entry.2) (fieldsHeight layout.present) := by
  obtain ⟨key, v⟩ := entry
  cases v with
  | none => exact (Nat.zero_max _).symm
  | some v => rfl

theorem Layout.floatFree_present {layout : Layout} :
    (Value.object layout.present).floatFree ↔ ∀ entry ∈ layout, ∀ v ∈ entry.2, v.floatFree := by
  rw [floatFree_object]
  constructor
  · intro h entry hentry v hv
    exact h (entry.1, v) (List.mem_filterMap.2 ⟨entry, hentry, Option.map_eq_some_iff.2 ⟨v, hv, rfl⟩⟩)
  · intro h field hfield
    obtain ⟨⟨key, o⟩, hentry, hfield⟩ := List.mem_filterMap.1 hfield
    obtain ⟨v, hv, rfl⟩ := Option.map_eq_some_iff.1 hfield
    exact h (key, o) hentry v hv

theorem Layout.floatFree_some {v : Value} (h : v.floatFree) : ∀ w ∈ some v, w.floatFree := by
  intro w hw
  rwa [← Option.some.inj hw]

theorem Layout.floatFree_map {f : β → Value} {o : Option β} (h : ∀ x ∈ o, (f x).floatFree) :
    ∀ v ∈ o.map f, v.floatFree := by
  intro v hv
  obtain ⟨x, hx, rfl⟩ := Option.map_eq_some_iff.1 hv
  exact h x hx

@[simp] theorem Layout.height_some (v : Value) : height (some v) = v.height := rfl

theorem Layout.height_map_le {f : β → Value} {o : Option β} {m : Nat} (h : ∀ x ∈ o, (f x).height ≤ m) :
    height (o.map f) ≤ m := by
  cases o with
  | none => exact Nat.zero_le m
  | some x => exact h x rfl

/-- A record is read by what reads its fields. -/
theorem Reads.record {names : List String} (layout : Layout) (hnames : layout.map Prod.fst = names)
    (hnodup : names.Nodup) {k : Nat × List Given → Option β} {x : β}
    (h : ∀ depth, k (depth, layout.map fun entry => Layout.given entry.2) =
      within (fieldsHeight layout.present) depth x) :
    Reads (fun depth raw => (fieldsOf names depth raw).bind k) (.object layout.present) x := by
  subst hnames
  intro depth
  cases depth with
  | zero => rfl
  | succ depth =>
    rw [Value.height, within_succ_succ, ← h depth]
    exact congrArg (·.bind k) (fieldsOf_raw hnodup depth)

variable {item : Decoder β}

theorem required_given {v : Value} {x : β} (h : Reads item v x) (depth : Nat) :
    (Layout.given (some v)).required item depth = within (Layout.height (some v)) depth x := h depth

theorem nullable_given {f : β → Value} {o : Option β} (h : ∀ x ∈ o, Reads item (f x) x ∧ (f x).raw ≠ .null)
    (depth : Nat) : (Layout.given (some (Value.ofOption f o))).nullable item depth =
      within (Layout.height (some (Value.ofOption f o))) depth o := by
  cases o with
  | none => exact (Reads.none_option : Reads item.option .null none) depth
  | some x => exact (h x rfl).1.option (h x rfl).2 depth

theorem defaulted_given {f : β → Value} {o : Option β} (h : ∀ x ∈ o, Reads item (f x) x ∧ (f x).raw ≠ .null)
    (depth : Nat) : (Layout.given (o.map f)).defaulted item.option none depth =
      within (Layout.height (o.map f)) depth o := by
  cases o with
  | none => exact (within_zero depth none).symm
  | some x => exact (h x rfl).1.option (h x rfl).2 depth

theorem defaulted_here {v : Value} {x : β} (h : Reads item v x) (default : β) (depth : Nat) :
    (Layout.given (some v)).defaulted item default depth = within (Layout.height (some v)) depth x := h depth

end Storyline.Json
