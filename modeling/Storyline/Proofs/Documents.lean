import Storyline.Proofs.Json.Layout
import Storyline.Transcript.Document

/-! Documents are read back as what they were written for, where they do not nest too deep: for each part of a
transcript, the fields it is written with, and that it is read from them. -/

namespace Storyline

open Json

namespace Response

structure Recordable (r : Response) : Prop where
  status : ∀ n ∈ r.status, n ≤ 0xFFFF
  body : r.body.recordable

def layout (r : Response) : Layout :=
  [("statusCode", some (Value.ofOption (fun n : Nat => .int n) r.status)), ("body", some r.body)]

theorem toValue_eq (r : Response) : r.toValue = .object r.layout.present := rfl

variable {r : Response}

theorem reads (h : r.Recordable) : Reads decode r.toValue r := by
  have hstatus : ∀ n ∈ r.status, Reads Decoder.word16 (.int n) n ∧ (Value.int n).raw ≠ .null :=
    fun n hn => ⟨.natUpTo (h.status n hn), nofun⟩
  refine Reads.record r.layout (by rfl) (by decide) fun depth => ?_
  simp [layout, nullable_given hstatus, required_given (Reads.value _ h.body)]

theorem floatFree (h : r.Recordable) : r.toValue.floatFree := by
  have hstatus : (Value.ofOption (fun n : Nat => .int n) r.status).floatFree := by
    cases r.status <;> rfl
  have hbody := Value.floatFree_of_recordable r.body h.body
  rw [toValue_eq, Layout.floatFree_present]
  simp only [layout, List.forall_mem_cons]
  exact ⟨Layout.floatFree_some hstatus, Layout.floatFree_some hbody, nofun⟩

end Response

namespace Action

/-- An action whose request and response can be recorded. A request that is null is not told from none. -/
structure Recordable (a : Action) : Prop where
  request : ∀ v ∈ a.request, v.recordable ∧ v ≠ .null
  response : ∀ r ∈ a.response, r.Recordable

def layout (a : Action) : Layout :=
  [("actor", a.actor.map Value.text), ("request", a.request), ("response", a.response.map Response.toValue)]

theorem toValue_eq (a : Action) : a.toValue = .object a.layout.present := by
  obtain ⟨actor, request, response⟩ := a
  cases actor <;> cases request <;> cases response <;> rfl

variable {a : Action}

theorem reads (h : a.Recordable) : Reads decode a.toValue a := by
  have hactor : ∀ s ∈ a.actor, Reads Decoder.string (.text s) s ∧ (Value.text s).raw ≠ .null :=
    fun s _ => ⟨.string s, nofun⟩
  have hrequest : ∀ v ∈ a.request, Reads Decoder.value v v ∧ v.raw ≠ .null := by
    intro v hv
    obtain ⟨hrecordable, hne⟩ := h.request v hv
    exact ⟨Reads.value v hrecordable, Reads.raw_ne_null (Value.floatFree_of_recordable v hrecordable) hne⟩
  have hrequest := defaulted_given (f := fun v => v) hrequest
  have hresponse : ∀ r ∈ a.response, Reads Response.decode r.toValue r ∧ r.toValue.raw ≠ .null :=
    fun r hr => ⟨Response.reads (h.response r hr), nofun⟩
  simp only [Option.map_id_fun', id_eq] at hrequest
  rw [toValue_eq]
  refine Reads.record a.layout (by rfl) (by decide) fun depth => ?_
  simp [layout, defaulted_given hactor, hrequest, defaulted_given hresponse]

theorem floatFree (h : a.Recordable) : a.toValue.floatFree := by
  have hactor : ∀ s ∈ a.actor, (Value.text s).floatFree := fun _ _ => rfl
  have hrequest : ∀ v ∈ a.request, v.floatFree :=
    fun v hv => Value.floatFree_of_recordable v (h.request v hv).1
  have hresponse : ∀ r ∈ a.response, r.toValue.floatFree := fun r hr => Response.floatFree (h.response r hr)
  rw [toValue_eq, Layout.floatFree_present]
  simp only [layout, List.forall_mem_cons]
  exact ⟨Layout.floatFree_map hactor, hrequest, Layout.floatFree_map hresponse, nofun⟩

end Action

namespace Notes

/-- Notes in order of their keys, each a number that a document can hold. -/
structure Recordable (notes : Notes) : Prop where
  ascending : (notes.map Prod.fst).Pairwise (· < ·)
  bounded : ∀ key ∈ notes.map Prod.fst, key ≤ 0xFFFFFFFFFFFFFFFF

theorem put_last {notes : Notes} {key : Nat} (h : ∀ k ∈ notes.map Prod.fst, k < key) (texts : List String) :
    notes.put key texts = notes ++ [(key, texts)] := by
  induction notes with
  | nil => rfl
  | cons note notes ih =>
    obtain ⟨k, old⟩ := note
    have hk : k < key := h k List.mem_cons_self
    rw [put, if_neg hk.ne', if_neg hk.not_gt, ih fun k' hk' => h k' (List.mem_cons_of_mem k hk')]
    rfl

theorem decodeKey_toString {key : Nat} (h : key ≤ 0xFFFFFFFFFFFFFFFF) :
    decodeKey (Value.escape (toString key).toList) = some key := by
  have hdigits : (toString key).toList = Nat.toDigits 10 key := Nat.toList_repr
  have hkey : Text.Numeral.ofText? (Nat.toDigits 10 key) = some (numeral key) :=
    (isWhole_toDigits key).ofText? false
  -- a key is read without its escapes being read, which digits do not have
  rw [hdigits, escape_toDigits, decodeKey, hkey]
  exact (Reads.natUpTo h 0).trans (within_zero 0 key)

def addField (depth : Nat) (notes : Notes) (field : List Char × Raw) : Option Notes := do
  return put (← decodeKey field.1) (← Decoder.list Decoder.string depth field.2) notes

def field (note : Nat × List String) : String × Value := (toString note.1, .array (note.2.map Value.text))

theorem foldlM_addField (before : Notes) {notes : Notes} (h : Recordable (before ++ notes)) (depth : Nat) :
    (Value.rawFields (notes.map field)).foldlM (addField depth) before =
      within (Value.fieldsHeight (notes.map field)) depth (before ++ notes) := by
  induction notes generalizing before with
  | nil =>
    rw [List.append_nil]
    exact (within_zero depth before).symm
  | cons note notes ih =>
    obtain ⟨key, texts⟩ := note
    have hbefore : ∀ k ∈ before.map Prod.fst, k < key := by
      intro k hk
      have hpairs := h.ascending
      rw [List.map_append] at hpairs
      exact (List.pairwise_append.1 hpairs).2.2 k hk key List.mem_cons_self
    have hkey : key ≤ 0xFFFFFFFFFFFFFFFF := h.bounded key (by simp)
    have htexts : Reads (Decoder.list Decoder.string) (.array (texts.map Value.text)) texts :=
      .list fun s _ => .string s
    have hadd : addField depth before (Value.escape (toString key).toList, (Value.array (texts.map .text)).raw) =
        within (Value.array (texts.map .text)).height depth (before ++ [(key, texts)]) := by
      simp only [addField, decodeKey_toString hkey, htexts depth, put_last hbefore, Option.bind_eq_bind,
        Option.bind_some, Option.pure_def, within_bind_some]
    rw [List.append_cons] at h ⊢
    rw [List.map_cons, field, Value.rawFields, List.foldlM_cons, hadd]
    exact within_bind_eq (ih _ h)

theorem reads {notes : Notes} (h : notes.Recordable) : Reads decode notes.toValue notes := by
  intro depth
  cases depth with
  | zero => rfl
  | succ depth =>
    have hfields : decode (depth + 1) notes.toValue.raw =
        (Value.rawFields (notes.map field)).foldlM (addField depth) [] := rfl
    rw [hfields, foldlM_addField [] h]
    exact (within_succ_succ _ _ _).symm

theorem floatFree (notes : Notes) : notes.toValue.floatFree :=
  Value.floatFree_object.2 (List.forall_mem_map.2 fun _ _ => Value.floatFree_array_map fun _ _ => rfl)

end Notes

namespace Record

structure Recordable (r : Record) : Prop where
  actions : ∀ a ∈ r.actions, a.Recordable
  notes : r.notes.Recordable

def layout (r : Record) : Layout :=
  [("actions", some (.array (r.actions.map Action.toValue))), ("docStrings", some r.notes.toValue)]

variable {r : Record}

theorem ofGiven_layout (h : r.Recordable) (depth : Nat) :
    ofGiven depth (Layout.given (some (.array (r.actions.map Action.toValue))))
        (Layout.given (some r.notes.toValue)) =
      within (Value.fieldsHeight r.layout.present) depth r := by
  have hactions := required_given (Reads.list fun a ha => Action.reads (h.actions a ha))
  have hnotes := defaulted_here (Notes.reads h.notes) []
  simp [ofGiven, layout, hactions, hnotes]

theorem reads (h : r.Recordable) : Reads decode r.toValue r :=
  Reads.record r.layout (by rfl) (by decide) (ofGiven_layout h)

theorem floatFree_layout (h : r.Recordable) : ∀ entry ∈ r.layout, ∀ v ∈ entry.2, v.floatFree := by
  have hactions := Value.floatFree_array_map fun a ha => Action.floatFree (h.actions a ha)
  simp only [layout, List.forall_mem_cons]
  exact ⟨Layout.floatFree_some hactions, Layout.floatFree_some r.notes.floatFree, nofun⟩

theorem floatFree (h : r.Recordable) : r.toValue.floatFree := Layout.floatFree_present.2 (floatFree_layout h)

end Record

namespace StepRecord

structure Recordable (s : StepRecord) : Prop where
  depth : s.depth ≤ 0xFFFFFFFFFFFFFFFF
  record : s.record.Recordable

def layout (s : StepRecord) : Layout :=
  [("description", some (.text s.description)), ("depth", some (.int s.depth)), ("isFork", some (.bool s.isFork))]
    ++ s.record.layout

theorem toValue_eq (s : StepRecord) : s.toValue = .object s.layout.present := rfl

variable {s : StepRecord}

theorem reads (h : s.Recordable) : Reads decode s.toValue s := by
  have hdepth : Reads Decoder.word64 (.int s.depth) s.depth := .natUpTo h.depth
  refine Reads.record s.layout (by rfl) (by decide) fun depth => ?_
  have hrecord := Record.ofGiven_layout h.record depth
  simp [layout, Record.layout, required_given (Reads.string _), required_given (Reads.bool _),
    required_given hdepth, hrecord]

theorem floatFree (h : s.Recordable) : s.toValue.floatFree := by
  rw [toValue_eq, Layout.floatFree_present]
  simp only [layout, List.forall_mem_append, List.forall_mem_cons]
  exact ⟨⟨Layout.floatFree_some rfl, Layout.floatFree_some rfl, Layout.floatFree_some rfl, nofun⟩,
    Record.floatFree_layout h.record⟩

end StepRecord

namespace StoryRecord

def Recordable (s : StoryRecord) : Prop := ∀ step ∈ s.steps, step.Recordable

def layout (s : StoryRecord) : Layout :=
  [("description", some (.text s.description)), ("steps", some (.array (s.steps.map StepRecord.toValue)))]

theorem toValue_eq (s : StoryRecord) : s.toValue = .object s.layout.present := rfl

variable {s : StoryRecord}

theorem reads (h : s.Recordable) : Reads decode s.toValue s := by
  have hsteps := defaulted_here (Reads.list fun step hstep => StepRecord.reads (h step hstep)) []
  refine Reads.record s.layout (by rfl) (by decide) fun depth => ?_
  simp [layout, required_given (Reads.string _), hsteps]

theorem floatFree (h : s.Recordable) : s.toValue.floatFree := by
  have hsteps := Value.floatFree_array_map fun step hstep => StepRecord.floatFree (h step hstep)
  rw [toValue_eq, Layout.floatFree_present]
  simp only [layout, List.forall_mem_cons]
  exact ⟨Layout.floatFree_some rfl, Layout.floatFree_some hsteps, nofun⟩

end StoryRecord

namespace Transcript

structure Recordable (t : Transcript) : Prop where
  setup : ∀ r ∈ t.setup, r.Recordable
  stories : ∀ s ∈ t.stories, s.Recordable

def layout (t : Transcript) : Layout :=
  [("description", some (.text t.description)), ("setup", t.setup.map Record.toValue),
    ("stories", some (.array (t.stories.map StoryRecord.toValue)))]

theorem toValue_eq (t : Transcript) : t.toValue = .object t.layout.present := by
  obtain ⟨description, setup, stories⟩ := t
  cases setup <;> rfl

variable {t : Transcript}

theorem reads (h : t.Recordable) : Reads decode t.toValue t := by
  have hsetup : ∀ r ∈ t.setup, Reads Record.decode r.toValue r ∧ r.toValue.raw ≠ .null :=
    fun r hr => ⟨Record.reads (h.setup r hr), nofun⟩
  have hstories := required_given (Reads.list fun s hs => StoryRecord.reads (h.stories s hs))
  rw [toValue_eq]
  refine Reads.record t.layout (by rfl) (by decide) fun depth => ?_
  simp [layout, required_given (Reads.string _), defaulted_given hsetup, hstories]

theorem floatFree (h : t.Recordable) : t.toValue.floatFree := by
  have hsetup : ∀ r ∈ t.setup, r.toValue.floatFree := fun r hr => Record.floatFree (h.setup r hr)
  have hstories := Value.floatFree_array_map fun s hs => StoryRecord.floatFree (h.stories s hs)
  rw [toValue_eq, Layout.floatFree_present]
  simp only [layout, List.forall_mem_cons]
  exact ⟨Layout.floatFree_some rfl, Layout.floatFree_map hsetup, Layout.floatFree_some hstories, nofun⟩

/-- The document of a transcript is read as the transcript, unless it nests too deep. -/
theorem document_reads (h : t.Recordable) :
    Json.document decode t.toValue.pretty = if t.toValue.height ≤ maxDepth then some t else none := by
  rw [document_pretty decode (floatFree h)]
  exact reads h maxDepth

end Transcript

/-! How deep a transcript nests, by what is deepest in it. -/

section Heights

variable {m : Nat}

/-- No request and no body in it nests more than `m` containers deep. -/
def Action.Shallow (m : Nat) (a : Action) : Prop :=
  (∀ v ∈ a.request, v.height ≤ m) ∧ ∀ r ∈ a.response, r.body.height ≤ m

def Transcript.actions (t : Transcript) : List Action :=
  (t.setup.toList ++ t.stories.flatMap fun s => s.steps.map (·.record)).flatMap (·.actions)

theorem Response.height_eq (r : Response) : r.toValue.height = r.body.height + 1 := by
  have hstatus : (Value.ofOption (fun n : Nat => .int n) r.status).height = 0 := by
    cases r.status <;> rfl
  rw [toValue_eq, Value.height]
  simp [layout, hstatus]

theorem Action.height_le {a : Action} (h : a.Shallow m) : a.toValue.height ≤ m + 2 := by
  have hactor : Layout.height (a.actor.map Value.text) ≤ 0 := Layout.height_map_le fun _ _ => Nat.le_refl 0
  have hrequest : Layout.height a.request ≤ m := by
    have hmap := Layout.height_map_le (f := fun v => v) h.1
    simpa using hmap
  have hresponse : Layout.height (a.response.map Response.toValue) ≤ m + 1 :=
    Layout.height_map_le fun r hr => (Response.height_eq r).trans_le (Nat.succ_le_succ (h.2 r hr))
  rw [toValue_eq, Value.height]
  simp only [layout, Layout.fieldsHeight_present_cons, Layout.fieldsHeight_present_nil]
  omega

theorem Notes.height_le (notes : Notes) : notes.toValue.height ≤ 2 := by
  refine Nat.succ_le_succ ?_
  induction notes with
  | nil => exact Nat.zero_le 1
  | cons note notes ih =>
    have htexts : (Value.array (note.2.map Value.text)).height ≤ 1 :=
      Value.height_array_map_le fun _ _ => Nat.le_refl 0
    exact Nat.max_le.2 ⟨htexts, ih⟩

theorem Record.height_layout_le {r : Record} (h : ∀ a ∈ r.actions, a.Shallow m) :
    Value.fieldsHeight r.layout.present ≤ m + 3 := by
  have hactions : (Value.array (r.actions.map Action.toValue)).height ≤ m + 3 :=
    Value.height_array_map_le fun a ha => Action.height_le (h a ha)
  have hnotes := Notes.height_le r.notes
  simp only [layout, Layout.fieldsHeight_present_cons, Layout.fieldsHeight_present_nil, Layout.height_some]
  omega

theorem StepRecord.height_le {s : StepRecord} (h : ∀ a ∈ s.record.actions, a.Shallow m) :
    s.toValue.height ≤ m + 4 := by
  have hrecord := Record.height_layout_le h
  have hlayout : Value.fieldsHeight s.layout.present ≤ Value.fieldsHeight s.record.layout.present := by
    simp [layout, Value.height]
  rw [toValue_eq, Value.height]
  omega

theorem StoryRecord.height_le {s : StoryRecord} (h : ∀ step ∈ s.steps, ∀ a ∈ step.record.actions, a.Shallow m) :
    s.toValue.height ≤ m + 6 := by
  have hsteps : (Value.array (s.steps.map StepRecord.toValue)).height ≤ m + 5 :=
    Value.height_array_map_le fun step hstep => StepRecord.height_le (h step hstep)
  rw [toValue_eq, Value.height]
  simp only [layout, Layout.fieldsHeight_present_cons, Layout.fieldsHeight_present_nil, Layout.height_some,
    Value.height_text]
  omega

theorem Transcript.height_le {t : Transcript} (h : ∀ a ∈ t.actions, a.Shallow m) : t.toValue.height ≤ m + 8 := by
  have hsetup : Layout.height (t.setup.map Record.toValue) ≤ m + 4 := by
    refine Layout.height_map_le fun r hr => Nat.succ_le_succ (Record.height_layout_le fun a ha => h a ?_)
    exact List.mem_flatMap.2 ⟨r, List.mem_append_left _ (Option.mem_toList.2 hr), ha⟩
  have hstories : (Value.array (t.stories.map StoryRecord.toValue)).height ≤ m + 7 := by
    refine Value.height_array_map_le fun s hs => StoryRecord.height_le fun step hstep a ha => h a ?_
    have hrecord : step.record ∈ t.stories.flatMap fun s => s.steps.map (·.record) :=
      List.mem_flatMap.2 ⟨s, hs, List.mem_map_of_mem hstep⟩
    exact List.mem_flatMap.2 ⟨step.record, List.mem_append_right _ hrecord, ha⟩
  rw [toValue_eq, Value.height]
  simp only [layout, Layout.fieldsHeight_present_cons, Layout.fieldsHeight_present_nil, Layout.height_some,
    Value.height_text]
  omega

end Heights

end Storyline
