import Storyline.Proofs.Recording.Ledger
import Mathlib.Data.List.Basic

/-! Where messages go. At any time one record is open, and it has a site: the scratch record, the setup, or a step
of a story, each under its number. Whatever a recorder is told, and in whatever order, the record at the open site
exists, and telling it to open or close a scope takes nothing away from the records that a transcript is made of. -/

namespace Storyline

variable {β : Type}

/-- What a recorder can be told about scopes. -/
inductive Direction where
  | beginScratch
  | beginSetup
  | beginStory (description : String)
  | endStory
  | beginPath
  | beginStep (description : String) (isFork : Bool)
  | endScope
  | endPath

def Direction.apply (r : Recorder) : Direction → Recorder
  | .beginScratch => r.beginScratch
  | .beginSetup => r.beginSetup
  | .beginStory description => r.beginStory description
  | .endStory => r.endStory
  | .beginPath => r.beginPath
  | .beginStep description isFork => r.beginStep description isFork
  | .endScope => r.endScope
  | .endPath => r.endPath

/-- What reaches a recorder: directions, and messages from any handle of its scribe. -/
inductive Signal where
  | direction (d : Direction)
  | message (m : Message)

inductive Site where
  | scratch
  | setup
  | step (story step : Nat)
deriving DecidableEq

/-- The record at a site; the scratch record is no part of a transcript. -/
def Ledger.record? (l : Ledger) : Site → Option Draft
  | .scratch => none
  | .setup => l.setup
  | .step i j => (l.stories[i]?).bind fun story => (story.steps[j]?).map (·.draft)

def Transcript.record? (t : Transcript) : Site → Option Record
  | .scratch => none
  | .setup => t.setup
  | .step i j => (t.stories[i]?).bind fun story => (story.steps[j]?).map (·.record)

def StoryDraft.inStep (j : Nat) (f : Draft → Draft) (story : StoryDraft) : StoryDraft :=
  { story with steps := story.steps.modify j fun step => { step with draft := f step.draft } }

namespace Recorder

def site (r : Recorder) : Site :=
  match r.scope with
  | .scratch => .scratch
  | .setup => .setup
  | .step => .step (r.stories.length - 1) ((r.stories.getLast?.map (·.steps.length)).getD 0 - 1)

def record? (r : Recorder) : Site → Option Draft
  | .scratch => some r.scratch
  | p => (⟨r.setup, r.stories⟩ : Ledger).record? p

def modifyAt (r : Recorder) (f : Draft → Draft) : Site → Recorder
  | .scratch => { r with scratch := f r.scratch }
  | .setup => { r with setup := r.setup.map f }
  | .step i j => { r with stories := r.stories.modify i (·.inStep j f) }

def take (r : Recorder) : Signal → Recorder
  | .direction d => d.apply r
  | .message m => r.send m

def after (r : Recorder) (signals : List Signal) : Recorder := signals.foldl take r

/-- The messages that are sent while the record at a site is open. -/
def sentTo (p : Site) (r : Recorder) : List Signal → List Message
  | [] => []
  | .direction d :: rest => sentTo p (d.apply r) rest
  | .message m :: rest => (if r.site = p then [m] else []) ++ sentTo p (r.send m) rest

/-- The record at the open site exists, and a story that is being told as well. -/
structure Sound (r : Recorder) : Prop where
  isOpen : r.channel.isOpen
  story : r.inStory → r.stories ≠ []
  site : ∃ draft, r.record? r.site = some draft

end Recorder

theorem modify_last (f : β → β) (xs : List β) : xs.modify (xs.length - 1) f = modifyLast f xs := by
  induction xs using modifyLast.induct with
  | case1 => rfl
  | case2 x => rfl
  | case3 x rest hrest ih =>
    have hlength : (x :: rest).length - 1 = rest.length - 1 + 1 := by
      have := List.length_pos_iff.2 hrest
      simp only [List.length_cons]
      omega
    rw [hlength, List.modify_succ_cons, ih, modifyLast]
    exact hrest

theorem modify_append {xs : List β} {i : Nat} (f : β → β) (h : i < xs.length) (ys : List β) :
    (xs ++ ys).modify i f = xs.modify i f ++ ys := by
  induction xs generalizing i with
  | nil => cases h
  | cons x xs ih =>
    cases i with
    | zero => rfl
    | succ i => simpa using ih (by simpa using h)

theorem modify_concat (f : β → β) (xs : List β) (x : β) : (xs ++ [x]).modify xs.length f = xs ++ [f x] := by
  have hlast := modify_last f (xs ++ [x])
  rwa [List.length_append, List.length_singleton, Nat.add_sub_cancel, modifyLast_concat] at hlast

theorem StoryDraft.length_inLastStep (story : StoryDraft) (f : Draft → Draft) :
    (story.inLastStep f).steps.length = story.steps.length := by
  rw [inLastStep, ← modify_last, List.length_modify]

theorem StoryDraft.inStep_draft (story : StoryDraft) (j j' : Nat) (f : Draft → Draft) :
    ((story.inStep j f).steps[j']?).map (·.draft) =
      if j' = j then ((story.steps[j']?).map (·.draft)).map f else (story.steps[j']?).map (·.draft) := by
  rw [inStep, List.getElem?_modify]
  cases story.steps[j']? with
  | none => simp
  | some step =>
    by_cases hj : j' = j
    · simp [hj]
    · simp [hj, Ne.symm hj]

namespace Ledger

variable (l : Ledger) {story : StoryDraft}

theorem record?_story (h : story.steps = []) (p : Site) :
    ({ l with stories := l.stories ++ [story] } : Ledger).record? p = l.record? p := by
  cases p with
  | step i j =>
    simp only [record?]
    rcases Nat.lt_trichotomy i l.stories.length with hi | rfl | hi
    · rw [List.getElem?_append_left hi]
    · simp [h]
    · rw [List.getElem?_eq_none (by simp; omega), List.getElem?_eq_none (by omega)]
  | _ => rfl

/-- A step that is put on record takes no other record's site. -/
theorem record?_add (step : StepDraft) (p : Site) :
    (l.add [step]).record? p = l.record? p ∨
      l.record? p = none ∧ (l.add [step]).record? p = some step.draft := by
  cases p with
  | step i j =>
    simp only [record?, add]
    rcases List.eq_nil_or_concat l.stories with hnone | ⟨front, story, hstories⟩
    · rw [hnone]
      exact .inl rfl
    rw [hstories, List.concat_eq_append, modifyLast_concat]
    rcases Nat.lt_trichotomy i front.length with hi | rfl | hi
    · rw [List.getElem?_append_left hi, List.getElem?_append_left hi]
      exact .inl rfl
    · simp only [List.getElem?_concat_length, Option.bind_some, StoryDraft.add]
      rcases Nat.lt_trichotomy j story.steps.length with hj | rfl | hj
      · rw [List.getElem?_append_left hj]
        exact .inl rfl
      · simp
      · rw [List.getElem?_eq_none (by simp; omega), List.getElem?_eq_none (by omega)]
        exact .inl rfl
    · rw [List.getElem?_eq_none (by simp; omega), List.getElem?_eq_none (by simp; omega)]
      exact .inl rfl
  | _ => exact .inl rfl

/-- A transcript has the records of a ledger at their sites, with what their slots hold. -/
theorem record?_resolve (description : String) (slots : Slots) (p : Site) :
    Transcript.record? ⟨description, l.setup.map (·.resolve slots), l.stories.map (StoryDraft.resolve slots)⟩ p =
      (l.record? p).map (·.resolve slots) := by
  cases p with
  | scratch => rfl
  | setup => rfl
  | step i j =>
    simp only [Transcript.record?, record?, List.getElem?_map]
    cases l.stories[i]? with
    | none => rfl
    | some story =>
      simp only [Option.map_some, Option.bind_some, StoryDraft.resolve, List.getElem?_map]
      cases story.steps[j]? <;> rfl

end Ledger

namespace Recorder

variable (r : Recorder)

theorem inScope_eq (f : Draft → Draft) : r.inScope f = r.modifyAt f r.site := by
  cases hscope : r.scope with
  | scratch => simp [inScope, site, modifyAt, hscope]
  | setup => simp [inScope, site, modifyAt, hscope]
  | step =>
    simp only [inScope, site, modifyAt, hscope, modify_last]
    rcases List.eq_nil_or_concat r.stories with hnone | ⟨front, story, hstories⟩
    · rw [hnone]
      rfl
    · rw [hstories, List.concat_eq_append, modifyLast_concat, modifyLast_concat, List.getLast?_concat]
      simp only [Option.map_some, Option.getD_some, StoryDraft.inStep, modify_last]
      rfl

theorem record?_modifyAt (f : Draft → Draft) (p q : Site) :
    (r.modifyAt f p).record? q = if q = p then (r.record? q).map f else r.record? q := by
  cases p with
  | scratch => cases q <;> simp [modifyAt, record?, Ledger.record?]
  | setup => cases q <;> simp [modifyAt, record?, Ledger.record?]
  | step i j =>
    cases q with
    | scratch => simp [modifyAt, record?]
    | setup => simp [modifyAt, record?, Ledger.record?]
    | step i' j' =>
      simp only [modifyAt, record?, Ledger.record?, List.getElem?_modify, Site.step.injEq]
      cases r.stories[i']? with
      | none => simp
      | some story =>
        by_cases hi : i' = i
        · simp [hi, StoryDraft.inStep_draft]
        · simp [hi, Ne.symm hi]

/-- The recorder with nothing waiting any more. -/
def flushed : Recorder := r.switch r.scope

theorem switch_of_queue (h : r.channel.queue = []) (scope : Scope) : r.switch scope = { r with scope } := by
  obtain ⟨_, ⟨queue, _⟩, open', _, _, _, _, _, _, _⟩ := r
  obtain rfl : queue = [] := h
  cases open' <;> simp [switch, inScope, Channel.drain]

theorem flushed_of_queue (h : r.channel.queue = []) : r.flushed = r := r.switch_of_queue h r.scope

@[simp] theorem flushed_switch (scope : Scope) : r.flushed.switch scope = r.switch scope :=
  r.flushed.switch_of_queue rfl scope

theorem flushed_setup_isNone : r.flushed.setup.isNone = r.setup.isNone := by
  cases hscope : r.scope <;> simp [flushed, switch, inScope, hscope]

theorem apply_flushed (d : Direction) : d.apply r.flushed = d.apply r := by
  cases d with
  | beginSetup =>
    simp only [Direction.apply, beginSetup, flushed_setup_isNone, beginScratch, flushed_switch]
  | beginStep description isFork =>
    simp only [Direction.apply, beginStep_eq, lists, beginScratch, flushed_switch]
    simp [flushed]
  | _ => simp only [Direction.apply, beginScratch, beginStory, endStory, beginPath, endScope, endPath, flushed_switch]

theorem flushed_apply (d : Direction) : (d.apply r).flushed = d.apply r := by
  refine flushed_of_queue _ ?_
  cases d with
  | beginSetup =>
    simp only [Direction.apply, beginSetup]
    split <;> rfl
  | beginStep description isFork =>
    simp only [Direction.apply, beginStep_eq]
    split <;> rfl
  | _ => rfl

theorem site_flushed : r.flushed.site = r.site := by
  cases hscope : r.scope with
  | scratch => simp [flushed, site, hscope]
  | setup => simp [flushed, site, hscope]
  | step =>
    simp only [flushed, switch, Channel.drain, inScope, site, hscope]
    rcases List.eq_nil_or_concat r.stories with hnone | ⟨front, story, hstories⟩
    · rw [hnone]
      rfl
    · simp only [hstories, List.concat_eq_append, modifyLast_concat, List.getLast?_concat, List.length_append,
        List.length_singleton, Option.map_some, Option.getD_some, StoryDraft.length_inLastStep]

/-- A message that is sent will be written where it would be written at once. -/
theorem flushed_send (m : Message) (h : r.channel.isOpen) :
    (r.send m).flushed = r.flushed.modifyAt (·.take m) r.site := by
  rw [← site_flushed, ← inScope_eq]
  have habsorb (d : Draft) : d.absorb (r.channel.queue ++ [m]) = (d.absorb r.channel.queue).take m :=
    d.absorb_append _ _
  cases hscope : r.scope <;>
    simp [flushed, switch, send, Channel.send, Channel.drain, inScope, h, hscope, habsorb, modifyLast_modifyLast,
      StoryDraft.inLastStep_inLastStep, Function.comp_def]

/-- What a direction does to the records that a transcript is made of: nothing, or it opens one more. -/
theorem ledger_apply (d : Direction) (h : r.channel.isOpen) :
    (d.apply r).ledger = r.ledger ∨
    (r.ledger.setup = none ∧ (d.apply r).ledger = { r.ledger with setup := some {} }) ∨
    (∃ story : StoryDraft, story.steps = [] ∧
      (d.apply r).ledger = { r.ledger with stories := r.ledger.stories ++ [story] }) ∨
    ∃ step : StepDraft, step.draft = {} ∧ (d.apply r).ledger = r.ledger.add [step] := by
  cases d with
  | beginSetup =>
    have hledger : r.beginSetup.ledger = _ := r.ledger_setup [] h
    cases hsetup : r.ledger.setup with
    | none => exact .inr (.inl ⟨rfl, by rw [Direction.apply, hledger, hsetup]; rfl⟩)
    | some draft => exact .inl (by rw [Direction.apply, hledger, hsetup, Option.some_or, ← hsetup])
  | beginStory description => exact .inr (.inr (.inl ⟨_, rfl, r.ledger_beginStory description⟩))
  | beginStep description isFork =>
    simp only [Direction.apply, ledger_beginStep]
    split
    · exact .inr (.inr (.inr ⟨_, rfl, rfl⟩))
    · exact .inl rfl
  | _ => exact .inl (r.ledger_switch .scratch)

/-- Beside the scratch record, a direction changes no record and opens only empty ones. -/
theorem record?_apply (d : Direction) (h : r.channel.isOpen) {p : Site} (hp : p ≠ .scratch) :
    ((d.apply r).ledger.record? p).getD {} = (r.ledger.record? p).getD {} := by
  obtain heq | ⟨hsetup, heq⟩ | ⟨story, hsteps, heq⟩ | ⟨step, hdraft, heq⟩ := r.ledger_apply d h <;> rw [heq]
  · cases p with
    | scratch => exact absurd rfl hp
    | setup => simp [Ledger.record?, hsetup]
    | step i j => rfl
  · rw [Ledger.record?_story _ hsteps]
  · obtain hsame | ⟨hnone, hadded⟩ := r.ledger.record?_add step p
    · rw [hsame]
    · rw [hnone, hadded, hdraft]
      rfl

section Sound

variable {r}

theorem sound_new (topic : String) : (new topic).Sound := ⟨rfl, nofun, {}, rfl⟩

theorem Sound.send (h : r.Sound) (m : Message) : (r.send m).Sound where
  isOpen := by simp [Recorder.send, Channel.send, h.isOpen]
  story := h.story
  site := h.site

theorem switch_stories (scope : Scope) : (r.switch scope).stories = [] ↔ r.stories = [] := by
  cases hscope : r.scope <;> simp [switch, inScope, hscope, ← modify_last, ← List.length_eq_zero_iff]

theorem Sound.apply (h : r.Sound) (d : Direction) : (d.apply r).Sound := by
  have hstory (scope : Scope) : (r.switch scope).inStory → (r.switch scope).stories ≠ [] := by
    rw [switch_inStory, Ne, switch_stories]
    exact h.story
  cases d with
  | beginSetup =>
    simp only [Direction.apply, beginSetup]
    split
    · exact ⟨h.isOpen, hstory .setup, {}, rfl⟩
    · exact ⟨h.isOpen, hstory .scratch, {}, rfl⟩
  | beginStory description => exact ⟨h.isOpen, fun _ => by simp [Direction.apply, beginStory], _, rfl⟩
  | endStory => exact ⟨h.isOpen, fun hinStory => (Bool.false_ne_true hinStory).elim, _, rfl⟩
  | beginStep description isFork =>
    simp only [Direction.apply, beginStep_eq]
    split
    · rename_i hlists
      have hinStory : r.inStory := by
        rw [lists, Bool.and_eq_true] at hlists
        exact hlists.1
      obtain ⟨front, story, hstories⟩ := (List.eq_nil_or_concat (r.switch .step).stories).resolve_left
        (hstory .step (by simpa using hinStory))
      refine ⟨h.isOpen, fun _ => by simp [list, hstories], {}, ?_⟩
      simp [Recorder.site, record?, Ledger.record?, list, hstories]
    · exact ⟨h.isOpen, hstory .scratch, {}, rfl⟩
  | _ => exact ⟨h.isOpen, hstory .scratch, _, rfl⟩

end Sound

theorem record?_flushed (p : Site) :
    r.flushed.record? p =
      if p = r.site then (r.record? p).map (·.absorb r.channel.queue) else r.record? p := by
  have hinScope : r.flushed.record? p = (r.inScope (·.absorb r.channel.queue)).record? p := by
    cases p <;> rfl
  rw [hinScope, inScope_eq, record?_modifyAt]

theorem record?_ledger {p : Site} (hp : p ≠ .scratch) : r.ledger.record? p = r.flushed.record? p := by
  cases p with
  | scratch => exact absurd rfl hp
  | _ => rfl

variable {r}

/-- A message goes to the open site and to no other. -/
theorem Sound.record?_send (h : r.Sound) (m : Message) (p : Site) :
    ((r.send m).flushed.record? p).getD {} =
      ((r.flushed.record? p).getD {}).absorb (if r.site = p then [m] else []) := by
  rw [flushed_send r m h.isOpen, record?_modifyAt]
  by_cases hp : r.site = p
  · obtain ⟨draft, hdraft⟩ := h.site
    rw [if_pos hp.symm, if_pos hp, record?_flushed, if_pos hp.symm, ← hp, hdraft]
    rfl
  · rw [if_neg (Ne.symm hp), if_neg hp]
    rfl

theorem Sound.after (h : r.Sound) (signals : List Signal) : (r.after signals).Sound := by
  induction signals generalizing r with
  | nil => exact h
  | cons signal rest ih =>
    cases signal with
    | direction d => exact ih (h.apply d)
    | message m => exact ih (h.send m)

/-- A record of the transcript takes what is sent while its site is open, in the order it is sent. -/
theorem Sound.record?_after (h : r.Sound) (signals : List Signal) {p : Site} (hp : p ≠ .scratch) :
    ((r.after signals).ledger.record? p).getD {} =
      ((r.ledger.record? p).getD {}).absorb (sentTo p r signals) := by
  induction signals generalizing r with
  | nil => rfl
  | cons signal rest ih =>
    cases signal with
    | direction d =>
      have hrest := ih (h.apply d)
      rw [record?_apply r d h.isOpen hp] at hrest
      exact hrest
    | message m =>
      have hrest := ih (h.send m)
      rw [record?_ledger (r.send m) hp, h.record?_send m p, ← record?_ledger r hp, ← Draft.absorb_append] at hrest
      exact hrest

/-- Where what waits is put away does not depend on whether the next step has been listed by then. -/
theorem Sound.list_modifyAt (h : r.Sound) (f : Draft → Draft) (description : String) (depth : Nat) (isFork : Bool) :
    (r.list description depth isFork).modifyAt f r.site = (r.inScope f).list description depth isFork := by
  obtain ⟨draft, hdraft⟩ := h.site
  rw [inScope_eq]
  cases hscope : r.scope with
  | scratch => simp [Recorder.site, modifyAt, list, hscope]
  | setup => simp [Recorder.site, modifyAt, list, hscope]
  | step =>
    rcases List.eq_nil_or_concat r.stories with hnone | ⟨front, story, hstories⟩
    · simp [Recorder.site, record?, Ledger.record?, hscope, hnone] at hdraft
    rw [List.concat_eq_append] at hstories
    have hsite : r.site = .step front.length (story.steps.length - 1) := by
      simp [Recorder.site, hscope, hstories]
    have hsteps : story.steps.length - 1 < story.steps.length := by
      rcases Nat.eq_zero_or_pos story.steps.length with hzero | hpos
      · simp [hsite, record?, Ledger.record?, hstories, List.length_eq_zero_iff.1 hzero] at hdraft
      · omega
    rw [hsite]
    simp only [modifyAt, list, hstories, modifyLast_concat, modify_concat, StoryDraft.inStep,
      modify_append _ hsteps]

theorem finish_record? (r : Recorder) (slots : Slots) (p : Site) :
    (r.finish slots).record? p = (r.ledger.record? p).map (·.resolve slots) := by
  rw [finish_eq]
  exact r.ledger.record?_resolve r.description slots p

/-- Of a recording that has just begun, the record at a site holds what is sent to it. -/
theorem ledger_after_new (topic : String) (signals : List Signal) {p : Site} (hp : p ≠ .scratch) :
    ((((new topic).after signals).ledger.record? p).getD {}) =
      ({} : Draft).absorb (sentTo p (new topic) signals) := by
  refine ((sound_new topic).record?_after signals hp).trans ?_
  cases p with
  | scratch => exact absurd rfl hp
  | _ => rfl

end Recorder

end Storyline
