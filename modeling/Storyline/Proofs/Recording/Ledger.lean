import Storyline.Transcript.Recorder
import Mathlib.Data.List.Induction

/-! What a recorder has on record. Messages wait in the channel until the next change of scope, so the
records themselves lag behind; the ledger is what a transcript taken now would be made of. It changes
only where a message arrives in an open scope and where a setup, a story or a step is put on record, and
never by a change of scope. -/

namespace Storyline

variable {β : Type}

@[simp] theorem modifyLast_id (xs : List β) : modifyLast (fun x => x) xs = xs := by
  induction xs using modifyLast.induct <;> simp_all [modifyLast]

@[simp] theorem modifyLast_concat (f : β → β) (xs : List β) (x : β) :
    modifyLast f (xs ++ [x]) = xs ++ [f x] := by
  induction xs with
  | nil => rfl
  | cons y xs ih =>
    rw [List.cons_append, modifyLast, ih, List.cons_append]
    simp

theorem modifyLast_modifyLast (f g : β → β) (xs : List β) :
    modifyLast g (modifyLast f xs) = modifyLast (fun x => g (f x)) xs := by
  induction xs using List.reverseRecOn <;> simp [modifyLast]

namespace Draft

theorem absorb_append (d : Draft) (ms ns : List Message) :
    d.absorb (ms ++ ns) = (d.absorb ms).absorb ns := List.foldl_append

@[simp] theorem absorb_nil (d : Draft) : d.absorb [] = d := rfl

end Draft

namespace StoryDraft

@[simp] theorem inLastStep_id : inLastStep (fun d => d) = fun s => s := by
  funext s
  simp [inLastStep]

theorem inLastStep_inLastStep (f g : Draft → Draft) (s : StoryDraft) :
    (s.inLastStep f).inLastStep g = s.inLastStep fun d => g (f d) := by
  simp [inLastStep, modifyLast_modifyLast]

def add (s : StoryDraft) (steps : List StepDraft) : StoryDraft := { s with steps := s.steps ++ steps }

@[simp] theorem add_nil (s : StoryDraft) : s.add [] = s := by simp [add]

theorem add_add (s : StoryDraft) (xs ys : List StepDraft) : (s.add xs).add ys = s.add (xs ++ ys) := by
  simp [add]

theorem inLastStep_add (f : Draft → Draft) (s : StoryDraft) (step : StepDraft) :
    (s.add [step]).inLastStep f = s.add [{ step with draft := f step.draft }] := by
  simp [add, inLastStep]

end StoryDraft

structure Ledger where
  setup : Option Draft
  stories : List StoryDraft

namespace Ledger

def inScope (l : Ledger) (scope : Scope) (f : Draft → Draft) : Ledger :=
  match scope with
  | .scratch => l
  | .setup => { l with setup := l.setup.map f }
  | .step => { l with stories := modifyLast (StoryDraft.inLastStep f) l.stories }

@[simp] theorem inScope_id (l : Ledger) (scope : Scope) : l.inScope scope (fun d => d) = l := by
  cases scope <;> simp [inScope]

theorem inScope_inScope (l : Ledger) (scope : Scope) (f g : Draft → Draft) :
    (l.inScope scope f).inScope scope g = l.inScope scope fun d => g (f d) := by
  cases scope <;> simp [inScope, modifyLast_modifyLast, StoryDraft.inLastStep_inLastStep, Function.comp_def]

def add (l : Ledger) (steps : List StepDraft) : Ledger :=
  { l with stories := modifyLast (·.add steps) l.stories }

@[simp] theorem add_nil (l : Ledger) : l.add [] = l := by simp [add]

theorem add_add (l : Ledger) (xs ys : List StepDraft) : (l.add xs).add ys = l.add (xs ++ ys) := by
  simp [add, modifyLast_modifyLast, StoryDraft.add_add]

theorem inScope_add (l : Ledger) (f : Draft → Draft) (step : StepDraft) :
    (l.add [step]).inScope .step f = l.add [{ step with draft := f step.draft }] := by
  simp [add, inScope, modifyLast_modifyLast, StoryDraft.inLastStep_add]

end Ledger

namespace Recorder

section Fields

variable (r : Recorder) (scope : Scope) (ms : List Message)

@[simp] theorem switch_scope : (r.switch scope).scope = scope := rfl

@[simp] theorem switch_description : (r.switch scope).description = r.description := by
  cases h : r.scope <;> simp [switch, inScope, h]

@[simp] theorem switch_isOpen : (r.switch scope).channel.isOpen = r.channel.isOpen := rfl

@[simp] theorem switch_inStory : (r.switch scope).inStory = r.inStory := by
  cases h : r.scope <;> simp [switch, inScope, h]

@[simp] theorem switch_pastChains : (r.switch scope).pastChains = r.pastChains := by
  cases h : r.scope <;> simp [switch, inScope, h]

@[simp] theorem switch_chain : (r.switch scope).chain = r.chain := by
  cases h : r.scope <;> simp [switch, inScope, h]

@[simp] theorem switch_depth : (r.switch scope).depth = r.depth := by
  cases h : r.scope <;> simp [switch, inScope, h]

end Fields

/-- What a transcript taken now would be made of. -/
def ledger (r : Recorder) : Ledger := ⟨(r.switch .scratch).setup, (r.switch .scratch).stories⟩

theorem ledger_eq (r : Recorder) :
    r.ledger = (⟨r.setup, r.stories⟩ : Ledger).inScope r.scope (·.absorb r.channel.queue) := by
  cases h : r.scope <;> simp [ledger, switch, inScope, Ledger.inScope, Channel.drain, h]

theorem finish_eq (r : Recorder) (slots : Slots) :
    r.finish slots = ⟨r.description, r.ledger.setup.map (·.resolve slots),
      r.ledger.stories.map (StoryDraft.resolve slots)⟩ := by
  simp [finish, ledger]

def hear (r : Recorder) (ms : List Message) : Recorder := ms.foldl send r

theorem hear_hear (r : Recorder) (ms ns : List Message) : (r.hear ms).hear ns = r.hear (ms ++ ns) :=
  List.foldl_append.symm

theorem hear_eq (r : Recorder) (ms : List Message) (h : r.channel.isOpen) :
    r.hear ms = { r with channel := { r.channel with queue := r.channel.queue ++ ms } } := by
  induction ms generalizing r with
  | nil => simp [hear]
  | cons m ms ih =>
    have hm : (r.send m).channel.isOpen := by simp [send, Channel.send, h]
    change (r.send m).hear ms = _
    rw [ih _ hm]
    simp [send, Channel.send, h]

theorem ledger_hear (r : Recorder) (ms : List Message) (h : r.channel.isOpen) :
    (r.hear ms).ledger = r.ledger.inScope r.scope (·.absorb ms) := by
  simp [hear_eq r ms h, ledger_eq, Ledger.inScope_inScope, Draft.absorb_append]

@[simp] theorem ledger_switch (r : Recorder) (scope : Scope) : (r.switch scope).ledger = r.ledger := by
  have hqueue : (r.switch scope).channel.queue = [] := rfl
  rw [ledger_eq]
  simp only [hqueue, Draft.absorb_nil, Ledger.inScope_id]
  rfl

theorem ledger_beginStory (r : Recorder) (description : String) :
    (r.beginStory description).ledger =
      { r.ledger with stories := r.ledger.stories ++ [{ description }] } := rfl

theorem setup_eq_none_iff (r : Recorder) : r.ledger.setup = none ↔ r.setup = none := by
  cases h : r.scope <;> simp [ledger_eq, Ledger.inScope, h]

/-- The first setup is put on record, with what arrives while it is open. The later ones change nothing. -/
theorem ledger_setup (r : Recorder) (ms : List Message) (h : r.channel.isOpen) :
    (r.beginSetup.hear ms).ledger =
      { r.ledger with setup := r.ledger.setup.or (some (({} : Draft).absorb ms)) } := by
  cases hr : r.setup with
  | none =>
    have hl := (setup_eq_none_iff r).2 hr
    have hbegin : r.beginSetup = { r.switch .setup with setup := some {} } := by simp [beginSetup, hr]
    rw [hbegin, ledger_hear _ _ (by simpa using h), hl]
    rfl
  | some d =>
    obtain ⟨d', hl⟩ := Option.ne_none_iff_exists'.1 (mt (setup_eq_none_iff r).1 (by simp [hr]))
    have hbegin : r.beginSetup = r.beginScratch := by simp [beginSetup, hr]
    rw [hbegin, ledger_hear _ _ (by simpa [beginScratch] using h), hl, Option.some_or, ← hl]
    rfl

/-- Whether a step with this description would be put on record now. -/
def lists (r : Recorder) (description : String) : Bool :=
  r.inStory && !r.pastChains.contains (r.chain ++ ">" ++ description)

/-- The number of the step record that stands for the chain of steps just begun. -/
def recordNumber (r : Recorder) : Nat := r.pastChains.reverse.idxOf r.chain

theorem beginStep_eq (r : Recorder) (description : String) (isFork : Bool) :
    r.beginStep description isFork =
      if r.lists description then
        { (r.switch .step).list description r.depth isFork with
          chain := r.chain ++ ">" ++ description
          depth := r.depth + 1
          pastChains := (r.chain ++ ">" ++ description) :: r.pastChains }
      else
        { r.beginScratch with chain := r.chain ++ ">" ++ description, depth := r.depth + 1 } := by
  have hlists : r.lists description =
      !(!r.inStory || r.pastChains.contains (r.chain ++ ">" ++ description)) := by
    simp [lists]
  simp only [beginStep]
  rw [hlists]
  cases !r.inStory || r.pastChains.contains (r.chain ++ ">" ++ description) <;>
    cases hs : r.scope <;> simp [switch, inScope, list, beginScratch, hs]

section Fields

variable (r : Recorder) (description : String) (isFork : Bool)

@[simp] theorem beginStep_description : (r.beginStep description isFork).description = r.description := by
  rw [beginStep_eq]
  split <;> simp [list, beginScratch]

@[simp] theorem beginStep_isOpen :
    (r.beginStep description isFork).channel.isOpen = r.channel.isOpen := by
  rw [beginStep_eq]
  split <;> rfl

@[simp] theorem beginStep_inStory : (r.beginStep description isFork).inStory = r.inStory := by
  rw [beginStep_eq]
  split <;> simp [list, beginScratch]

@[simp] theorem beginStep_chain :
    (r.beginStep description isFork).chain = r.chain ++ ">" ++ description := by
  rw [beginStep_eq]
  split <;> rfl

@[simp] theorem beginStep_depth : (r.beginStep description isFork).depth = r.depth + 1 := by
  rw [beginStep_eq]
  split <;> rfl

theorem beginStep_scope :
    (r.beginStep description isFork).scope = if r.lists description then .step else .scratch := by
  rw [beginStep_eq]
  split <;> rfl

theorem beginStep_pastChains (h : r.inStory) :
    (r.beginStep description isFork).pastChains = r.pastChains.insert (r.chain ++ ">" ++ description) := by
  rw [beginStep_eq]
  split
  · have : r.chain ++ ">" ++ description ∉ r.pastChains := by simp_all [lists]
    rw [List.insert_of_not_mem this]
  · have : r.chain ++ ">" ++ description ∈ r.pastChains := by simp_all [lists]
    rw [List.insert_of_mem this]
    simp [beginScratch]

theorem ledger_beginStep :
    (r.beginStep description isFork).ledger =
      if r.lists description then r.ledger.add [{ description, depth := r.depth, isFork }] else r.ledger := by
  have hqueue : (r.beginStep description isFork).channel.queue = [] := by
    rw [beginStep_eq]
    split <;> rfl
  rw [ledger_eq, hqueue]
  simp only [Draft.absorb_nil, Ledger.inScope_id]
  rw [beginStep_eq]
  split <;> rfl

@[simp] theorem beginSetup_description : r.beginSetup.description = r.description := by
  unfold beginSetup
  split <;> simp [beginScratch]

@[simp] theorem beginSetup_isOpen : r.beginSetup.channel.isOpen = r.channel.isOpen := by
  unfold beginSetup
  split <;> rfl

@[simp] theorem beginSetup_inStory : r.beginSetup.inStory = r.inStory := by
  unfold beginSetup
  split <;> simp [beginScratch]

@[simp] theorem beginSetup_pastChains : r.beginSetup.pastChains = r.pastChains := by
  unfold beginSetup
  split <;> simp [beginScratch]

end Fields

/-- A step that is listed is put on record with what arrives while it is open. The others change nothing. -/
theorem ledger_step (r : Recorder) (description : String) (isFork : Bool) (ms : List Message)
    (h : r.channel.isOpen) :
    ((r.beginStep description isFork).hear ms).ledger =
      if r.lists description then
        r.ledger.add [⟨description, r.depth, isFork, ({} : Draft).absorb ms⟩]
      else r.ledger := by
  rw [ledger_hear _ _ (by simpa using h), ledger_beginStep, beginStep_scope]
  split
  · rw [Ledger.inScope_add]
  · rfl

end Recorder

end Storyline
