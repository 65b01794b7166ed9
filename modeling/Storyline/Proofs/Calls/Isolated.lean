import Storyline.Proofs.Calls.Likeness
import Storyline.Proofs.Recording.Marks

/-! Drivers that keep to themselves. Where hooks and actions touch only the driver they are given, a path is
reported the same wherever it is run: what came before it is in the world, in the recording and in the
numbers of drivers and scribes, and none of that makes a difference to an answer. -/

namespace Storyline

variable {α δ ω ε β : Type}

def Story.acts (story : Story α) : List α := story.steps.filterMap (·.action)

def Topic.acts (topic : Topic α) : List α :=
  topic.before.toList ++ topic.stories.flatMap Story.acts ++ topic.after.toList

def Suite.acts (suite : Suite α) : List α :=
  suite.beforeEach.toList ++ suite.topics.flatMap Topic.acts ++ suite.afterEach.toList

section Acts

variable {suite : Suite α} {topic : Topic α} {story : Story α} {path : Path α}

theorem Path.acts_declared (htopic : topic ∈ suite.topics) (hstory : story ∈ topic.stories)
    (hpath : path ∈ story.paths) : ∀ a ∈ path.acts suite topic, a ∈ suite.acts := by
  intro a ha
  simp only [Path.acts, List.mem_append] at ha
  simp only [Suite.acts, List.mem_append, List.mem_flatMap]
  rcases ha with (((ha | ha) | ha) | ha) | ha
  · exact .inl (.inl ha)
  · exact .inl (.inr ⟨topic, htopic, by simp [Topic.acts, Option.mem_toList.1 ha]⟩)
  · obtain ⟨step, hstep, haction⟩ := List.mem_filterMap.1 ha
    have hdeclared : step ∈ story.steps := ((played_sublist path).trans (path_steps hpath)).subset hstep
    have hacts : a ∈ story.acts := List.mem_filterMap.2 ⟨step, hdeclared, haction⟩
    refine .inl (.inr ⟨topic, htopic, ?_⟩)
    rw [Topic.acts, List.mem_append, List.mem_append]
    exact .inl (.inr (List.mem_flatMap.2 ⟨story, hstory, hacts⟩))
  · exact .inl (.inr ⟨topic, htopic, by simp [Topic.acts, Option.mem_toList.1 ha]⟩)
  · exact .inr ha

end Acts

section Matched

variable (alike : δ → δ → Prop) (usable : ω → Prop)

/-- Drivers that are alike, in any two worlds in which drivers can be made. -/
def Matched (s s' : δ × ω) : Prop := alike s.1 s'.1 ∧ usable s.2 ∧ usable s'.2

/-- Calls that answer the same and leave their drivers alike. -/
def Concur (r r' : Reply (δ × ω) ε β) : Prop :=
  r.result = r'.result ∧ Matched alike usable r.state r'.state

/-- Drivers whose answers depend on nothing but the driver: not on the world, not on the scribe they are
handed, not on what others have reserved. They can always be made, and they do not panic over results. -/
structure Backend.Isolated (b : Backend α δ ω) (acts : List α) : Prop where
  make : ∀ {w w'}, usable w → usable w' → ∀ next next', ∃ d d',
    (b.make w next).result = .ok d ∧ (b.make w' next').result = .ok d' ∧
    Matched alike usable (d, (b.make w next).state) (d', (b.make w' next').state)
  wait : ∀ {s s'}, Matched alike usable s s' → ∀ next next',
    Concur alike usable (b.wait s next) (b.wait s' next')
  scribingOn : ∀ {s s'}, Matched alike usable s s' → ∀ scribe scribe' next next',
    Concur alike usable (b.scribingOn scribe s next) (b.scribingOn scribe' s' next')
  scribingOff : ∀ {s s'}, Matched alike usable s s' → ∀ next next',
    Concur alike usable (b.scribingOff s next) (b.scribingOff s' next')
  perform : ∀ {s s'}, Matched alike usable s s' → ∀ a ∈ acts, ∀ next next',
    Concur alike usable (b.perform a s next) (b.perform a s' next')
  results : ∀ {s s'}, Matched alike usable s s' → ∀ next next',
    Concur alike usable (b.results s next) (b.results s' next') ∧
    ∀ p, (b.results s next).result ≠ .error (.panic p)

end Matched

section Isolated

variable {alike : δ → δ → Prop} {usable : ω → Prop} {b : Backend α δ ω} {acts : List α}

theorem Backend.Isolated.likens (hb : b.Isolated alike usable acts) :
    b.Likens b (fun s s' => Matched alike usable (s.driver, s.world) (s'.driver, s'.world)) (· ∈ acts) where
  record := fun _ _ _ h => h
  wait := fun h => hb.wait h _ _
  scribingOn := fun h => hb.scribingOn h _ _ _ _
  scribingOff := fun h => hb.scribingOff h _ _
  perform := fun ha _ _ h => hb.perform h _ ha _ _
  results := fun h => (hb.results h _ _).1

theorem conclude_ok (b : Backend α δ ω) (path : Path α) (played : Except Interruption Bool × Scene δ ω)
    (h : ∀ p, ((played.2.record (·.endPath)).ask b.results).result ≠ .error (.panic p)) :
    ∃ ended, (Performing.conclude b path played).1 = .ok ended := by
  rcases played with ⟨(e | p) | deferred, s⟩
  · exact ⟨_, rfl⟩
  · exact ⟨_, rfl⟩
  · simp only [Performing.conclude, Performing.call_eq]
    rcases hr : ((s.record (·.endPath)).ask b.results).result with (e | p) | t
    · exact ⟨_, rfl⟩
    · exact absurd hr (h p)
    · exact ⟨_, rfl⟩

/-- A path comes to the same report wherever and whenever it is run. -/
theorem runPath_isolated (hb : b.Isolated alike usable acts) (suite : Suite α) (topic : Topic α)
    (story : Story α) {path : Path α} (hacts : ∀ a ∈ path.acts suite topic, a ∈ acts) {world world' : ω}
    (h : usable world) (h' : usable world') (desk desk' : Desk) :
    let r := runPath b suite topic story path world desk
    (∃ report, r.1 = .ok report) ∧ (runPath b suite topic story path world' desk').1 = r.1 ∧ usable r.2.1 := by
  intro r
  obtain ⟨d, d', hmade, hmade', hmatched⟩ := hb.make h h' desk.slots.next desk'.slots.next
  obtain ⟨hresult, hscene⟩ := Performing.likens_playPath hb.likens suite topic path hacts
    ⟨d, (b.make world desk.slots.next).state, desk.takeAll (b.make world desk.slots.next).sent⟩
    ⟨d', (b.make world' desk'.slots.next).state, desk'.takeAll (b.make world' desk'.slots.next).sent⟩ hmatched
  obtain ⟨hended, hlast⟩ := Performing.likens_conclude hb.likens path hresult hscene
  obtain ⟨ended, hok⟩ := conclude_ok b path _ (hb.results hscene _ 0).2
  simp only [r, runPath_made b suite topic story path hmade, runPath_made b suite topic story path hmade', ending,
    ← hended, hok]
  exact ⟨⟨_, rfl⟩, trivial, hlast.2.1⟩

end Isolated

end Storyline
