import Storyline.Proofs.Keeping
import Storyline.Proofs.Recording.Sites

/-! A writer stays in its directory. Whatever topics are called, their transcripts and the index are files right in
the directory of the writer, under names that are no paths, and nothing else is touched. The name of the index is
never that of a transcript, so neither of them is lost to the other. -/

namespace Storyline

theorem space_not_mem_transcriptFile (description : String) : ' ' ∉ (transcriptFile description).toList := by
  rw [toList_transcriptFile, List.mem_append, not_or]
  refine ⟨fun hmem => ?_, by decide⟩
  obtain ⟨c, -, hspace⟩ := List.mem_map.1 hmem
  split at hspace
  · exact absurd hspace (by decide)
  · rename_i hc
    exact hc (beq_iff_eq.2 hspace)

namespace Recorder

theorem take_description (r : Recorder) (signal : Signal) : (r.take signal).description = r.description := by
  cases signal with
  | message m => rfl
  | direction d =>
    cases d with
    | beginSetup => exact r.beginSetup_description
    | beginStep description isFork => exact r.beginStep_description description isFork
    | _ => exact r.switch_description .scratch

theorem after_description (r : Recorder) (signals : List Signal) :
    (r.after signals).description = r.description := by
  induction signals generalizing r with
  | nil => rfl
  | cons signal rest ih => exact (ih _).trans (r.take_description signal)

end Recorder

/-- What the recorder of some topic may come to. -/
def Transcript.IsRecorded (t : Transcript) : Prop :=
  ∃ (topic : String) (signals : List Signal) (slots : Slots), t = ((Recorder.new topic).after signals).finish slots

theorem Transcript.IsRecorded.file_ne {t : Transcript} (h : t.IsRecorded) : t.file ≠ indexFile := by
  obtain ⟨topic, signals, slots, rfl⟩ := h
  have hdescription : (((Recorder.new topic).after signals).finish slots).description = topic ++ transcriptSuffix :=
    (Recorder.switch_description _ .scratch).trans (Recorder.after_description (.new topic) signals)
  rw [Transcript.file, hdescription]
  exact transcriptFile_ne_indexFile topic

namespace Files

variable {fs fs' fs'' : Files} {dir name text : String} {names names' : List String}

def LeadsTo (fs : Files) (path : String) (place : Place) : Prop := (pathNames path).foldlM fs.enter [] = .ok place

/-- One state comes from another by writing files of these names right in a directory. -/
structure Confined (dir : String) (names : List String) (fs' fs : Files) : Prop where
  directories : SameDirectories fs' fs
  places : ∀ place, fs'.get? place ≠ fs.get? place →
    (∃ text, fs'.get? place = some (.file text)) ∧
      ∃ above name, fs.LeadsTo dir above ∧ name ∈ names ∧ place = above ++ [name]

theorem Confined.refl (dir : String) (names : List String) (fs : Files) : Confined dir names fs fs :=
  ⟨fun _ => rfl, fun _ h => absurd rfl h⟩

theorem Confined.trans (h : Confined dir names' fs'' fs') (h' : Confined dir names fs' fs) :
    Confined dir (names ++ names') fs'' fs where
  directories := fun place => (h.directories place).trans (h'.directories place)
  places := by
    intro place hplace
    by_cases hlater : fs''.get? place = fs'.get? place
    · rw [hlater] at hplace ⊢
      obtain ⟨hfile, above, name, habove, hname, rfl⟩ := h'.places place hplace
      exact ⟨hfile, above, name, habove, List.mem_append_left _ hname, rfl⟩
    · -- the directory is where it was before
      obtain ⟨hfile, above, name, habove, hname, rfl⟩ := h.places place hlater
      have hbefore : SameDirectories fs fs' := fun place => (h'.directories place).symm
      exact ⟨hfile, above, name, hbefore.walk habove, List.mem_append_right _ hname, rfl⟩

theorem confined_write (hname : IsFileName name) (h : fs.write (joinPath dir name) text = .ok fs') :
    Confined dir [name] fs' fs := by
  obtain ⟨place, hlocate, hfile, rfl⟩ := write_ok h
  refine ⟨sameDirectories_put hfile, fun place' hplace => ?_⟩
  obtain ⟨above, habove, hbelow⟩ := locate_joinPath hname hlocate
  obtain rfl : place' = place := by
    by_contra hne
    exact hplace (get?_put_of_ne hne)
  exact ⟨⟨text, get?_put_self (ne_root_of_not_isDirectory hfile)⟩,
    above, name, habove, List.mem_singleton_self name, hbelow⟩

end Files

namespace Writer

/-- What a writer can be asked for. -/
inductive Call where
  | write (t : Transcript)
  | writeIndex

def Call.file : Call → String
  | .write t => t.file
  | .writeIndex => indexFile

def Call.document (w : Writer) : Call → String
  | .write t => t.document
  | .writeIndex => w.index.toValue.pretty

theorem Call.isFileName (call : Call) : IsFileName call.file := by
  cases call with
  | write t => exact isFileName_transcriptFile t.description
  | writeIndex => exact isFileName_indexFile

def perform (w : Writer) (fs : Files) : Call → Except Error String × Writer × Files
  | .write t => w.write t fs
  | .writeIndex =>
      let (r, fs) := w.writeIndex fs
      (r, w, fs)

def performAll (w : Writer) (fs : Files) : List Call → Writer × Files
  | [] => (w, fs)
  | call :: rest =>
      let (_, w, fs) := w.perform fs call
      w.performAll fs rest

variable (w : Writer) (fs : Files)

/-- The document of a call is written to its file, or nothing has changed. -/
theorem perform_cases (call : Call) :
    (∃ path w' fs', fs.write (joinPath w.dir call.file) (call.document w) = .ok fs' ∧
      w.perform fs call = (.ok path, w', fs') ∧ w'.dir = w.dir) ∨
    ∃ e, w.perform fs call = (.error e, w, fs) := by
  cases call with
  | write t =>
    rcases write_cases t w fs with ⟨fs', path, hfile, hwrite⟩ | ⟨e, hwrite⟩
    · exact .inl ⟨path, _, fs', hfile, hwrite, rfl⟩
    · exact .inr ⟨e, hwrite⟩
  | writeIndex =>
    rcases w.store_cases indexFile w.index.toValue.pretty fs with ⟨fs', hfile, hstore⟩ | ⟨e, hstore⟩
    · refine .inl ⟨joinPath w.dir indexFile, w, fs', hfile, ?_, rfl⟩
      simp only [perform, writeIndex, hstore]
    · refine .inr ⟨e, ?_⟩
      simp only [perform, writeIndex, hstore]

theorem performAll_append (earlier later : List Call) :
    w.performAll fs (earlier ++ later) = (w.performAll fs earlier).1.performAll (w.performAll fs earlier).2 later := by
  induction earlier generalizing w fs with
  | nil => rfl
  | cons call earlier ih => exact ih _ _

/-- Nothing is changed but the files of the calls. -/
theorem performAll_confined (calls : List Call) :
    (w.performAll fs calls).1.dir = w.dir ∧
      Files.Confined w.dir (calls.map Call.file) (w.performAll fs calls).2 fs := by
  induction calls generalizing w fs with
  | nil => exact ⟨rfl, .refl _ _ fs⟩
  | cons call rest ih =>
    rcases w.perform_cases fs call with ⟨path, w', fs', hfile, hperform, hdir⟩ | ⟨e, hperform⟩
    · obtain ⟨hdirs, hrest⟩ := ih w' fs'
      rw [hdir] at hdirs hrest
      simp only [performAll, hperform]
      exact ⟨hdirs, hrest.trans (Files.confined_write call.isFileName hfile)⟩
    · obtain ⟨hdirs, hrest⟩ := ih w fs
      simp only [performAll, hperform]
      exact ⟨hdirs, hrest.trans (.refl w.dir [call.file] fs)⟩

variable {w fs}

theorem read_performAll {name text : String} (hname : IsFileName name)
    (hread : fs.read (joinPath w.dir name) = .ok text) {calls : List Call}
    (h : ∀ call ∈ calls, call.file ≠ name) :
    (w.performAll fs calls).2.read (joinPath w.dir name) = .ok text := by
  induction calls generalizing w fs with
  | nil => exact hread
  | cons call rest ih =>
    obtain ⟨hcall, hrest⟩ := List.forall_mem_cons.1 h
    rcases w.perform_cases fs call with ⟨path, w', fs', hfile, hperform, hdir⟩ | ⟨e, hperform⟩
    · have hread' := Files.read_write_of_ne call.isFileName hname hcall.symm hfile hread
      rw [← hdir] at hread' ⊢
      simp only [performAll, hperform]
      exact ih hread' hrest
    · simp only [performAll, hperform]
      exact ih hread hrest

/-- What a call has written can be read until a later call goes to the same file. -/
theorem read_written {call : Call} (hok : (w.perform fs call).1.isOk) {later : List Call}
    (h : ∀ other ∈ later, other.file ≠ call.file) :
    (w.performAll fs (call :: later)).2.read (joinPath w.dir call.file) = .ok (call.document w) := by
  rcases w.perform_cases fs call with ⟨path, w', fs', hfile, hperform, hdir⟩ | ⟨e, hperform⟩
  · have hread := Files.read_write hfile (call.isFileName.not_endsWith w.dir)
    rw [← hdir] at hread ⊢
    simp only [performAll, hperform]
    exact read_performAll call.isFileName hread h
  · rw [hperform] at hok
    cases hok

/-- Whatever a topic is called, its transcript goes to a file whose name is no path and is not that of the index. So
whatever a writer is asked to write, and whether that can be written or not, only files right in its directory are
changed, under the names of what is written. An index that was written stands there, whatever transcripts are written
after it. A transcript stands there, however often the index is written, until another transcript takes its place. -/
theorem calls_confined (dir : String) (commit : Option String) (fs : Files) (calls : List Call)
    (hrecorded : ∀ t, .write t ∈ calls → t.IsRecorded) :
    (∀ t : Transcript, t.IsRecorded →
      IsFileName t.file ∧ ' ' ∉ t.file.toList ∧ t.file ≠ indexFile) ∧
    let start : Writer := { dir, commit }
    let last := (start.performAll fs calls).2
    Files.Confined dir (calls.map Call.file) last fs ∧
    ∀ earlier later call, calls = earlier ++ call :: later →
      let before := start.performAll fs earlier
      (before.1.perform before.2 call).1.isOk →
      (call = .writeIndex → .writeIndex ∉ later →
        last.read (joinPath dir indexFile) = .ok before.1.index.toValue.pretty) ∧
      ∀ t, call = .write t → (∀ t', .write t' ∈ later → t'.file ≠ t.file) →
        last.read (joinPath dir t.file) = .ok t.document := by
  refine ⟨fun t ht => ⟨isFileName_transcriptFile _, space_not_mem_transcriptFile _, ht.file_ne⟩, ?_⟩
  intro start last
  refine ⟨(start.performAll_confined fs calls).2, ?_⟩
  rintro earlier later call rfl before hok
  have hdir : before.1.dir = dir := (start.performAll_confined fs earlier).1
  have hlast : last = (before.1.performAll before.2 (call :: later)).2 :=
    congrArg Prod.snd (start.performAll_append fs earlier (call :: later))
  have hlater (t : Transcript) (ht : .write t ∈ later) : t.file ≠ indexFile :=
    (hrecorded t (by simp [ht])).file_ne
  rw [hlast, ← hdir]
  constructor
  · rintro rfl hindex
    refine read_written hok fun other hother => ?_
    cases other with
    | write t => exact hlater t hother
    | writeIndex => exact absurd hother hindex
  · rintro t rfl hreplaced
    refine read_written hok fun other hother => ?_
    cases other with
    | write t' => exact hreplaced t' hother
    | writeIndex => exact (hrecorded t (by simp)).file_ne.symm

end Writer

namespace Rehearsal

def emptyTranscript (topic : String) : Transcript := ((Recorder.new topic).after []).finish {}

/-- Topics that are called like places of files. -/
def unruly : List Writer.Call :=
  [.write (emptyTranscript ".."), .writeIndex, .write (emptyTranscript "x/index2"), .write (emptyTranscript "a/")]

theorem unruly_confined :
    let fs : Files := ⟨[(["out"], .directory)]⟩
    let last := (Writer.performAll { dir := "out/", commit := none } fs unruly).2
    (∀ t, .write t ∈ unruly → t.IsRecorded) ∧
    unruly.map Writer.Call.file =
      [".._(stories).json", "index2.json", "index2_(stories).json", "_(stories).json"] ∧
    Files.Confined "out/" (unruly.map Writer.Call.file) last fs ∧
    last.read (joinPath "out/" indexFile) =
      .ok (Index.mk none [⟨".. (stories)", ".._(stories).json"⟩]).toValue.pretty ∧
    last.read (joinPath "out/" (emptyTranscript "..").file) = .ok (emptyTranscript "..").document := by
  intro fs last
  have hrecorded : ∀ t, .write t ∈ unruly → t.IsRecorded := by
    intro t ht
    have htopic : t = emptyTranscript ".." ∨ t = emptyTranscript "x/index2" ∨ t = emptyTranscript "a/" := by
      simpa [unruly] using ht
    rcases htopic with rfl | rfl | rfl <;> exact ⟨_, [], {}, rfl⟩
  obtain ⟨-, hconfined, hkept⟩ := Writer.calls_confined "out/" none fs unruly hrecorded
  refine ⟨hrecorded, by decide +kernel, hconfined, ?_, ?_⟩
  · have hentries : (Writer.performAll { dir := "out/", commit := none } fs [.write (emptyTranscript "..")]).1.index =
        ⟨none, [⟨".. (stories)", ".._(stories).json"⟩]⟩ := by decide +kernel
    have hread := (hkept [.write (emptyTranscript "..")] _ .writeIndex rfl (by decide +kernel)).1 rfl (by simp)
    rwa [hentries] at hread
  · refine (hkept [] _ (.write (emptyTranscript "..")) rfl (by decide +kernel)).2 _ rfl fun t ht => ?_
    have htopic : t = emptyTranscript "x/index2" ∨ t = emptyTranscript "a/" := by simpa using ht
    rcases htopic with rfl | rfl <;> decide +kernel

end Rehearsal

end Storyline
