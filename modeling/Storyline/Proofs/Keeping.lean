import Storyline.Proofs.Files
import Storyline.Proofs.Recording.Ledger
import Storyline.Rehearsal.Recording
import Storyline.Transcript.Writer
import Mathlib.Data.List.TakeWhile

/-! Transcripts on disk. What is written is listed, in order, and what could not be written is not. The files are
named for what comes last in a description, so that two transcripts may go to one file; then the later one
stands there, and both are listed. -/

namespace Storyline

/-! Names of files. -/

/-- The part of a description that a file is named for. -/
def fileStem (description : String) : List Char :=
  ((description.toList.reverse.takeWhile (· != '/')).reverse).map fun c => if c == ' ' then '_' else c

theorem toList_transcriptFile (description : String) :
    (transcriptFile description).toList = fileStem description ++ ".json".toList := by
  rw [transcriptFile, String.toList_append, String.toList_ofList]
  rfl

theorem slash_not_mem_fileStem (description : String) : '/' ∉ fileStem description := by
  intro hmem
  obtain ⟨c, hc, hslash⟩ := List.mem_map.1 hmem
  have hne : c ≠ '/' := by
    simpa using List.mem_takeWhile_imp (List.mem_reverse.1 hc)
  split at hslash
  · exact absurd hslash (by decide)
  · exact hne hslash

theorem isFileName_transcriptFile (description : String) : IsFileName (transcriptFile description) := by
  have hlength : 5 ≤ (transcriptFile description).toList.length := by
    rw [toList_transcriptFile, List.length_append]
    exact Nat.le_add_left 5 _
  have hne (name : String) (h : name.toList.length < 5) : transcriptFile description ≠ name := by
    rintro rfl
    omega
  refine ⟨?_, hne _ (by decide), hne _ (by decide), hne _ (by decide)⟩
  rw [toList_transcriptFile, List.mem_append, not_or]
  exact ⟨slash_not_mem_fileStem description, by decide⟩

theorem isFileName_indexFile : IsFileName indexFile := ⟨by decide, by decide, by decide, by decide⟩

/-- A topic's file is named for the topic, and then for the stories in it. -/
theorem fileStem_suffix (topic : String) :
    fileStem (topic ++ transcriptSuffix) = fileStem topic ++ "_(stories)".toList := by
  have hsuffix : ∀ c ∈ transcriptSuffix.toList.reverse, (c != '/') = true := List.all_eq_true.1 (by decide)
  rw [fileStem, String.toList_append, List.reverse_append, List.takeWhile_append_of_pos hsuffix,
    List.reverse_append, List.reverse_reverse, List.map_append]
  rfl

/-- Two topics go to one file if their descriptions come to the same in the end. -/
theorem transcriptFile_inj_iff (topic topic' : String) :
    transcriptFile (topic ++ transcriptSuffix) = transcriptFile (topic' ++ transcriptSuffix) ↔
      fileStem topic = fileStem topic' := by
  rw [← String.toList_inj, toList_transcriptFile, toList_transcriptFile, fileStem_suffix, fileStem_suffix,
    List.append_left_inj, List.append_left_inj]

/-- What a recorder has recorded is never kept under the name of the index. -/
theorem transcriptFile_ne_indexFile (topic : String) : transcriptFile (topic ++ transcriptSuffix) ≠ indexFile := by
  intro heq
  have hlength := congrArg (·.toList.length) heq
  simp only [toList_transcriptFile, fileStem_suffix, List.length_append] at hlength
  have hindex : indexFile.toList.length = 11 := by decide
  have hsuffix : "_(stories)".toList.length = 10 := by decide
  have hending : ".json".toList.length = 5 := by decide
  omega

namespace Transcript

variable (t : Transcript)

def file : String := transcriptFile t.description

def document : String := t.toValue.pretty

def entry : IndexEntry := ⟨t.description, t.file⟩

/-- The last of the listed transcripts that went to a file. -/
def lastIn (file : String) (listed : List Transcript) : Option Transcript :=
  (listed.filter (·.file == file)).getLast?

theorem lastIn_concat_self (listed : List Transcript) : lastIn t.file (listed ++ [t]) = some t := by
  simp [lastIn, List.filter_append]

theorem lastIn_concat_of_ne {file : String} (h : file ≠ t.file) (listed : List Transcript) :
    lastIn file (listed ++ [t]) = lastIn file listed := by
  simp [lastIn, List.filter_append, Ne.symm h]

theorem lastIn_mem {t : Transcript} {file : String} {listed : List Transcript} (h : lastIn file listed = some t) :
    t ∈ listed ∧ t.file = file := by
  have hmem := List.mem_of_getLast? h
  rwa [List.mem_filter, beq_iff_eq] at hmem

theorem exists_lastIn {t : Transcript} {listed : List Transcript} (h : t ∈ listed) :
    ∃ last, lastIn t.file listed = some last := by
  have hmem : t ∈ listed.filter (·.file == t.file) := List.mem_filter.2 ⟨h, beq_self_eq_true _⟩
  exact ⟨_, List.getLast?_eq_some_getLast (List.ne_nil_of_mem hmem)⟩

end Transcript

namespace Writer

def writeAll : List Transcript → Writer → Files → List (Except Error String) × Writer × Files
  | [], w, fs => ([], w, fs)
  | t :: rest, w, fs =>
      let (r, w, fs) := w.write t fs
      let (rs, w, fs) := writeAll rest w fs
      (r :: rs, w, fs)

def written (ts : List Transcript) (results : List (Except Error String)) : List Transcript :=
  ((ts.zip results).filter (·.2.isOk)).map Prod.fst

/-- A writer's index lists what was written, and each file holds what was last written to it. -/
structure Keeps (w : Writer) (listed : List Transcript) (fs : Files) : Prop where
  entries : w.entries = listed.map Transcript.entry
  documents : ∀ file t, Transcript.lastIn file listed = some t →
    fs.read (joinPath w.dir file) = .ok t.document

variable {w : Writer} {listed : List Transcript} {fs fs' : Files} (t : Transcript)

theorem store_cases (w : Writer) (name text : String) (fs : Files) :
    (∃ fs', fs.write (joinPath w.dir name) text = .ok fs' ∧ w.store name text fs = .ok fs') ∨
      ∃ e, w.store name text fs = .error e := by
  have hstore : w.store name text fs = (fs.write (joinPath w.dir name) text).mapError _ := rfl
  rw [hstore]
  cases hwrite : fs.write (joinPath w.dir name) text with
  | error e => exact .inr ⟨_, rfl⟩
  | ok fs' => exact .inl ⟨fs', rfl, rfl⟩

/-- A transcript is written under its file, and listed; or nothing has changed. -/
theorem write_cases (w : Writer) (fs : Files) :
    (∃ fs' path, fs.write (joinPath w.dir t.file) t.document = .ok fs' ∧
      w.write t fs = (.ok path, { w with entries := w.entries ++ [t.entry] }, fs')) ∨
    ∃ e, w.write t fs = (.error e, w, fs) := by
  rcases w.store_cases (transcriptFile t.description) t.toValue.pretty fs with ⟨fs', hfile, hstore⟩ | ⟨e, hstore⟩
  · refine .inl ⟨fs', joinPath w.dir t.file, hfile, ?_⟩
    simp only [Writer.write, hstore]
    rfl
  · refine .inr ⟨e, ?_⟩
    simp only [Writer.write, hstore]

/-- One more transcript is listed and its file holds it; all other files are as they were. -/
theorem Keeps.write (h : w.Keeps listed fs)
    (hwrite : fs.write (joinPath w.dir t.file) t.document = .ok fs') :
    Keeps { w with entries := w.entries ++ [t.entry] } (listed ++ [t]) fs' where
  entries := by
    rw [h.entries, List.map_append]
    rfl
  documents := by
    intro file last hlast
    have hname := isFileName_transcriptFile t.description
    by_cases hfile : file = t.file
    · rw [hfile, t.lastIn_concat_self] at hlast
      cases hlast
      rw [hfile]
      exact Files.read_write hwrite (hname.not_endsWith w.dir)
    · rw [t.lastIn_concat_of_ne hfile] at hlast
      obtain ⟨-, rfl⟩ := Transcript.lastIn_mem hlast
      exact Files.read_write_of_ne hname (isFileName_transcriptFile _) hfile hwrite (h.documents _ last hlast)

/-- However many of them fail, the writer goes on to keep what it lists. -/
theorem Keeps.writeAll (h : w.Keeps listed fs) (ts : List Transcript) :
    let after := Writer.writeAll ts w fs
    after.2.1.dir = w.dir ∧ after.2.1.commit = w.commit ∧
      Keeps after.2.1 (listed ++ written ts after.1) after.2.2 := by
  induction ts generalizing w listed fs with
  | nil =>
    refine ⟨rfl, rfl, ?_⟩
    rwa [written, List.zip_nil_left, List.filter_nil, List.map_nil, List.append_nil]
  | cons t ts ih =>
    rcases write_cases t w fs with ⟨fs', path, hfile, hwrite⟩ | ⟨e, hwrite⟩
    · obtain ⟨hdir, hcommit, hkeeps⟩ := ih (h.write t hfile)
      rw [List.append_assoc] at hkeeps
      simp only [Writer.writeAll, hwrite]
      exact ⟨hdir, hcommit, hkeeps⟩
    · obtain ⟨hdir, hcommit, hkeeps⟩ := ih h
      simp only [Writer.writeAll, hwrite]
      exact ⟨hdir, hcommit, hkeeps⟩

theorem Keeps.found (h : w.Keeps listed fs) {t : Transcript} (ht : t ∈ listed) :
    ∃ t', Transcript.lastIn t.file listed = some t' ∧ fs.read (joinPath w.dir t.file) = .ok t'.document := by
  obtain ⟨t', hlast⟩ := Transcript.exists_lastIn ht
  exact ⟨t', hlast, h.documents t.file t' hlast⟩

theorem Keeps.own_iff (h : w.Keeps listed fs) :
    (∀ t ∈ listed, fs.read (joinPath w.dir t.file) = .ok t.document) ↔
      ∀ t ∈ listed, ∀ t' ∈ listed, t.file = t'.file → t.document = t'.document := by
  constructor
  · intro hown t ht t' ht' hfile
    have hread := hown t ht
    rw [hfile, hown t' ht'] at hread
    exact (Except.ok.inj hread).symm
  · intro hsame t ht
    obtain ⟨t', hlast, hread⟩ := h.found ht
    obtain ⟨hmem, hfile⟩ := Transcript.lastIn_mem hlast
    rw [hread, hsame t ht t' hmem hfile.symm]

theorem Keeps.described (h : w.Keeps listed fs)
    (hsame : ∀ t ∈ listed, ∀ t' ∈ listed, t.file = t'.file → t.description = t'.description) :
    ∀ entry ∈ w.entries, ∃ t ∈ listed, t.description = entry.description ∧
      fs.read (joinPath w.dir entry.file) = .ok t.document := by
  intro entry hentry
  rw [h.entries] at hentry
  obtain ⟨t, ht, rfl⟩ := List.mem_map.1 hentry
  obtain ⟨t', hlast, hread⟩ := h.found ht
  obtain ⟨hmem, hfile⟩ := Transcript.lastIn_mem hlast
  exact ⟨t', hmem, (hsame t ht t' hmem hfile.symm).symm, hread⟩

theorem Keeps.writeIndex (h : w.Keeps listed fs) (hlisted : ∀ t ∈ listed, t.file ≠ indexFile) :
    w.Keeps listed (w.writeIndex fs).2 ∧ ∀ path, (w.writeIndex fs).1 = .ok path →
      (w.writeIndex fs).2.read (joinPath w.dir indexFile) = .ok w.index.toValue.pretty := by
  rcases w.store_cases indexFile w.index.toValue.pretty fs with ⟨fs', hfile, hstore⟩ | ⟨e, hstore⟩
  · have hindex : w.writeIndex fs = (.ok (joinPath w.dir indexFile), fs') := by
      simp only [Writer.writeIndex, hstore]
    rw [hindex]
    refine ⟨⟨h.entries, ?_⟩, fun _ _ => Files.read_write hfile (isFileName_indexFile.not_endsWith w.dir)⟩
    intro file t hlast
    obtain ⟨hmem, rfl⟩ := Transcript.lastIn_mem hlast
    exact Files.read_write_of_ne isFileName_indexFile (isFileName_transcriptFile _) (hlisted t hmem) hfile
      (h.documents _ t hlast)
  · have hindex : w.writeIndex fs = (.error e, fs) := by
      simp only [Writer.writeIndex, hstore]
    rw [hindex]
    exact ⟨h, nofun⟩

end Writer

namespace Rehearsal

theorem Recording.step_description (s : Recording) (op : RecordingOp) :
    (s.step op).2.recorder.description = s.recorder.description := by
  cases op with
  | fill name d =>
    rw [step]
    split <;> rfl
  | stashNote text =>
    rw [step]
    split <;> rfl
  | beginScratch | beginStory _ | endStory | beginPath | endPath | endScope =>
    exact s.recorder.switch_description .scratch
  | beginSetup => exact s.recorder.beginSetup_description
  | beginStep description isFork => exact s.recorder.beginStep_description description isFork
  | _ => rfl

theorem transcriptOf_description (topic : String) (ops : List RecordingOp) :
    (transcriptOf topic ops).description = topic ++ transcriptSuffix := by
  have hafter (s : Recording) : (s.after ops).recorder.description = s.recorder.description := by
    induction ops generalizing s with
    | nil => rfl
    | cons op ops ih => exact (ih _).trans (s.step_description op)
  exact (Recorder.switch_description _ .scratch).trans (hafter (.ofTopic topic))

end Rehearsal

/-- What a writer that is handed recorded transcripts leaves behind, also where some of them cannot be written,
or the index. It lists those that were written, in order and with the commit; if the index was written, it stands
beside them. The file of each holds the one that was last written to it, so every file holds what is listed with
it if and only if no two different documents went to one file. Where only transcripts of one description share a
file, each file holds a transcript of the description that is listed with it. -/
theorem files_hold_last_written (dir : String) (commit : Option String) (fs : Files)
    (recordings : List (String × List Rehearsal.RecordingOp)) :
    let ts := recordings.map fun (topic, ops) => Rehearsal.transcriptOf topic ops
    let after := Writer.writeAll ts { dir, commit } fs
    let listed := Writer.written ts after.1
    let last := after.2.1.writeIndex after.2.2
    after.2.1.index = ⟨commit, listed.map Transcript.entry⟩ ∧
    (last.1.isOk → last.2.read (joinPath dir indexFile) = .ok after.2.1.index.toValue.pretty) ∧
    (∀ t ∈ listed, ∃ t', Transcript.lastIn t.file listed = some t' ∧
      last.2.read (joinPath dir t.file) = .ok t'.document) ∧
    ((∀ t ∈ listed, last.2.read (joinPath dir t.file) = .ok t.document) ↔
      ∀ t ∈ listed, ∀ t' ∈ listed, t.file = t'.file → t.document = t'.document) ∧
    ((∀ t ∈ listed, ∀ t' ∈ listed, t.file = t'.file → t.description = t'.description) →
      ∀ entry ∈ after.2.1.entries, ∃ t ∈ listed, t.description = entry.description ∧
        last.2.read (joinPath dir entry.file) = .ok t.document) := by
  intro ts after listed last
  have hstart : Writer.Keeps { dir, commit } [] fs := ⟨rfl, nofun⟩
  obtain ⟨hdir, hcommit, hkeeps⟩ := hstart.writeAll ts
  obtain ⟨hdir, hcommit⟩ : after.2.1.dir = dir ∧ after.2.1.commit = commit := ⟨hdir, hcommit⟩
  obtain hkeeps : after.2.1.Keeps listed after.2.2 := hkeeps
  have hlisted : ∀ t ∈ listed, t.file ≠ indexFile := by
    intro t ht
    obtain ⟨⟨t', r⟩, hmem, rfl⟩ := List.mem_map.1 ht
    obtain ⟨⟨topic, ops⟩, -, rfl⟩ := List.mem_map.1 (List.of_mem_zip (List.mem_filter.1 hmem).1).1
    rw [Transcript.file, Rehearsal.transcriptOf_description]
    exact transcriptFile_ne_indexFile topic
  obtain ⟨hfinal, hindex⟩ := hkeeps.writeIndex hlisted
  rw [← hdir]
  refine ⟨?_, ?_, fun t ht => hfinal.found ht, hfinal.own_iff, hfinal.described⟩
  · rw [Writer.index, hcommit, hkeeps.entries]
  · intro hok
    cases hresult : last.1 with
    | error e =>
      rw [hresult] at hok
      cases hok
    | ok path => exact hindex path hresult

namespace Rehearsal

/-- Two topics whose descriptions end alike. -/
def clashingTopics : List Transcript := [transcriptOf "api/users" [], transcriptOf "web/users" []]

/-- Both transcripts are written and listed, but only the later one can be found. -/
theorem earlier_file_overwritten :
    let after := Writer.writeAll clashingTopics { dir := "out", commit := none } ⟨[(["out"], .directory)]⟩
    let last := after.2.1.writeIndex after.2.2
    after.2.1.index.transcripts =
      [⟨"api/users (stories)", "users_(stories).json"⟩, ⟨"web/users (stories)", "users_(stories).json"⟩] ∧
    last.2.read "out/users_(stories).json" = .ok (transcriptOf "web/users" []).document ∧
    (transcriptOf "web/users" []).document ≠ (transcriptOf "api/users" []).document := by
  decide +kernel

end Rehearsal

end Storyline
