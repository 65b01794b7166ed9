import Storyline.Files

/-! What operations on files leave behind. Making directories changes no file, and writing a file changes no
directory, nor any file of another name. -/

namespace Storyline

theorem endsWith_iff (s t : String) : s.endsWith t ↔ t.toList <:+ s.toList := by
  rw [String.endsWith, String.Slice.endsWith_string_iff, String.copy_toSlice]

/-- A name that leads from a directory to a place of its own in it. -/
structure IsFileName (name : String) : Prop where
  noSlash : '/' ∉ name.toList
  ne_empty : name ≠ ""
  ne_here : name ≠ "."
  ne_above : name ≠ ".."

theorem pathNames_eq (path : String) :
    pathNames path = ((Text.split '/' path.toList).map String.ofList).filter (· != "") := rfl

theorem pathNames_append (path rest : String) :
    pathNames (path ++ "/" ++ rest) = pathNames path ++ pathNames rest := by
  have hlist : (path ++ "/" ++ rest).toList = path.toList ++ '/' :: rest.toList := by
    simp [String.toList_append]
  rw [pathNames_eq, hlist, Text.split_append, List.map_append, List.filter_append]
  rfl

theorem IsFileName.pathNames {name : String} (h : IsFileName name) : pathNames name = [name] := by
  rw [pathNames_eq, Text.split_of_not_mem h.noSlash]
  simp [h.ne_empty]

theorem IsFileName.pathNames_joinPath {name : String} (h : IsFileName name) (dir : String) :
    Storyline.pathNames (joinPath dir name) = Storyline.pathNames dir ++ [name] := by
  rw [← h.pathNames]
  unfold joinPath
  split
  · rename_i hends
    rw [Bool.or_eq_true, String.isEmpty_iff, endsWith_iff] at hends
    rcases hends with rfl | ⟨start, hstart⟩
    · rfl
    · obtain rfl : dir = String.ofList start ++ "/" := by
        rw [← String.toList_inj, String.toList_append, ← hstart]
        simp
      have hdir := pathNames_append (String.ofList start) ""
      rw [String.append_empty] at hdir
      rw [pathNames_append, hdir]
      exact congrArg (· ++ _) (List.append_nil _).symm
  · exact pathNames_append dir name

theorem IsFileName.not_endsWith {name : String} (h : IsFileName name) (dir : String) :
    ¬ (joinPath dir name).endsWith "/" := by
  have happend (start : String) : ¬ (start ++ name).endsWith "/" := by
    rw [endsWith_iff, String.toList_append]
    intro hsuffix
    have hname : name.toList ≠ [] := fun hnil => h.ne_empty (String.toList_inj.1 hnil)
    have hlast : (start.toList ++ name.toList).getLast? = some '/' := by
      obtain ⟨rest, hrest⟩ := hsuffix
      rw [← hrest]
      exact List.getLast?_concat
    rw [List.getLast?_append, List.getLast?_eq_some_getLast hname] at hlast
    exact h.noSlash (Option.some.inj hlast ▸ List.getLast_mem hname)
  unfold joinPath
  split
  · exact happend dir
  · exact happend (dir ++ "/")

namespace Files

variable {fs fs' : Files} {place place' : Place} {entry : FileEntry} {path dir name name' text text' : String}

theorem lookup_filter_ne {l : List (Place × FileEntry)} (h : place' ≠ place) :
    (l.filter (·.1 != place)).lookup place' = l.lookup place' := by
  induction l with
  | nil => rfl
  | cons e l ih =>
    by_cases hplace : e.1 = place
    · have hne : (place' == e.1) = false := by
        rw [hplace]
        exact beq_false_of_ne h
      rw [List.filter_cons_of_neg (by simp [hplace]), List.lookup_cons, hne]
      exact ih
    · rw [List.filter_cons_of_pos (by simp [hplace]), List.lookup_cons, List.lookup_cons, ih]

theorem get?_put_self (h : place ≠ []) : (fs.put place entry).get? place = some entry := by
  simp [get?, put, h]

theorem get?_put_of_ne (h : place' ≠ place) : (fs.put place entry).get? place' = fs.get? place' := by
  have hne : (place' == place) = false := beq_false_of_ne h
  rw [get?, get?, put, List.lookup_cons, hne, lookup_filter_ne h]

/-- Two states hold the same files, perhaps in different directories. -/
def SameFiles (fs' fs : Files) : Prop :=
  ∀ place text, fs'.get? place = some (.file text) ↔ fs.get? place = some (.file text)

theorem SameFiles.trans {fs'' : Files} (h : SameFiles fs'' fs') (h' : SameFiles fs' fs) : SameFiles fs'' fs :=
  fun place text => (h place text).trans (h' place text)

theorem sameFiles_makeDirectory {path : String} (h : fs.makeDirectory path = .ok fs') : SameFiles fs' fs := by
  unfold makeDirectory at h
  cases hplace : fs.locate path with
  | error e =>
    rw [hplace] at h
    cases h
  | ok made =>
    rw [hplace] at h
    cases hthere : fs.get? made with
    | some e => simp [bind, Except.bind, hthere] at h
    | none =>
      simp only [bind, Except.bind, hthere] at h
      cases h
      have hroot : made ≠ [] := by
        rintro rfl
        cases hthere
      intro place text
      by_cases heq : place = made
      · rw [heq, get?_put_self hroot, hthere]
        simp
      · rw [get?_put_of_ne heq]

theorem sameFiles_makeDirectories (names : List String) : SameFiles (fs.makeDirectories names).2 fs := by
  induction names generalizing fs with
  | nil => exact fun _ _ => Iff.rfl
  | cons name above ih =>
    rw [makeDirectories]
    split
    · rename_i made hmade
      exact sameFiles_makeDirectory hmade
    · -- the directory above is made first, and then this one is tried once more
      have habove : SameFiles (fs.makeDirectories above).2 fs := ih
      split
      · rename_i hfailed
        rwa [hfailed] at habove
      · rename_i hmade
        rw [hmade] at habove
        split
        · rename_i made hlast
          exact (sameFiles_makeDirectory hlast).trans habove
        · exact habove
    · exact fun _ _ => Iff.rfl

theorem sameFiles_makePath (path : String) : SameFiles (fs.makePath path).2 fs :=
  sameFiles_makeDirectories _

def SameDirectories (fs' fs : Files) : Prop := ∀ place, fs'.isDirectory place = fs.isDirectory place

theorem isDirectory_iff : fs.isDirectory place ↔ fs.get? place = some .directory := beq_iff_eq

theorem enter_ok (h : fs.enter place name = .ok place') : fs.isDirectory place := by
  unfold enter at h
  split at h
  · cases h
  · cases h
  · rename_i hdirectory
    exact isDirectory_iff.2 hdirectory

theorem enter_directory (h : fs.isDirectory place) :
    fs.enter place name =
      if name == "." then .ok place
      else if name == ".." then .ok place.dropLast
      else if maxNameBytes < name.utf8ByteSize then .error .nameTooLong
      else .ok (place ++ [name]) := by
  rw [enter, isDirectory_iff.1 h]

/-- Where a way leads depends on directories alone. -/
theorem SameDirectories.walk (h : SameDirectories fs' fs) {names : List String} {start : Place}
    (hwalk : names.foldlM fs.enter start = .ok place) : names.foldlM fs'.enter start = .ok place := by
  induction names generalizing start with
  | nil => exact hwalk
  | cons name names ih =>
    rw [List.foldlM_cons] at hwalk ⊢
    cases henter : fs.enter start name with
    | error e =>
      rw [henter] at hwalk
      cases hwalk
    | ok next =>
      rw [henter] at hwalk
      have hstart := enter_ok henter
      rw [enter_directory hstart] at henter
      rw [enter_directory (by rwa [h start]), henter]
      exact ih hwalk

/-- A path is refused for what it says, or its names are followed. -/
theorem locate_eq (path : String) :
    (∃ e, ∀ fs : Files, fs.locate path = .error e) ∨
      ∀ fs : Files, fs.locate path = (pathNames path).foldlM fs.enter [] := by
  by_cases hnul : path.toList.contains '\x00'
  · exact .inl ⟨.nulByte, fun fs => by rw [Files.locate, if_pos hnul]⟩
  · by_cases hlong : maxPathBytes < path.utf8ByteSize
    · exact .inl ⟨.nameTooLong, fun fs => by rw [Files.locate, if_neg hnul, if_pos hlong]⟩
    · by_cases hempty : path.isEmpty
      · exact .inl ⟨.notFound, fun fs => by rw [Files.locate, if_neg hnul, if_neg hlong, if_pos hempty]⟩
      · exact .inr fun fs => by rw [Files.locate, if_neg hnul, if_neg hlong, if_neg hempty]

theorem SameDirectories.locate (h : SameDirectories fs' fs) (hlocate : fs.locate path = .ok place) :
    fs'.locate path = .ok place := by
  rcases locate_eq path with ⟨e, herror⟩ | hwalk
  · cases (herror fs).symm.trans hlocate
  · rw [hwalk] at hlocate ⊢
    exact h.walk hlocate

/-- A name in a directory leads to a place of its own below the place of the directory. -/
theorem locate_joinPath (hname : IsFileName name) (h : fs.locate (joinPath dir name) = .ok place) :
    ∃ above, (pathNames dir).foldlM fs.enter [] = .ok above ∧ place = above ++ [name] := by
  rcases locate_eq (joinPath dir name) with ⟨e, herror⟩ | hwalk
  · cases (herror fs).symm.trans h
  · rw [hwalk, hname.pathNames_joinPath, List.foldlM_append] at h
    cases habove : (pathNames dir).foldlM fs.enter [] with
    | error e =>
      rw [habove] at h
      cases h
    | ok above =>
      refine ⟨above, rfl, ?_⟩
      rw [habove] at h
      change (fs.enter above name >>= pure) = _ at h
      rw [bind_pure] at h
      rw [enter_directory (enter_ok h), if_neg (by simp [hname.ne_here]), if_neg (by simp [hname.ne_above])] at h
      split at h
      · cases h
      · exact (Except.ok.inj h).symm

theorem write_ok (h : fs.write path text = .ok fs') :
    ∃ place, fs.locate path = .ok place ∧ ¬ fs.isDirectory place ∧ fs' = fs.put place (.file text) := by
  unfold write at h
  cases hplace : fs.locate path with
  | error e =>
    rw [hplace] at h
    cases h
  | ok place =>
    rw [hplace] at h
    change (if fs.isDirectory place then _ else _) = _ at h
    split at h
    · cases h
    · rename_i hfile
      exact ⟨place, rfl, hfile, (Except.ok.inj h).symm⟩

theorem ne_root_of_not_isDirectory (h : ¬ fs.isDirectory place) : place ≠ [] := by
  rintro rfl
  exact h rfl

theorem sameDirectories_put (h : ¬ fs.isDirectory place) : SameDirectories (fs.put place (.file text)) fs := by
  intro place'
  by_cases hplace : place' = place
  · rw [Bool.not_eq_true] at h
    rw [hplace, h, isDirectory, get?_put_self (ne_root_of_not_isDirectory (by rw [h]; exact Bool.false_ne_true))]
    rfl
  · rw [isDirectory, isDirectory, get?_put_of_ne hplace]

theorem read_ok : fs.read path = .ok text ↔
    ¬ path.endsWith "/" ∧ ∃ place, fs.locate path = .ok place ∧ fs.get? place = some (.file text) := by
  unfold read
  cases hplace : fs.locate path with
  | error e => simp [bind, Except.bind]
  | ok place =>
    cases hentry : fs.get? place with
    | none => simp [bind, Except.bind, hentry]
    | some entry =>
      cases entry with
      | directory => simp [bind, Except.bind, hentry]
      | file text' => by_cases hends : path.endsWith "/" <;> simp [bind, Except.bind, hentry, hends]

theorem read_write (h : fs.write path text = .ok fs') (hpath : ¬ path.endsWith "/") :
    fs'.read path = .ok text := by
  obtain ⟨place, hlocate, hfile, rfl⟩ := write_ok h
  refine read_ok.2 ⟨hpath, place, (sameDirectories_put hfile).locate hlocate, ?_⟩
  exact get?_put_self (ne_root_of_not_isDirectory hfile)

theorem read_write_of_ne (hname : IsFileName name) (hname' : IsFileName name') (hne : name' ≠ name)
    (h : fs.write (joinPath dir name) text = .ok fs') (hread : fs.read (joinPath dir name') = .ok text') :
    fs'.read (joinPath dir name') = .ok text' := by
  obtain ⟨place, hlocate, hfile, rfl⟩ := write_ok h
  obtain ⟨hends, place', hlocate', hentry⟩ := read_ok.1 hread
  obtain ⟨above, -, rfl⟩ := locate_joinPath hname hlocate
  obtain ⟨above', -, rfl⟩ := locate_joinPath hname' hlocate'
  refine read_ok.2 ⟨hends, _, (sameDirectories_put hfile).locate hlocate', ?_⟩
  rw [get?_put_of_ne, hentry]
  intro heq
  exact hne (List.append_inj_right' heq rfl |> List.singleton_inj.1)

end Files

end Storyline
