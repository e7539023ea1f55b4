import ClassScript.Proofs.Entries
import ClassScript.Source

/-!
# What is read from a source

A source is a directory or an archive. There is a selector for it unless a pattern makes no sense, and
its scripts are read unless a selected file has no text, because its member is damaged or because its
content is not in UTF-8. Then the scripts are the texts of the selected files.
-/

namespace ClassScript

theorem exists_mapM_eq_ok_iff {α β ε : Type} {f : α → Except ε β} {xs : List α} :
    (∃ ys, xs.mapM f = .ok ys) ↔ ∀ x ∈ xs, ∃ y, f x = .ok y := by
  induction xs with
  | nil => simp [pure, Except.pure]
  | cons x rest ih =>
    rw [List.forall_mem_cons, ← ih, List.mapM_cons]
    cases f x with
    | error fault => simp [bind, Except.bind]
    | ok y =>
      cases rest.mapM f with
      | error fault => simp [bind, Except.bind]
      | ok ys => simp [bind, Except.bind, pure, Except.pure]

theorem exists_of_mapM_eq_error {α β ε : Type} {f : α → Except ε β} {xs : List α} {fault : ε}
    (h : xs.mapM f = .error fault) : ∃ x ∈ xs, f x = .error fault := by
  induction xs with
  | nil => cases h
  | cons x rest ih =>
    rw [List.mapM_cons] at h
    cases hx : f x with
    | error first =>
      rw [hx] at h
      obtain rfl : first = fault := Except.error.inj h
      exact ⟨x, List.mem_cons_self, hx⟩
    | ok y =>
      rw [hx] at h
      cases hrest : rest.mapM f with
      | error first =>
        rw [hrest] at h
        obtain rfl : first = fault := Except.error.inj h
        exact (ih hrest).imp fun _ ↦ And.imp_left (List.mem_cons_of_mem x)
      | ok ys =>
        rw [hrest] at h
        cases h

/-! ## Patterns that make no sense -/

def Path.Malformed (pattern : Text) : Prop := ∃ fault, Path.Pattern.read pattern = .error fault

/-- Patterns are read just when none of them is malformed. -/
theorem Path.exists_readPatterns_iff {patterns : List Text} :
    (∃ found, Path.readPatterns patterns = .ok found) ↔ ∀ pattern ∈ patterns, ¬Malformed pattern := by
  have hread (pattern : Text) : (∃ found, Pattern.read pattern = .ok found) ↔ ¬Malformed pattern := by
    rw [Malformed]
    cases Pattern.read pattern <;> simp
  simp only [← hread, ← exists_mapM_eq_ok_iff, readPatterns]
  cases patterns.mapM Pattern.read with
  | error fault => simp [bind, Except.bind]
  | ok found => simp [bind, Except.bind, pure, Except.pure]

/-- There is a selector unless a pattern makes no sense. -/
theorem Selector.exists_ofSettings_iff {settings : Settings} :
    (∃ selector, ofSettings settings = .ok selector) ↔
      ∀ pattern ∈ includePattern settings.classHome :: settings.exclude, ¬Path.Malformed pattern := by
  rw [← List.singleton_append, List.forall_mem_append, ← Path.exists_readPatterns_iff,
    ← Path.exists_readPatterns_iff, ofSettings]
  cases Path.readPatterns [includePattern settings.classHome] with
  | error fault => simp [bind, Except.bind]
  | ok included =>
    cases Path.readPatterns settings.exclude with
    | error fault => simp [bind, Except.bind]
    | ok excluded => simp [bind, Except.bind, pure, Except.pure]

/-! ## What a source holds -/

namespace Source

abbrev Contents := List (Text × Except SourceFault ByteArray)

def ofDirectory (files : List (List Text × ByteArray)) : Contents :=
  ((files.filter fun file ↦ file.1.getLast?.any fun name ↦
    Selector.extension.isSuffixOf name).mergeSort fun a b ↦ placeLe a.1 b.1).map
      fun file ↦ (Text.join [FileTree.separator] file.1, .ok file.2)

def ofArchive (archive : Text) (members : List Member) : Contents :=
  ((members.filter fun member ↦ member.name.getLast? != some FileTree.separator).mergeSort
    fun a b ↦ a.name.le b.name).map fun member ↦
      (member.name, if member.damaged then .error (.damaged archive member.name)
        else .ok member.content)

/-- What is looked at in the source at a path, in that order; none if it is neither a directory nor an
archive. -/
def contents? (tree : FileTree) (path : Text) : Option Contents :=
  match (tree.locate? path).bind tree.entry? with
  | some .directory => some (ofDirectory (tree.filesBelow ((tree.locate? path).getD [])))
  | some (.file _ (some members)) => some (ofArchive (FileTree.shown path) members)
  | _ => none

theorem contents?_of_missing {tree : FileTree} {path : Text}
    (h : (tree.locate? path).bind tree.entry? = none) : contents? tree path = none := by
  rw [contents?, h]

theorem read_eq (settings : Settings) (tree : FileTree) (path : Text) :
    read settings tree path =
      match contents? tree path with
      | some contents => selector settings >>= fun selector ↦ scripts selector contents
      | none => .error (.noSource (FileTree.shown path)) := by
  unfold read contents?
  dsimp only
  rcases (tree.locate? path).bind tree.entry? with _ | (_ | ⟨_, _ | members⟩) <;> rfl

/-- The text of a file; none if its content cannot be had or is no text. -/
def text? (content : Except SourceFault ByteArray) : Option String :=
  content.toOption.bind String.fromUTF8?

/-- A file that is selected and has no text. -/
def Unreadable (selector : Selector) (entry : Text × Except SourceFault ByteArray) : Prop :=
  (selector.identity? entry.1).isSome ∧ text? entry.2 = none

/-- A script is the text of a selected file. -/
structure IsRead (selector : Selector) (contents : Contents) (script : ClassSource) : Prop where
  selected : selector.identity? script.path = some ⟨script.moduleName, script.className⟩
  found : ∃ content text, (script.path, content) ∈ contents ∧ text? content = some text ∧
    script.source = text.toList

section Reading

variable {selector : Selector} {contents : Contents} {entry : Text × Except SourceFault ByteArray}

theorem script?_of_not_selected (h : selector.identity? entry.1 = none) :
    script? selector entry.1 entry.2 = .ok none := by
  rw [script?, h]

theorem script?_of_text {identity : Identity} {text : String}
    (hidentity : selector.identity? entry.1 = some identity) (htext : text? entry.2 = some text) :
    script? selector entry.1 entry.2 =
      .ok (some ⟨identity.moduleName, identity.className, text.toList, entry.1⟩) := by
  obtain ⟨path, _ | bytes⟩ := entry
  · cases htext
  · have hbytes : String.fromUTF8? bytes = some text := htext
    simp [script?, hidentity, decode, hbytes, bind, Except.bind, pure, Except.pure]

/-- The fault of a file that cannot be read is its own, or that it is no text. -/
theorem script?_of_unreadable (h : Unreadable selector entry) :
    ∃ fault, script? selector entry.1 entry.2 = .error fault ∧
      (entry.2 = .error fault ∨ fault = .notUtf8 entry.1) := by
  obtain ⟨hselected, htext⟩ := h
  obtain ⟨identity, hidentity⟩ := Option.isSome_iff_exists.1 hselected
  obtain ⟨path, fault | bytes⟩ := entry
  · exact ⟨fault, by rw [script?, hidentity]; rfl, .inl rfl⟩
  · have hbytes : String.fromUTF8? bytes = none := htext
    exact ⟨_, by simp [script?, hidentity, decode, hbytes, bind, Except.bind], .inr rfl⟩

/-- A file is unreadable, or it is passed over or read. -/
theorem unreadable_or_exists (selector : Selector) (entry : Text × Except SourceFault ByteArray) :
    Unreadable selector entry ∨ ∃ found, script? selector entry.1 entry.2 = .ok found := by
  cases hidentity : selector.identity? entry.1 with
  | none => exact .inr ⟨none, script?_of_not_selected hidentity⟩
  | some identity =>
    cases htext : text? entry.2 with
    | none => exact .inl ⟨by rw [hidentity]; rfl, htext⟩
    | some text => exact .inr ⟨_, script?_of_text hidentity htext⟩

theorem exists_script?_iff :
    (∃ found, script? selector entry.1 entry.2 = .ok found) ↔ ¬Unreadable selector entry := by
  constructor
  · rintro ⟨found, hfound⟩ hunreadable
    obtain ⟨fault, hfault, _⟩ := script?_of_unreadable hunreadable
    cases hfound.symm.trans hfault
  · exact (unreadable_or_exists selector entry).resolve_left

/-- A file is read as a script just when it is selected and has a text. -/
theorem script?_eq_some_iff {script : ClassSource} :
    script? selector entry.1 entry.2 = .ok (some script) ↔
      script.path = entry.1 ∧
        selector.identity? script.path = some ⟨script.moduleName, script.className⟩ ∧
        ∃ text, text? entry.2 = some text ∧ script.source = text.toList := by
  constructor
  · intro h
    cases hidentity : selector.identity? entry.1 with
    | none => cases (script?_of_not_selected hidentity).symm.trans h
    | some identity =>
      cases htext : text? entry.2 with
      | none =>
        obtain ⟨fault, hfault, _⟩ := script?_of_unreadable
          ⟨Option.isSome_iff_exists.2 ⟨identity, hidentity⟩, htext⟩
        cases hfault.symm.trans h
      | some text =>
        obtain rfl := Option.some.inj (Except.ok.inj ((script?_of_text hidentity htext).symm.trans h))
        exact ⟨rfl, hidentity, text, rfl, rfl⟩
  · rintro ⟨hpath, hselected, text, htext, hsource⟩
    rw [hpath] at hselected
    rw [script?_of_text hselected htext, ← hpath, ← hsource]

/-- All is read just when each selected file can be read. -/
theorem exists_scripts_iff :
    (∃ found, scripts selector contents = .ok found) ↔
      ∀ entry ∈ contents, ¬Unreadable selector entry := by
  simp only [← exists_script?_iff, ← exists_mapM_eq_ok_iff, scripts]
  cases contents.mapM fun entry ↦ script? selector entry.1 entry.2 with
  | error fault => simp [bind, Except.bind]
  | ok found => simp [bind, Except.bind, pure, Except.pure]

/-- What is read are the selected files, and no others. -/
theorem mem_scripts {found : List ClassSource} (h : scripts selector contents = .ok found)
    {script : ClassSource} : script ∈ found ↔ IsRead selector contents script := by
  unfold scripts at h
  cases hmapM : contents.mapM fun entry ↦ script? selector entry.1 entry.2 with
  | error fault =>
    rw [hmapM] at h
    cases h
  | ok all =>
    rw [hmapM] at h
    obtain rfl : all.filterMap id = found := Except.ok.inj h
    have hall := Recognizer.mapM_eq_ok.1 hmapM
    calc script ∈ all.filterMap id
        ↔ (.ok (some script) : Except SourceFault _) ∈ all.map .ok := by simp
      _ ↔ ∃ entry ∈ contents, script? selector entry.1 entry.2 = .ok (some script) := by
          rw [← hall, List.mem_map]
      _ ↔ IsRead selector contents script := by
          simp only [script?_eq_some_iff]
          constructor
          · rintro ⟨⟨_, content⟩, hentry, rfl, hselected, text, htext⟩
            exact ⟨hselected, content, text, hentry, htext⟩
          · rintro ⟨hselected, content, text, hentry, htext⟩
            exact ⟨_, hentry, rfl, hselected, text, htext⟩

/-- Only a damaged member has no content. -/
theorem damaged_of_mem {tree : FileTree} {path : Text} (h : contents? tree path = some contents)
    {fault : SourceFault} (hentry : entry ∈ contents) (hfault : entry.2 = .error fault) :
    ∃ archive member, fault = .damaged archive member := by
  unfold contents? at h
  split at h
  · cases h
    obtain ⟨file, _, rfl⟩ := List.mem_map.1 hentry
    cases hfault
  · cases h
    obtain ⟨member, _, rfl⟩ := List.mem_map.1 hentry
    dsimp only at hfault
    split at hfault
    · exact ⟨_, _, (Except.error.inj hfault).symm⟩
    · cases hfault
  · cases h

theorem scripts_ne_pattern {tree : FileTree} {path : Text} (h : contents? tree path = some contents)
    {fault : Path.PatternFault} : scripts selector contents ≠ .error (.pattern fault) := by
  intro hscripts
  unfold scripts at hscripts
  cases hmapM : contents.mapM fun entry ↦ script? selector entry.1 entry.2 with
  | ok found =>
    rw [hmapM] at hscripts
    cases hscripts
  | error first =>
    rw [hmapM] at hscripts
    obtain rfl : first = .pattern fault := Except.error.inj hscripts
    obtain ⟨entry, hentry, hfault⟩ := exists_of_mapM_eq_error hmapM
    rcases unreadable_or_exists selector entry with hunreadable | ⟨found, hfound⟩
    · obtain ⟨first, hfirst, hcause⟩ := script?_of_unreadable hunreadable
      obtain rfl : first = .pattern fault := Except.error.inj (hfirst.symm.trans hfault)
      rcases hcause with hcontent | hcontent
      · obtain ⟨_, _, hdamaged⟩ := damaged_of_mem h hentry hcontent
        cases hdamaged
      · cases hcontent
    · cases hfound.symm.trans hfault

end Reading

end Source

end ClassScript
