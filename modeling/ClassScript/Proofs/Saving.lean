import ClassScript.CommandLine
import ClassScript.Proofs.Table
import Mathlib.Data.List.Basic

/-!
# Saved files can be found

A file is saved by following its path into a directory, with missing directories made on the way. Once
it is written, following the path again leads to it. This takes it that every entry of the tree is in a
directory to begin with, for a path may lead up again.
-/

namespace ClassScript

namespace FileTree

variable {tree : FileTree}

/-- Every entry is in a directory. -/
def Rooted (tree : FileTree) : Prop :=
  ∀ place, (tree.entry? place).isSome → tree.isDirectory place.dropLast

theorem isDirectory_iff {place : List Text} :
    tree.isDirectory place = true ↔ tree.entry? place = some .directory := by
  rw [isDirectory]
  rcases tree.entry? place with _ | _ | _ <;> simp

theorem entry?_makeDirectories (places : List (List Text)) (place : List Text) :
    FileTree.entry? (tree.makeDirectories places) place =
      if place ∈ places then some .directory else tree.entry? place := by
  have hget : Table.get? place (places.foldl (fun entries place ↦ Table.put place Entry.directory entries)
      tree.entries) = if ∃ made ∈ places, made = place then some .directory
        else Table.get? place tree.entries :=
    Table.get?_foldl_put (fun _ _ _ ↦ rfl) tree.entries
  simp only [exists_eq_right] at hget
  unfold makeDirectories FileTree.entry?
  rw [hget]
  split <;> simp

theorem entry?_writeFile {place : List Text} (h : tree.isDirectory place = false)
    (content : ByteArray) (other : List Text) :
    FileTree.entry? (tree.writeFile place content) other =
      if place = other then some (.file content none) else tree.entry? other := by
  have hcurrent : ¬place.isPrefixOf tree.current := by
    intro hprefix
    have hdirectory : tree.isDirectory place = true := isDirectory_iff.2 (if_pos hprefix)
    rw [h] at hdirectory
    cases hdirectory
  unfold writeFile FileTree.entry?
  rw [Table.get?_put]
  by_cases heq : place = other
  · subst heq
    rw [if_neg hcurrent, if_pos rfl, if_pos rfl]
  · rw [if_neg heq, if_neg heq]

/-- A directory stays one when others are made or a file is written elsewhere. -/
theorem isDirectory_makeDirectories_append {made more : List (List Text)} {place : List Text}
    (h : (tree.makeDirectories made).isDirectory place = true) :
    (tree.makeDirectories (made ++ more)).isDirectory place = true := by
  rw [isDirectory_iff, entry?_makeDirectories] at h ⊢
  by_cases hmade : place ∈ made
  · rw [if_pos (List.mem_append_left more hmade)]
  · rw [if_neg hmade] at h
    rw [h, ite_self]

theorem isDirectory_writeFile {place other : List Text} (h : tree.isDirectory place = false)
    (content : ByteArray) (hother : tree.isDirectory other = true) :
    (tree.writeFile place content).isDirectory other = true := by
  have hne : place ≠ other := by
    rintro rfl
    rw [h] at hother
    cases hother
  rw [isDirectory_iff, entry?_writeFile h, if_neg hne]
  exact isDirectory_iff.1 hother

/-- A path can still be followed when there are more directories. -/
theorem foldlM_follow?_of_imp {other : FileTree}
    (h : ∀ place, tree.isDirectory place = true → other.isDirectory place = true)
    {pieces : List Text} {start place : List Text}
    (hfollow : pieces.foldlM tree.follow? start = some place) :
    pieces.foldlM other.follow? start = some place := by
  induction pieces generalizing start with
  | nil => exact hfollow
  | cons piece rest ih =>
    rw [List.foldlM_cons, follow?] at hfollow ⊢
    by_cases hstart : tree.isDirectory start = true
    · rw [if_pos hstart] at hfollow
      rw [if_pos (h start hstart)]
      exact ih hfollow
    · rw [if_neg hstart] at hfollow
      cases hfollow

/-! ## The way into a directory -/

/-- A way has come to a directory, and all entries are in directories by now. -/
structure Way.Reached (tree : FileTree) (way : Way) : Prop where
  rooted : (tree.makeDirectories way.made).Rooted
  directory : (tree.makeDirectories way.made).isDirectory way.place = true

/-- A step on a way makes at most the directory that it leads to. -/
theorem enter_eq_ok {way next : Way} {piece : Text} (h : tree.enter way piece = .ok next) :
    next.place = step way.place piece ∧
      (next.made = way.made ∧ (piece = parent ∨
        (tree.makeDirectories way.made).isDirectory next.place = true) ∨
      next.made = way.made ++ [way.place ++ [piece]] ∧ piece ≠ parent) := by
  unfold enter at h
  dsimp only at h
  split at h
  · next hparent =>
    cases h
    exact ⟨rfl, .inl ⟨rfl, .inl hparent⟩⟩
  · next hparent =>
    split at h
    · next hentry =>
      cases h
      exact ⟨rfl, .inl ⟨rfl, .inr (isDirectory_iff.2 hentry)⟩⟩
    · cases h
    · split at h
      · cases h
        refine ⟨rfl, .inr ⟨?_, hparent⟩⟩
        rw [step, if_neg hparent]
      · cases h

/-- A tree stays rooted when a directory is made in a directory. -/
theorem Rooted.makeDirectory {made : List (List Text)} {place : List Text} {name : Text}
    (h : (tree.makeDirectories made).Rooted)
    (hplace : (tree.makeDirectories made).isDirectory place = true) :
    (tree.makeDirectories (made ++ [place ++ [name]])).Rooted := by
  intro other hother
  apply isDirectory_makeDirectories_append
  rw [entry?_makeDirectories] at hother
  by_cases hmade : other ∈ made
  · apply h
    rw [entry?_makeDirectories, if_pos hmade]
    rfl
  · by_cases hnew : other = place ++ [name]
    · rw [hnew, List.dropLast_concat]
      exact hplace
    · rw [if_neg (by simp [hmade, hnew])] at hother
      apply h
      rwa [entry?_makeDirectories, if_neg hmade]

/-- One component leads from a place that can be reached to another one, and only adds directories. -/
theorem Way.Reached.enter {way next : Way} {piece : Text} (h : way.Reached tree)
    (hnext : tree.enter way piece = .ok next) :
    next.Reached tree ∧ ∃ more, next.made = way.made ++ more := by
  obtain ⟨hplace, ⟨hmade, hinto⟩ | ⟨hmade, hpiece⟩⟩ := enter_eq_ok hnext
  · refine ⟨⟨hmade ▸ h.rooted, ?_⟩, [], by rw [hmade, List.append_nil]⟩
    rw [hmade]
    rcases hinto with hparent | hdirectory
    · rw [hplace, step, if_pos hparent]
      apply h.rooted
      rw [isDirectory_iff.1 h.directory]
      rfl
    · exact hdirectory
  · refine ⟨⟨hmade ▸ h.rooted.makeDirectory h.directory, ?_⟩, _, hmade⟩
    rw [hmade, hplace, step, if_neg hpiece, isDirectory_iff, entry?_makeDirectories,
      if_pos (by simp)]

/-- A way that is taken can be followed once the directories on it are made. -/
theorem Way.Reached.foldlM_enter {pieces : List Text} {way last : Way} (h : way.Reached tree)
    (hlast : pieces.foldlM tree.enter way = .ok last) :
    last.Reached tree ∧ (∃ more, last.made = way.made ++ more) ∧
      pieces.foldlM (tree.makeDirectories last.made).follow? way.place = some last.place := by
  induction pieces generalizing way with
  | nil =>
    cases hlast
    exact ⟨h, ⟨[], (List.append_nil _).symm⟩, rfl⟩
  | cons piece rest ih =>
    rw [List.foldlM_cons] at hlast
    cases hnext : tree.enter way piece with
    | error stuck =>
      rw [hnext] at hlast
      cases hlast
    | ok next =>
      rw [hnext] at hlast
      obtain ⟨hreached, more, hmore⟩ := h.enter hnext
      obtain ⟨hend, ⟨rest', hrest⟩, hfollow⟩ := ih hreached hlast
      have hmade : last.made = way.made ++ (more ++ rest') := by
        rw [hrest, hmore, List.append_assoc]
      have hdirectory : (tree.makeDirectories last.made).isDirectory way.place = true :=
        hmade ▸ isDirectory_makeDirectories_append h.directory
      refine ⟨hend, ⟨_, hmade⟩, ?_⟩
      rw [List.foldlM_cons, follow?, if_pos hdirectory, ← (enter_eq_ok hnext).1]
      exact hfollow

/-! ## Written files -/

/-- A file is written at the last component of its path, at the end of the way through the others. -/
theorem saving_eq_written {path : Text} {made : List (List Text)} {place : List Text}
    (h : tree.saving path = .written made place) :
    ∃ way name, tree.wayInto path = .ok way ∧ way.made = made ∧ step way.place name = place ∧
      (shown path).isEncodable = true ∧ (components path).getLast? = some name ∧
      tree.takesFile way name = true := by
  unfold saving at h
  split at h
  · cases h
  · split at h
    · cases h
    · split at h
      · cases h
      · next way hway =>
        split at h
        · cases h
        · next hencodable =>
          split at h
          · cases h
          · next name hname =>
            split at h
            · next htakes =>
              cases h
              exact ⟨way, name, hway, rfl, rfl, by simpa using hencodable, hname, htakes.2⟩
            · cases h

/-- A file that is written can be found under its path. -/
theorem locate?_of_saving_eq_written (hrooted : tree.Rooted) {path : Text}
    {made : List (List Text)} {place : List Text} (h : tree.saving path = .written made place)
    (content : ByteArray) :
    ((tree.makeDirectories made).writeFile place content).locate? path = some place ∧
      FileTree.entry? ((tree.makeDirectories made).writeFile place content) place =
        some (.file content none) := by
  obtain ⟨way, name, hway, rfl, rfl, hencodable, hname, htakes⟩ := saving_eq_written h
  simp only [takesFile, Bool.and_eq_true, Bool.not_eq_true'] at htakes
  have hstart : Way.Reached tree ⟨[], tree.start path⟩ := by
    refine ⟨hrooted, isDirectory_iff.2 (if_pos ?_)⟩
    show (tree.start path).isPrefixOf tree.current
    rw [start]
    split <;> simp
  obtain ⟨hreached, _, hfollow⟩ := hstart.foldlM_enter hway
  have hkept (directory : List Text)
      (h : (tree.makeDirectories way.made).isDirectory directory = true) :=
    isDirectory_writeFile htakes.1.2 content h
  constructor
  · have hstarts : ((tree.makeDirectories way.made).writeFile (step way.place name) content).start
        path = tree.start path := rfl
    rw [locate?, if_pos hencodable, ← List.dropLast_append_getLast? name hname, List.foldlM_append,
      hstarts, foldlM_follow?_of_imp hkept hfollow]
    show follow? _ way.place name >>= pure = _
    rw [follow?, if_pos (hkept _ hreached.directory)]
    rfl
  · rw [entry?_writeFile htakes.1.2, if_pos rfl]

end FileTree

theorem Text.filterMap_toChar?_ofString (s : String) :
    (ofString s).filterMap CodePoint.toChar? = s.toList := by
  have hchars : CodePoint.toChar? ∘ CodePoint.ofChar = some := funext CodePoint.toChar?_ofChar
  rw [ofString, ofChars, List.filterMap_map, hchars, List.filterMap_some]

namespace CommandLine

/-- What is saved can be found under the path of the output, unless saving it is refused. -/
theorem locate?_of_save {tree : FileTree} (hrooted : tree.Rooted) {output stderr : Text} {exit : Nat}
    {payload : String} {outcome : Outcome}
    (h : save tree output exit stderr (Text.ofString payload) = .ok outcome)
    (hexit : outcome.exit ≠ 2) :
    ∃ place, (outcome.applyTo tree).locate? output = some place ∧
      FileTree.entry? (outcome.applyTo tree) place = some (.file payload.toUTF8 none) := by
  unfold save at h
  cases hsaving : tree.saving output with
  | written made place =>
    rw [hsaving] at h
    cases h
    refine ⟨place, ?_⟩
    unfold Outcome.applyTo
    dsimp only
    rw [Text.filterMap_toChar?_ofString, String.ofList_toList]
    exact FileTree.locate?_of_saving_eq_written hrooted hsaving payload.toUTF8
  | failed made =>
    rw [hsaving] at h
    cases h
    exact absurd rfl hexit
  | unencodable path =>
    rw [hsaving] at h
    cases h

end CommandLine

end ClassScript
