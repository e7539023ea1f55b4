import ClassScript.Proofs.Reading
import ClassScript.Report

/-!
# What the tables show

The tables of an archive can be shown unless the console refuses a title, the name of a class or of a
superclass, or the summary of a class. The numbers in the tables are never refused, since they have
neither brackets nor colons.
-/

namespace ClassScript

namespace Console

variable {console : Console} {t : Text}

def Refuses (console : Console) (t : Text) : Prop := ∃ message, console.read t = .error message

theorem exists_read_iff : (∃ shown, console.read t = .ok shown) ↔ ¬console.Refuses t := by
  rw [Refuses]
  cases console.read t <;> simp

theorem colon_mem_of_hasCode (h : HasCode t) : colon ∈ t := by
  obtain ⟨before, name, after, rfl, _⟩ := h
  simp

theorem not_refuses_of_plain (hopening : opening ∉ t) (hcolon : colon ∉ t) : ¬console.Refuses t :=
  exists_read_iff.1 ⟨t, console.read_of_plain t hopening (mt colon_mem_of_hasCode hcolon)⟩

/-- No console shows a text that starts with a tag that closes nothing. -/
theorem refuses_of_closeLast (after : Text) : console.Refuses (closeLast ++ after) :=
  console.read_of_closeLast [] after List.not_mem_nil (by simp)

theorem not_refuses_ofInt (n : Nat) : ¬console.Refuses (Text.ofInt n) := by
  have hdigit {c : Char} (h : CodePoint.ofChar c ∈ Text.ofInt n) : c.isDigit = true := by
    obtain ⟨d, hd, heq⟩ := List.mem_map.1 h
    rw [CodePoint.ofChar_inj.1 heq] at hd
    exact Nat.isDigit_of_mem_toDigits (by decide) (by decide) (Nat.toList_repr ▸ hd)
  apply not_refuses_of_plain
  · exact fun h ↦ absurd (hdigit h) (by decide)
  · exact fun h ↦ absurd (hdigit h) (by decide)

end Console

namespace Report

/-- The texts in the tables that a console may refuse. -/
inductive Shows (place : Text) (modules : ArchiveAnalysis) : Text → Prop
  | title {moduleName : Text} {classes : ModuleAnalysis} (h : (moduleName, classes) ∈ modules) :
    Shows place modules (title place moduleName)
  | name {moduleName className : Text} {classes : ModuleAnalysis} {analysis : ClassAnalysis}
    (h : (moduleName, classes) ∈ modules) (h' : (className, analysis) ∈ classes) :
    Shows place modules className
  | superclass {moduleName className superclass : Text} {classes : ModuleAnalysis}
    {analysis : ClassAnalysis} (h : (moduleName, classes) ∈ modules)
    (h' : (className, analysis) ∈ classes) (hsuper : analysis.facts.superclass = some superclass) :
    Shows place modules superclass
  | aspects {moduleName className : Text} {classes : ModuleAnalysis} {analysis : ClassAnalysis}
    (h : (moduleName, classes) ∈ modules) (h' : (className, analysis) ∈ classes) :
    Shows place modules analysis.aspectSummary

variable {console : Console} {place : Text}

/-- Rows are shown just when the console refuses none of their cells. -/
theorem exists_readRows_iff {rows : List (List Text)} :
    (∃ shown, readRows console rows = .ok shown) ↔
      ∀ row ∈ rows, ∀ index < columns.length, ¬console.Refuses (row.getD index []) := by
  have hcolumns : (∃ shown, ((List.range columns.length).mapM fun index ↦
      rows.mapM fun row ↦ console.read (row.getD index [])) = .ok shown) ↔
        ∀ row ∈ rows, ∀ index < columns.length, ¬console.Refuses (row.getD index []) := by
    simp only [exists_mapM_eq_ok_iff, Console.exists_read_iff, List.mem_range]
    exact ⟨fun h row hrow index hindex ↦ h index hindex row hrow,
      fun h index hindex row hrow ↦ h row hrow index hindex⟩
  rw [← hcolumns, readRows]
  cases (List.range columns.length).mapM fun index ↦
      rows.mapM fun row ↦ console.read (row.getD index []) with
  | error message => simp [bind, Except.bind]
  | ok shown => simp [bind, Except.bind, pure, Except.pure]

/-- Of the cells of a class only the names and the summary can be refused, as the others are numbers or
plain. -/
theorem forall_classCells_iff {className : Text} {analysis : ClassAnalysis} :
    (∀ index < columns.length,
        ¬console.Refuses ((classCells className analysis).getD index [])) ↔
      ¬console.Refuses className ∧
        (∀ superclass, analysis.facts.superclass = some superclass → ¬console.Refuses superclass) ∧
        ¬console.Refuses analysis.aspectSummary := by
  have hnone : ¬console.Refuses (Text.ofString "None") :=
    Console.not_refuses_of_plain (by decide) (by decide)
  have hsuper : ¬console.Refuses (analysis.facts.superclass.getD (Text.ofString "None")) ↔
      ∀ superclass, analysis.facts.superclass = some superclass → ¬console.Refuses superclass := by
    cases analysis.facts.superclass with
    | none => simp [hnone]
    | some superclass => simp
  rw [← hsuper]
  constructor
  · intro h
    exact ⟨h 0 (by decide), h 1 (by decide), h 2 (by decide)⟩
  · rintro ⟨hname, hsuper, haspects⟩ index hindex
    rcases index with _ | _ | _ | _ | _ | index
    · exact hname
    · exact hsuper
    · exact haspects
    · exact Console.not_refuses_ofInt _
    · exact Console.not_refuses_ofInt _
    · exact absurd hindex (by simp [columns])

/-- The table of a module is shown just when its title and all of its cells are. -/
theorem exists_moduleLines_iff {moduleName : Text} {classes : ModuleAnalysis} :
    (∃ lines, moduleLines console place moduleName classes = .ok lines) ↔
      ¬console.Refuses (title place moduleName) ∧ ∀ entry ∈ classes,
        ∀ index < columns.length, ¬console.Refuses ((classCells entry.1 entry.2).getD index []) := by
  have hrows : (∃ rows, readRows console (classes.map fun entry ↦ classCells entry.1 entry.2) =
      .ok rows) ↔ ∀ entry ∈ classes, ∀ index < columns.length,
        ¬console.Refuses ((classCells entry.1 entry.2).getD index []) := by
    rw [exists_readRows_iff, List.forall_mem_map]
  rw [← Console.exists_read_iff, ← hrows, moduleLines, tableLines]
  cases console.read (title place moduleName) with
  | error message => simp [bind, Except.bind]
  | ok shown =>
    cases readRows console (classes.map fun entry ↦ classCells entry.1 entry.2) with
    | error message => simp [bind, Except.bind]
    | ok rows => simp [bind, Except.bind, pure, Except.pure]

/-- The tables are shown unless a text in them is refused. -/
theorem exists_tables_iff {modules : ArchiveAnalysis} :
    (∃ shown, tables console place modules = .ok shown) ↔
      ∀ t, Shows place modules t → ¬console.Refuses t := by
  have hmodules : (∃ lines, (modules.mapM fun entry ↦
      moduleLines console place entry.1 entry.2) = .ok lines) ↔
        ∀ t, Shows place modules t → ¬console.Refuses t := by
    simp only [exists_mapM_eq_ok_iff, exists_moduleLines_iff, forall_classCells_iff]
    constructor
    · intro h t ht
      cases ht with
      | title hmem => exact (h _ hmem).1
      | name hmem hclass => exact ((h _ hmem).2 _ hclass).1
      | superclass hmem hclass hsuper => exact ((h _ hmem).2 _ hclass).2.1 _ hsuper
      | aspects hmem hclass => exact ((h _ hmem).2 _ hclass).2.2
    · intro h entry hmem
      refine ⟨h _ (.title hmem), fun row hclass ↦ ⟨h _ (.name hmem hclass), ?_, ?_⟩⟩
      · exact fun superclass hsuper ↦ h _ (.superclass hmem hclass hsuper)
      · exact h _ (.aspects hmem hclass)
  rw [← hmodules, tables]
  cases modules.mapM fun entry ↦ moduleLines console place entry.1 entry.2 with
  | error message => simp [bind, Except.bind]
  | ok lines => simp [bind, Except.bind, pure, Except.pure]

end Report

end ClassScript
