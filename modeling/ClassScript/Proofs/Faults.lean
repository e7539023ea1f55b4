import ClassScript.Analyzer
import ClassScript.Proofs.Entries
import ClassScript.Proofs.Escape
import ClassScript.Proofs.Scan

/-!
# Faults in document order

What is wrong with a class can be said of its tree alone, member by member: an escape sequence in the
name of the superclass or in a key, a flag without a proper value, a nested class that is none, and
what is wrong with the nested classes. The analysis of a script fails just when something is wrong, and
with the first thing in document order.
-/

namespace ClassScript.Recognizer

open JavaScript (Node EscapeFault)

/-! ## Names that cannot be decoded -/

/-- The string literal that is the key of a member. -/
def keyLiteral? (member : Node) : Option Node :=
  if member.kind = .shorthandProperty then none
  else (member.part? (if member.kind = .pair then .key else .name)).filter (·.kind = .string)

def keyFaults (member : Node) : List EscapeFault := (keyLiteral? member).elim [] Node.literalFaults

def superclassFaults (shape : ClassShape) : List EscapeFault :=
  shape.base.elim [] Node.literalFaults

/-- Where the first fault of a list is the fault of a computation, there is none in the list when the
computation gives a result. -/
theorem eq_nil_of_ok {α ε : Type} {result : Except ε α} {faults : List ε} {a : α}
    (h : ∀ fault, result = .error fault ↔ faults.head? = some fault) (hok : result = .ok a) :
    faults = [] := by
  rw [← List.head?_eq_none_iff, Option.eq_none_iff_forall_ne_some]
  intro fault hfault
  rw [(h fault).2 hfault] at hok
  cases hok

/-- Reading a key fails with the first fault in it. -/
theorem key_eq_error_iff {member : Node} {fault : EscapeFault} :
    member.key = .error fault ↔ (keyFaults member).head? = some fault := by
  unfold Node.key keyFaults keyLiteral?
  by_cases hshort : member.kind = .shorthandProperty
  · simp [hshort]
  · rw [if_neg hshort, if_neg hshort]
    cases member.part? (if member.kind = .pair then .key else .name) with
    | none => simp
    | some key =>
      dsimp only
      by_cases hcomputed : key.kind = .computedKey
      · simp [hcomputed, Option.filter_some]
      · rw [if_neg hcomputed]
        by_cases hstring : key.kind = .string
        · rw [if_pos hstring, Option.filter_some, if_pos (decide_eq_true hstring), Option.elim_some,
            ← Node.stringValue_eq_error_iff]
          cases key.stringValue with
          | error first => simp [bind, Except.bind]
          | ok value => simp [bind, Except.bind, pure, Except.pure]
        · simp [hstring, Option.filter_some]

theorem superclass_eq_error_iff {shape : ClassShape} {fault : EscapeFault} :
    shape.superclass = .error fault ↔ (superclassFaults shape).head? = some fault := by
  unfold ClassShape.superclass superclassFaults
  cases shape.base with
  | none => simp
  | some base => exact Node.stringValue_eq_error_iff

/-! ## Faults of classes -/

mutual

def faults (moduleName className : Text) (shape : ClassShape) : List Fault :=
  (superclassFaults shape).map .escape ++
    (declaredMembers shape.function).attach.flatMap fun declared ↦
      memberFaults moduleName className declared.1.1 declared.1.2
termination_by 2 * shape.function.size
decreasing_by
  have : declared.val.2.size < shape.function.size := size_declaredMembers declared.2
  omega

def memberFaults (moduleName className : Text) (call : KeywordCall) (member : Node) : List Fault :=
  (keyFaults member).map .escape ++
    match member.key with
    | .ok (.named name) =>
      if call.name = Text.ofString "nest" then
        match _h : memberShape? member with
        | none => [.failure ⟨.badScript, moduleName, innerName className name⟩]
        | some shape => faults moduleName (innerName className name) shape
      else if isBadFlag call member then [.failure ⟨.badFlag name, moduleName, className⟩]
      else []
    | _ => []
termination_by 2 * member.size + 1
decreasing_by
  have := size_memberShape _h
  omega

end

/-- The faults of a class, in the order in which they are met. -/
theorem faults_eq (moduleName className : Text) (shape : ClassShape) :
    faults moduleName className shape =
      (superclassFaults shape).map .escape ++
        (declaredMembers shape.function).flatMap fun declared ↦
          memberFaults moduleName className declared.1 declared.2 := by
  rw [faults]
  simp only [List.flatMap_subtype, List.unattach_attach]

section Members

variable {moduleName className name : Text} {call : KeywordCall} {member : Node} {fault : Fault}

theorem keyFaults_of_ok {key : Node.Key} (hkey : member.key = .ok key) : keyFaults member = [] :=
  eq_nil_of_ok (fun _ ↦ key_eq_error_iff) hkey

/-- A member with a name has a fault for its flag, for its class or within its class. -/
theorem memberFaults_named (hkey : member.key = .ok (.named name)) :
    memberFaults moduleName className call member =
      match aspectOf? call member with
      | some _ =>
        if isBadFlag call member then [.failure ⟨.badFlag name, moduleName, className⟩] else []
      | none =>
        match memberShape? member with
        | none => [.failure ⟨.badScript, moduleName, innerName className name⟩]
        | some shape => faults moduleName (innerName className name) shape := by
  rw [memberFaults, hkey, keyFaults_of_ok hkey, aspectOf?]
  by_cases hnest : call.name = Text.ofString "nest"
  · simp only [hnest, if_true]
    cases memberShape? member with
    | none => rfl
    | some shape => rfl
  · simp only [if_neg hnest]
    by_cases ham : call.name = Text.ofString "am"
    · rw [if_pos ham]
      rfl
    · rw [if_neg ham]
      rfl

theorem memberFaults_unnamed (hkey : member.key = .ok .computed ∨ member.key = .ok .missing) :
    memberFaults moduleName className call member = [] := by
  rcases hkey with hkey | hkey
  · rw [memberFaults, hkey, keyFaults_of_ok hkey]
    rfl
  · rw [memberFaults, hkey, keyFaults_of_ok hkey]
    rfl

/-- Describing a member fails with the first thing that is wrong with it, if the same is true of the
nested class that it may be. -/
theorem describeMember_eq_error_iff
    (hinner : ∀ shape name site, memberShape? member = some shape →
      (describe moduleName (innerName className name) site shape = .error fault ↔
        (faults moduleName (innerName className name) shape).head? = some fault)) :
    describeMember moduleName className call member = .error fault ↔
      (memberFaults moduleName className call member).head? = some fault := by
  cases hkey : member.key with
  | error first =>
    rw [describeMember_undecodable hkey, memberFaults, List.head?_append, List.head?_map,
      key_eq_error_iff.1 hkey]
    simp
  | ok key =>
    cases key with
    | computed =>
      rw [describeMember_unnamed (.inl hkey), memberFaults_unnamed (.inl hkey)]
      simp
    | missing =>
      rw [describeMember_unnamed (.inr hkey), memberFaults_unnamed (.inr hkey)]
      simp
    | named name =>
      rw [describeMember_named hkey, memberFaults_named hkey]
      cases aspectOf? call member with
      | some aspect =>
        cases isBadFlag call member with
        | true => simp
        | false => simp
      | none =>
        cases hshape : memberShape? member with
        | none => simp
        | some shape =>
          dsimp only
          rw [← hinner shape name (some (siteOf call member)) hshape]
          cases describe moduleName (innerName className name) (some (siteOf call member)) shape with
          | error first => simp [Except.map]
          | ok inner => simp [Except.map]

/-- What is wrong with a member is wrong with its key, with itself, or with the nested class that it
is. -/
theorem mem_memberFaults (h : fault ∈ memberFaults moduleName className call member) :
    (∃ escape ∈ keyFaults member, fault = .escape escape) ∨ (∃ failure, fault = .failure failure) ∨
      ∃ name shape, call.name = Text.ofString "nest" ∧ memberShape? member = some shape ∧
        fault ∈ faults moduleName (innerName className name) shape := by
  cases hkey : member.key with
  | error first =>
    rw [memberFaults, hkey, List.append_nil] at h
    obtain ⟨escape, hescape, rfl⟩ := List.mem_map.1 h
    exact .inl ⟨escape, hescape, rfl⟩
  | ok key =>
    cases key with
    | computed =>
      rw [memberFaults_unnamed (.inl hkey)] at h
      cases h
    | missing =>
      rw [memberFaults_unnamed (.inr hkey)] at h
      cases h
    | named name =>
      rw [memberFaults_named hkey] at h
      cases haspect : aspectOf? call member with
      | some aspect =>
        rw [haspect] at h
        dsimp only at h
        split at h
        · exact .inr (.inl ⟨_, List.mem_singleton.1 h⟩)
        · cases h
      | none =>
        rw [haspect] at h
        cases hshape : memberShape? member with
        | none =>
          rw [hshape] at h
          exact .inr (.inl ⟨_, List.mem_singleton.1 h⟩)
        | some shape =>
          rw [hshape] at h
          exact .inr (.inr ⟨name, shape, nest_of_aspectOf? haspect, rfl, h⟩)

end Members

/-- A class is described unless something is wrong with it, and the first thing in document order is the
fault that describing it gives. -/
theorem describe_eq_error_iff {moduleName className : Text} (site : Option Site)
    {shape : ClassShape} {fault : Fault} :
    describe moduleName className site shape = .error fault ↔
      (faults moduleName className shape).head? = some fault := by
  induction hsize : shape.function.size using Nat.strongRecOn
    generalizing className site shape fault with
  | ind size ih =>
    have hmembers : ∀ declared ∈ declaredMembers shape.function, ∀ fault,
        describeMember moduleName className declared.1 declared.2 = .error fault ↔
          (memberFaults moduleName className declared.1 declared.2).head? = some fault := by
      intro declared hdeclared fault
      apply describeMember_eq_error_iff
      intro inner name site hinner
      -- The function of a nested class is part of a member, which is part of the function.
      have hmember := size_declaredMembers hdeclared
      have hshape := size_memberShape hinner
      exact ih inner.function.size (by omega) site rfl
    rw [describe_eq, faults_eq, List.head?_append, List.head?_map, List.head?_flatMap]
    cases hsuper : shape.superclass with
    | error first =>
      rw [superclass_eq_error_iff.1 hsuper]
      simp [bind, Except.bind, Except.mapError]
    | ok superclass =>
      rw [eq_nil_of_ok (fun _ ↦ superclass_eq_error_iff) hsuper, List.head?_nil, Option.map_none,
        Option.none_or, ← JavaScript.mapM_eq_error_iff hmembers]
      cases (declaredMembers shape.function).mapM fun declared ↦
          describeMember moduleName className declared.1 declared.2 with
      | error first => simp [bind, Except.bind, Except.mapError]
      | ok entries => simp [bind, Except.bind, Except.mapError, pure, Except.pure]

/-- A string literal names something in a class: its superclass, a member, or something in a class
nested in it. -/
inductive Names : ClassShape → Node → Prop where
  | superclass {shape : ClassShape} {literal : Node} (h : shape.base = some literal) :
    Names shape literal
  | key {shape : ClassShape} {declared : KeywordCall × Node} {literal : Node}
    (hdeclared : declared ∈ declaredMembers shape.function)
    (h : keyLiteral? declared.2 = some literal) : Names shape literal
  | nested {shape inner : ClassShape} {declared : KeywordCall × Node} {literal : Node}
    (hdeclared : declared ∈ declaredMembers shape.function)
    (hnest : declared.1.name = Text.ofString "nest") (hinner : memberShape? declared.2 = some inner)
    (h : Names inner literal) : Names shape literal

theorem exists_of_mem_elim {literal? : Option Node} {fault : EscapeFault}
    (h : fault ∈ literal?.elim [] Node.literalFaults) :
    ∃ literal, literal? = some literal ∧ fault ∈ literal.literalFaults := by
  cases literal? with
  | none => cases h
  | some literal => exact ⟨literal, rfl, h⟩

/-- What is wrong with a class is a failure or a stray escape in a name. -/
theorem failure_or_stray_of_mem {moduleName className : Text} {shape : ClassShape} {fault : Fault}
    (h : fault ∈ faults moduleName className shape) :
    (∃ failure, fault = .failure failure) ∨
      ∃ escape literal, fault = .escape escape ∧ Names shape literal ∧ literal.HasStrayEscape := by
  induction hsize : shape.function.size using Nat.strongRecOn generalizing className shape with
  | ind size ih =>
    rw [faults_eq, List.mem_append, List.mem_map, List.mem_flatMap] at h
    rcases h with ⟨escape, hescape, rfl⟩ | ⟨declared, hdeclared, hfault⟩
    · obtain ⟨literal, hbase, hmem⟩ := exists_of_mem_elim hescape
      exact .inr ⟨escape, literal, rfl, .superclass hbase, Node.hasStrayEscape_of_mem hmem⟩
    · rcases mem_memberFaults hfault with
        ⟨escape, hescape, rfl⟩ | hfailure | ⟨name, inner, hnest, hinner, hfault⟩
      · obtain ⟨literal, hliteral, hmem⟩ := exists_of_mem_elim hescape
        exact .inr ⟨escape, literal, rfl, .key hdeclared hliteral, Node.hasStrayEscape_of_mem hmem⟩
      · exact .inl hfailure
      · have hmember := size_declaredMembers hdeclared
        have hshape := size_memberShape hinner
        rcases ih inner.function.size (by omega) hfault rfl with
          hfailure | ⟨escape, literal, rfl, hnames, hstray⟩
        · exact .inl hfailure
        · exact .inr ⟨escape, literal, rfl, .nested hdeclared hnest hinner hnames, hstray⟩

end ClassScript.Recognizer

/-! ## Faults of scripts -/

namespace ClassScript.ClassSource

open Recognizer JavaScript

/-- The class that a script is, or the failure of having none. -/
def shape (script : ClassSource) : Except Failure ClassShape :=
  match Script.read script.source with
  | .error line => .error ⟨.unreadable line, script.moduleName, script.className⟩
  | .ok read =>
    (findClass read.statements).mapError fun cause ↦ ⟨cause, script.moduleName, script.className⟩

def firstFault? (script : ClassSource) : Option Recognizer.Fault :=
  match script.shape with
  | .error failure => some (.failure failure)
  | .ok shape => (faults script.moduleName script.className shape).head?

/-- The analysis of a script fails just when something is wrong with it, and with the first thing. -/
theorem analyzeScript_eq_error_iff {settings : Settings} {script : ClassSource}
    {fault : Recognizer.Fault} :
    analyzeScript settings script.moduleName script.className script.source = .error fault ↔
      script.firstFault? = some fault := by
  unfold analyzeScript firstFault? shape
  cases Script.read script.source with
  | error line => simp
  | ok read =>
    dsimp only
    rw [snd_recognize_fresh]
    cases findClass read.statements with
    | error cause => simp [bind, Except.bind, Except.mapError]
    | ok shape =>
      dsimp only [Except.mapError]
      rw [← describe_eq_error_iff none]
      cases hdescribe : describe script.moduleName script.className none shape with
      | error first => simp [bind, Except.bind, hdescribe]
      | ok analysis => simp [bind, Except.bind, pure, Except.pure, hdescribe]

/-- A script that is not analyzed has a failure, which is reported, or a stray name, which is not. -/
theorem failure_or_stray {script : ClassSource} {fault : Recognizer.Fault}
    (h : script.firstFault? = some fault) :
    (∃ failure, fault = .failure failure) ∨
      ∃ escape shape literal, fault = .escape escape ∧ script.shape = .ok shape ∧
        Names shape literal ∧ literal.HasStrayEscape := by
  unfold firstFault? at h
  split at h
  · next failure _ => exact .inl ⟨failure, (Option.some.inj h).symm⟩
  · next shape hshape =>
    rcases failure_or_stray_of_mem (List.mem_of_head? h) with
      hfailure | ⟨escape, literal, hescape, hnames, hstray⟩
    · exact .inl hfailure
    · exact .inr ⟨escape, shape, literal, hescape, hshape, hnames, hstray⟩

end ClassScript.ClassSource
