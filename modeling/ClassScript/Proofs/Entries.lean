import ClassScript.Proofs.Description

/-!
# What the members of a described class add

When a class is described, each of its declared members has added an entry, or has no name of its own.
Each bucket of the class holds, for each name, what the last member with that name added to the
bucket; the nested classes are one more bucket, which has no aspect.
-/

namespace ClassScript.Recognizer

open JavaScript (Node)

/-- A computation on each element of a list gives a result just when each element does. -/
theorem mapM_eq_ok {α β ε : Type} {f : α → Except ε β} {xs : List α} {ys : List β} :
    xs.mapM f = .ok ys ↔ xs.map f = ys.map .ok := by
  induction xs generalizing ys with
  | nil =>
    cases ys with
    | nil => simp [pure, Except.pure]
    | cons y ys => simp [pure, Except.pure]
  | cons x xs ih =>
    rw [List.mapM_cons, List.map_cons]
    cases hx : f x with
    | error fault =>
      cases ys with
      | nil => simp [bind, Except.bind]
      | cons y ys => simp [bind, Except.bind]
    | ok value =>
      cases hrest : xs.mapM f with
      | error fault =>
        have hno : ∀ values : List β, xs.map f ≠ values.map .ok := by
          intro values heq
          rw [ih.2 heq] at hrest
          simp at hrest
        cases ys with
        | nil => simp [bind, Except.bind]
        | cons y ys => simp [bind, Except.bind, hno]
      | ok values =>
        have hvalues := ih.1 hrest
        cases ys with
        | nil => simp [bind, Except.bind, pure, Except.pure]
        | cons y ys =>
          have hinj : values.map (@Except.ok ε β) = ys.map .ok ↔ values = ys :=
            List.map_inj_right fun _ _ ↦ Except.ok.inj
          simp [bind, Except.bind, pure, Except.pure, hvalues, hinj]

namespace Entry

def name : Entry → Text
  | declaration _ name _ => name
  | nested name _ => name

def aspect? : Entry → Option Aspect
  | declaration aspect _ _ => some aspect
  | nested _ _ => none

def site? : Entry → Option Site
  | declaration _ _ declared => some declared.site
  | nested _ inner => inner.facts.site

def remarks : Entry → List Remark
  | declaration _ _ declared => declared.remarks
  | nested _ inner => inner.facts.remarks

end Entry

/-- The aspect under which a member is filed; none for a nested class. -/
def aspectOf? (call : KeywordCall) (member : Node) : Option Aspect :=
  if call.name = Text.ofString "nest" then none
  else if call.name = Text.ofString "am" then some (.fixed .flags)
  else some (aspectOf call.name call.side (member.memberValue.kind == .null))

theorem nest_of_aspectOf? {call : KeywordCall} {member : Node} (h : aspectOf? call member = none) :
    call.name = Text.ofString "nest" := by
  unfold aspectOf? at h
  split at h
  · assumption
  · split at h
    · cases h
    · cases h

/-- Where what a member declares starts: a nested class with its function, any other entry with the
member. -/
def entryStart (call : KeywordCall) (member : Node) : Position :=
  if call.name = Text.ofString "nest" then
    ((memberShape? member).map fun shape ↦ shape.function.start).getD member.start
  else member.start

def siteOf (call : KeywordCall) (member : Node) : Site :=
  ⟨call.literal.start, entryStart call member, member.stop⟩

/-- Whether a member is to be a flag and has no value that a flag can have. -/
def isBadFlag (call : KeywordCall) (member : Node) : Bool :=
  call.name == Text.ofString "am" && !member.memberValue.isBoolean

/-- The value of a flag; no other entry has one. -/
def flagValue? (call : KeywordCall) (member : Node) : Option Bool :=
  if call.name = Text.ofString "am" then some (member.memberValue.kind == .true) else none

section Members

variable {moduleName className name : Text} {call : KeywordCall} {member : Node}

/-- How a member with a name is described. -/
theorem describeMember_named (hkey : member.key = .ok (.named name)) :
    describeMember moduleName className call member =
      match aspectOf? call member with
      | some aspect =>
        if isBadFlag call member then .error (.failure ⟨.badFlag name, moduleName, className⟩)
        else
          .ok (some (.declaration aspect name
            { site := siteOf call member, value := flagValue? call member }))
      | none =>
        match memberShape? member with
        | none => .error (.failure ⟨.badScript, moduleName, innerName className name⟩)
        | some shape =>
          (describe moduleName (innerName className name) (some (siteOf call member)) shape).map
            fun inner ↦ some (.nested name inner) := by
  rw [describeMember, hkey, aspectOf?, siteOf, entryStart, isBadFlag, flagValue?]
  by_cases hnest : call.name = Text.ofString "nest"
  · simp only [hnest, if_true]
    cases memberShape? member with
    | none => rfl
    | some shape => rfl
  · by_cases ham : call.name = Text.ofString "am"
    · simp only [ham, beq_self_eq_true, Bool.true_and]
      cases member.memberValue.isBoolean with
      | true => rfl
      | false => rfl
    · simp only [if_neg hnest, if_neg ham, beq_false_of_ne ham, Bool.false_and]
      rfl

/-- A member without a name adds nothing. -/
theorem describeMember_unnamed (hkey : member.key = .ok .computed ∨ member.key = .ok .missing) :
    describeMember moduleName className call member = .ok none := by
  rw [describeMember]
  rcases hkey with hkey | hkey
  · rw [hkey]
    rfl
  · rw [hkey]
    rfl

/-- Describing a member gives a fault when its key cannot be decoded. -/
theorem describeMember_undecodable {fault : JavaScript.EscapeFault} (hkey : member.key = .error fault) :
    describeMember moduleName className call member = .error (.escape fault) := by
  rw [describeMember, hkey]
  rfl

end Members

/-- The declared members of a class that add an entry, each with its entry. -/
def additions (moduleName className : Text) (function : Node) :
    List ((KeywordCall × Node) × Entry) :=
  (declaredMembers function).filterMap fun declared ↦
    match describeMember moduleName className declared.1 declared.2 with
    | .ok (some entry) => some (declared, entry)
    | _ => none

theorem map_snd_additions (moduleName className : Text) (function : Node) :
    (additions moduleName className function).map Prod.snd =
      ((declaredMembers function).map fun declared ↦
        describeMember moduleName className declared.1 declared.2).filterMap
        fun result ↦ result.toOption.join := by
  rw [additions, List.map_filterMap, List.filterMap_map]
  congr 1
  funext declared
  dsimp only [Function.comp]
  cases describeMember moduleName className declared.1 declared.2 with
  | error fault => rfl
  | ok added =>
    cases added with
    | none => rfl
    | some entry => rfl

section Described

variable {moduleName className : Text} {site : Option Site} {shape : ClassShape}
  {analysis : ClassAnalysis}

/-- A class is described when the name of its superclass can be decoded and all its declared members are
described, and then it consists of the entries that they add. -/
theorem describe_eq_ok (h : describe moduleName className site shape = .ok analysis) :
    ∃ superclass, shape.superclass = .ok superclass ∧
      (∀ declared ∈ declaredMembers shape.function,
        ∃ added, describeMember moduleName className declared.1 declared.2 = .ok added) ∧
      analysis = ofEntries moduleName className superclass site shape.function
        ((additions moduleName className shape.function).map Prod.snd) := by
  rw [describe_eq] at h
  cases hsuper : shape.superclass with
  | error fault =>
    rw [hsuper] at h
    cases h
  | ok superclass =>
    rw [hsuper] at h
    cases hmembers : (declaredMembers shape.function).mapM fun declared ↦
        describeMember moduleName className declared.1 declared.2 with
    | error fault =>
      rw [hmembers] at h
      cases h
    | ok added =>
      rw [hmembers] at h
      have heach := mapM_eq_ok.1 hmembers
      refine ⟨superclass, rfl, ?_, ?_⟩
      · intro declared hdeclared
        have hmem := List.mem_map_of_mem
          (f := fun declared ↦ describeMember moduleName className declared.1 declared.2) hdeclared
        rw [heach] at hmem
        obtain ⟨entry, _, hentry⟩ := List.mem_map.1 hmem
        exact ⟨entry, hentry.symm⟩
      · rw [map_snd_additions, heach, List.filterMap_map]
        exact (Except.ok.inj h).symm

theorem site_of_describe (h : describe moduleName className site shape = .ok analysis) :
    analysis.facts.site = site := by
  obtain ⟨_, _, _, rfl⟩ := describe_eq_ok h
  rfl

theorem remarks_of_describe (h : describe moduleName className site shape = .ok analysis) :
    analysis.facts.remarks = [] := by
  obtain ⟨_, _, _, rfl⟩ := describe_eq_ok h
  rfl

theorem start_of_describe (h : describe moduleName className site shape = .ok analysis) :
    analysis.facts.start = some shape.function.start := by
  obtain ⟨_, _, _, rfl⟩ := describe_eq_ok h
  rfl

/-- The additions of a function are the entries of its declared members, each with its member. -/
theorem mem_additions {function member : Node} {call : KeywordCall} {entry : Entry} :
    ((call, member), entry) ∈ additions moduleName className function ↔
      (call, member) ∈ declaredMembers function ∧
        describeMember moduleName className call member = .ok (some entry) := by
  rw [additions, List.mem_filterMap]
  constructor
  · rintro ⟨declared, hdeclared, hadded⟩
    split at hadded
    · next hentry =>
      cases hadded
      exact ⟨hdeclared, hentry⟩
    · simp at hadded
  · rintro ⟨hdeclared, hentry⟩
    refine ⟨(call, member), hdeclared, ?_⟩
    simp only [hentry]

/-- What can come of a member that is described: nothing if it has no name of its own, an entry under its
aspect, or a class that is described below its name. -/
theorem describeMember_eq_ok {call : KeywordCall} {member : Node} {added : Option Entry}
    (h : describeMember moduleName className call member = .ok added) :
    match added with
    | none => member.key = .ok .computed ∨ member.key = .ok .missing
    | some (.declaration aspect name declared) =>
      member.key = .ok (.named name) ∧ aspectOf? call member = some aspect ∧
        declared = { site := siteOf call member, value := flagValue? call member }
    | some (.nested name inner) =>
      member.key = .ok (.named name) ∧ aspectOf? call member = none ∧
        ∃ shape, memberShape? member = some shape ∧
          describe moduleName (innerName className name) (some (siteOf call member)) shape =
            .ok inner := by
  cases hkey : member.key with
  | error fault =>
    rw [describeMember_undecodable hkey] at h
    cases h
  | ok key =>
    cases key with
    | computed =>
      rw [describeMember_unnamed (.inl hkey)] at h
      cases h
      exact .inl rfl
    | missing =>
      rw [describeMember_unnamed (.inr hkey)] at h
      cases h
      exact .inr rfl
    | named name =>
      rw [describeMember_named hkey] at h
      split at h
      · next aspect haspect =>
        split at h
        · cases h
        · cases h
          exact ⟨rfl, haspect, rfl⟩
      · next haspect =>
        split at h
        · cases h
        · next shape hshape =>
          cases hinner : describe moduleName (innerName className name)
              (some (siteOf call member)) shape with
          | error fault =>
            rw [hinner] at h
            cases h
          | ok inner =>
            rw [hinner] at h
            cases h
            exact ⟨rfl, haspect, shape, hshape, hinner⟩

/-- What an added entry has from its member. -/
structure Adds (call : KeywordCall) (member : Node) (entry : Entry) : Prop where
  key : member.key = .ok (.named entry.name)
  aspect : entry.aspect? = aspectOf? call member
  site : entry.site? = some (siteOf call member)
  bare : entry.remarks = []

/-- An entry has the name, the bucket and the site that its member gives it. -/
theorem adds_of_describeMember {call : KeywordCall} {member : Node} {entry : Entry}
    (h : describeMember moduleName className call member = .ok (some entry)) :
    Adds call member entry := by
  have hadded := describeMember_eq_ok h
  cases entry with
  | declaration aspect name declared =>
    obtain ⟨hkey, haspect, rfl⟩ := hadded
    exact ⟨hkey, haspect.symm, rfl, rfl⟩
  | nested name inner =>
    obtain ⟨hkey, haspect, shape, _, hinner⟩ := hadded
    exact ⟨hkey, haspect.symm, site_of_describe hinner, remarks_of_describe hinner⟩

end Described

end ClassScript.Recognizer
