import ClassScript.Proofs.Scan
import ClassScript.Proofs.Sites

/-!
# The geometry of recognized classes

A class starts before the literals in which it declares anything, and what it declares stands at sites
that are proper and do not overlap, over all its buckets. Sites in different literals are separated by
the start of the later literal. A nested class starts where its site does, and all that is declared in
it, at any depth, stands within its site. This holds of every class in whatever a recognizer answers.
-/

namespace ClassScript

/-- How two different sites of a class lie: they do not overlap, and the one that ends first is in the
literal of the other one or ends before that literal starts. -/
structure Site.SetApart (a b : Site) : Prop where
  apart : a.Apart b
  before : a.stop ≤ b.start → a.inside = b.inside ∨ a.stop ≤ b.inside
  after : b.stop ≤ a.start → a.inside = b.inside ∨ b.stop ≤ a.inside

theorem Site.Precedes.setApart {a b : Site} (h : a.Precedes b) (ha : a.Proper) (hb : b.Proper) :
    a.SetApart b where
  apart := .inl h.1
  before _ := h.2
  after hba := absurd (hb.start_lt.trans_le hba) (ha.start_lt.trans_le h.1).asymm

theorem Site.SetApart.symm {a b : Site} (h : a.SetApart b) : b.SetApart a where
  apart := Or.symm h.apart
  before hba := (h.after hba).imp_left Eq.symm
  after hab := (h.before hab).imp_left Eq.symm

/-- All that is declared in a class, or in a class nested in it at any depth, stands within a site. -/
def ClassAnalysis.StandsWithin (analysis : ClassAnalysis) (site : Site) : Prop :=
  ∀ found, analysis.Contains found → ∀ holder ∈ found.holders, ∀ s ∈ holder.site,
    site.start < s.inside ∧ s.stop ≤ site.stop

/-- The start of a class and the sites of what it declares lie properly. -/
structure ClassAnalysis.WellPlaced (analysis : ClassAnalysis) : Prop where
  /-- The class starts before the literals in which it declares anything. -/
  start : ∃ start, analysis.facts.start = some start ∧
    ∀ holder ∈ analysis.holders, ∃ site, holder.site = some site ∧ start < site.inside ∧ site.Proper
  apart : analysis.holders.Pairwise fun a b ↦ ∀ s ∈ a.site, ∀ t ∈ b.site, s.SetApart t
  /-- A nested class starts where its site does and holds all its sites within it. -/
  nested : ∀ entry ∈ analysis.nested, ∃ site, entry.2.facts.site = some site ∧
    entry.2.facts.start = some site.start ∧ entry.2.StandsWithin site

namespace Recognizer

open JavaScript (Node)
open JavaScript.Node (Occurs start_lt_of_bracketed exists_of_mem_callArguments)

/-! ## Described classes -/

/-- The function of a class starts before the literals of its keyword calls. -/
theorem function_start_lt {function : Node} {call : KeywordCall} (hfunction : function.isOrderly = true)
    (h : call ∈ keywordCalls function) : function.start < call.literal.start := by
  obtain ⟨body, hbody, hcall⟩ := exists_body_of_mem_keywordCalls h
  obtain ⟨found, hoccurs, hfound⟩ := exists_of_mem_outermost body hcall
  have hliteral : call.literal ∈ found.callArguments := by
    rw [(ofNode?_eq_some hfound).2.1]
    exact List.mem_singleton_self _
  obtain ⟨arguments, harguments, hkind, hmem⟩ := exists_of_mem_callArguments hliteral
  have hinside : Occurs arguments function :=
    (Occurs.of_mem harguments).trans (hoccurs.trans (JavaScript.Node.occurs_of_part? hbody))
  -- The arguments start with a bracket, which comes before the literal.
  calc function.start
      ≤ arguments.start := (hinside.within hfunction).1
    _ < call.literal.start :=
      start_lt_of_bracketed (hinside.isOrderly hfunction) (by rw [hkind]; rfl) hmem

section Described

variable {moduleName className : Text} {site : Option Site} {shape : ClassShape}
  {analysis : ClassAnalysis}

/-- All that a described class declares has the site of a declared member. -/
theorem exists_site_of_mem_holders (h : describe moduleName className site shape = .ok analysis)
    {holder : Holder} (hholder : holder ∈ analysis.holders) :
    ∃ call member, (call, member) ∈ declaredMembers shape.function ∧
      holder.site = some (siteOf call member) := by
  obtain ⟨⟨aspect?, holders⟩, hbucket, hmem⟩ := List.mem_flatMap.1 hholder
  rw [holders_of_describe h hbucket] at hmem
  obtain ⟨call, member, entry, hadded, _, rfl, hadds⟩ := exists_member_of_holder hmem
  exact ⟨call, member, (mem_additions.1 hadded).1, hadds.site⟩

/-- The sites of any two entries of a described class are set apart, whatever their buckets. -/
theorem setApart_of_describe (hfunction : shape.function.isOrderly = true)
    (h : describe moduleName className site shape = .ok analysis) :
    analysis.holders.Pairwise fun a b ↦ ∀ s ∈ a.site, ∀ t ∈ b.site, s.SetApart t := by
  have hproper : ∀ holder ∈ analysis.holders, ∀ s ∈ holder.site, s.Proper := by
    intro holder hholder s hs
    obtain ⟨call, member, hdeclared, hsite⟩ := exists_site_of_mem_holders h hholder
    rw [hsite] at hs
    cases hs
    exact proper_siteOf hfunction hdeclared
  apply (pairwise_holders hfunction h).imp_of_mem
  intro a b ha hb hab s hs t ht
  have hsp := hproper a ha s hs
  have htp := hproper b hb t ht
  exact (hab s hs t ht).elim (fun hst ↦ hst.setApart hsp htp) fun hts ↦ (hts.setApart htp hsp).symm

/-- All that is declared in a described class stands after the start of its function and ends in it. -/
theorem range_of_contains (hfunction : shape.function.isOrderly = true)
    (h : describe moduleName className site shape = .ok analysis) {found : ClassAnalysis}
    (hfound : analysis.Contains found) {holder : Holder} (hholder : holder ∈ found.holders) {s : Site}
    (hs : s ∈ holder.site) : shape.function.start < s.inside ∧ s.stop ≤ shape.function.stop := by
  obtain ⟨_, _, shape', hdescribed, hoccurs⟩ := describes_of_contains h hfound
  obtain ⟨call, member, hdeclared, hsite⟩ := exists_site_of_mem_holders hdescribed hholder
  rw [hsite] at hs
  cases hs
  have hwithin := hoccurs.within hfunction
  have hmember := ((occurs_of_mem_declaredMembers hdeclared).trans hoccurs).within hfunction
  constructor
  · exact hwithin.1.trans_lt
      (function_start_lt (hoccurs.isOrderly hfunction) (mem_membersOf.1 hdeclared).1)
  · exact hmember.2

theorem wellPlaced_of_describe (hfunction : shape.function.isOrderly = true)
    (h : describe moduleName className site shape = .ok analysis) : analysis.WellPlaced := by
  constructor
  case start =>
    refine ⟨shape.function.start, start_of_describe h, ?_⟩
    intro holder hholder
    obtain ⟨call, member, hdeclared, hsite⟩ := exists_site_of_mem_holders h hholder
    exact ⟨_, hsite, function_start_lt hfunction (mem_membersOf.1 hdeclared).1,
      proper_siteOf hfunction hdeclared⟩
  case apart => exact setApart_of_describe hfunction h
  case nested =>
    rintro ⟨name, inner⟩ hinner
    obtain ⟨call, member, shape', hdeclared, haspect, hshape', hdescribed⟩ :=
      exists_of_mem_nested h hinner
    have hoccurs := occurs_of_memberShape? hshape'
    have hmember := (occurs_of_mem_declaredMembers hdeclared).isOrderly hfunction
    have hstart := entryStart_of_nested haspect hshape'
    refine ⟨siteOf call member, site_of_describe hdescribed, ?_, ?_⟩
    · rw [start_of_describe hdescribed, ← hstart]
      rfl
    · intro found hfound holder hholder s hs
      have hrange := range_of_contains (hoccurs.isOrderly hmember) hdescribed hfound hholder hs
      constructor
      · exact hstart.trans_lt hrange.1
      · exact hrange.2.trans (hoccurs.within hmember).2

end Described

/-! ## Recognizers in use -/

inductive InUse : Recognizer → Prop where
  | fresh (moduleName className : Text) : InUse ⟨moduleName, className, .fresh⟩
  | again {recognizer : Recognizer} (h : InUse recognizer) (statements : List Node) :
    InUse (recognizer.recognize statements).1

/-- A recognizer that has scanned a body does not wait for a class. -/
theorem phase_scan_body (sides : Sides) (body : Node) (analysis : ClassAnalysis) :
    (scan [.enter [] body] (.between sides) analysis).1.phase ≠ .awaitingClass := by
  obtain ⟨state, hstate, hrun⟩ := scan_body (scansBodies body.size) analysis
  rw [hrun]
  rcases hstate with rfl | ⟨keyword, rfl⟩
  · exact Phase.noConfusion
  · exact Phase.noConfusion

/-- A recognizer that has found its class stays as it is and gives no further analysis. -/
theorem recognize_of_found {recognizer : Recognizer} (h : recognizer.state.phase ≠ .awaitingClass)
    (statements : List Node) :
    ∃ fault, recognizer.recognize statements = (recognizer, .error fault) := by
  unfold recognize
  cases findClass statements with
  | error cause => exact ⟨_, rfl⟩
  | ok shape =>
    dsimp only
    cases shape.superclass with
    | error fault => exact ⟨_, rfl⟩
    | ok superclass =>
      dsimp only
      rw [State.matchClass_of_ne h]
      exact ⟨_, rfl⟩

/-- A fresh recognizer finds its class or stays fresh. -/
theorem state_recognize_fresh (moduleName className : Text) (statements : List Node) :
    ((Recognizer.mk moduleName className .fresh).recognize statements).1.state = .fresh ∨
      ((Recognizer.mk moduleName className .fresh).recognize statements).1.state.phase ≠
        .awaitingClass := by
  unfold recognize
  cases findClass statements with
  | error cause => exact .inl rfl
  | ok shape =>
    dsimp only
    cases shape.superclass with
    | error fault => exact .inl rfl
    | ok superclass =>
      dsimp only
      rw [State.matchClass_fresh]
      cases shape.function.body? with
      | none => exact .inr Phase.noConfusion
      | some body => exact .inr (phase_scan_body _ body _)

/-- A recognizer in use is fresh, or it will refuse the next class. -/
theorem InUse.state {recognizer : Recognizer} (h : InUse recognizer) :
    recognizer.state = .fresh ∨ recognizer.state.phase ≠ .awaitingClass := by
  induction h with
  | fresh => exact .inl rfl
  | @again recognizer _ statements ih =>
    obtain ⟨moduleName, className, state⟩ := recognizer
    rcases ih with hfresh | hphase
    · obtain rfl : state = .fresh := hfresh
      exact state_recognize_fresh moduleName className statements
    · obtain ⟨fault, hrecognize⟩ := recognize_of_found hphase statements
      rw [hrecognize]
      exact .inr hphase

/-- The answer of a recognizer in use is the description of a class. -/
theorem InUse.exists_describe {recognizer : Recognizer} (h : InUse recognizer)
    {statements : List Node} {analysis : ClassAnalysis}
    (hok : (recognizer.recognize statements).2 = .ok analysis) :
    ∃ shape, findClass statements = .ok shape ∧
      describe recognizer.moduleName recognizer.className none shape = .ok analysis := by
  obtain ⟨moduleName, className, state⟩ := recognizer
  rcases h.state with hfresh | hphase
  · obtain rfl : state = .fresh := hfresh
    rw [snd_recognize_fresh] at hok
    cases hshape : findClass statements with
    | error cause =>
      rw [hshape] at hok
      cases hok
    | ok shape =>
      rw [hshape] at hok
      exact ⟨shape, rfl, hok⟩
  · obtain ⟨fault, hrecognize⟩ := recognize_of_found hphase statements
    rw [hrecognize] at hok
    cases hok

/-- The start and the sites of every class in an answer lie properly, and the outermost class has no
site. -/
theorem recognize_wellPlaced {recognizer : Recognizer} (hrecognizer : InUse recognizer)
    {statements : List Node} (horderly : ∀ statement ∈ statements, statement.isOrderly = true)
    {analysis : ClassAnalysis} (hok : (recognizer.recognize statements).2 = .ok analysis) :
    analysis.facts.site = none ∧ ∀ found, analysis.Contains found → found.WellPlaced := by
  obtain ⟨shape, hshape, hdescribed⟩ := hrecognizer.exists_describe hok
  obtain ⟨statement, rfl, hstatement⟩ := exists_of_findClass hshape
  have hfunction : shape.function.isOrderly = true :=
    (occurs_of_statementShape? hstatement).isOrderly (horderly statement List.mem_cons_self)
  constructor
  · exact site_of_describe hdescribed
  · intro found hfound
    obtain ⟨_, _, shape', hdescribed', hoccurs⟩ := describes_of_contains hdescribed hfound
    exact wellPlaced_of_describe (hoccurs.isOrderly hfunction) hdescribed'

/-- A class that declares in two literals and in a class nested between them, which declares twice. -/
def terracedClass : Node :=
  let source := "(function (I) {
    I.have({ a: 1, b: 2 });
    I.nest({ D: function (J) { J.know({ m() {} }); J.nest({ E: function () {} }); } });
    I.have({ b: 3 });
  })"
  ((JavaScript.Script.read source.toList).toOption.bind fun script ↦ script.statements.head?).getD
    default

set_option maxRecDepth 100000 in
/-- Entries of both literals and of the nested class are set apart at each level. -/
theorem recognize_terracedClass :
    ∃ recognizer, InUse recognizer ∧ terracedClass.isOrderly = true ∧
      ∃ analysis, (recognizer.recognize [terracedClass]).2 = .ok analysis ∧
        analysis.holders.length = 3 ∧ analysis.nested.map (·.2.holders.length) = [2] ∧
        analysis.facts.site = none ∧ ∀ found, analysis.Contains found → found.WellPlaced := by
  -- The recognizer has been used on a script without a class before.
  have huse : InUse ((Recognizer.mk "m" "C" .fresh).recognize []).1 := .again (.fresh "m" "C") []
  have hclass : terracedClass.isOrderly = true ∧
      (((Recognizer.mk "m" "C" .fresh).recognize []).1.recognize
        [terracedClass]).2.toOption.map (fun analysis ↦
          (analysis.holders.length, analysis.nested.map (·.2.holders.length))) = some (3, [2]) := by
    decide +kernel
  obtain ⟨horderly, hok⟩ := hclass
  obtain ⟨analysis, hanalysis, hcounts⟩ := exists_ok_of_toOption hok
  obtain ⟨hholders, hnested⟩ := Prod.mk.inj hcounts
  have hstatements : ∀ statement ∈ [terracedClass], statement.isOrderly = true := by
    intro statement hstatement
    rw [List.mem_singleton.1 hstatement]
    exact horderly
  exact ⟨_, huse, horderly, analysis, hanalysis, hholders, hnested,
    recognize_wellPlaced huse hstatements hanalysis⟩

end Recognizer

end ClassScript
