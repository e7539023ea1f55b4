import ClassScript.Proofs.Description

/-!
# Scanning finds what the description says

The scan visits all nodes of a body with a list of visits and a state, and it scans the body of a nested
class on its own. It finds the outermost keyword calls and files their members from left to right:
while a keyword call is open, nothing but the direct members of its literal has an effect, and leaving
the call closes it. What a recognizer answers is therefore the description of the class.
-/

namespace ClassScript

theorem exists_ok_of_toOption {ε α β : Type} {result : Except ε α} {f : α → β} {value : β}
    (h : result.toOption.map f = some value) : ∃ a, result = .ok a ∧ f a = value := by
  cases result with
  | error fault => simp [Except.toOption] at h
  | ok a => exact ⟨a, rfl, Option.some.inj h⟩

namespace Recognizer

open JavaScript (Node)

/-! ## Runs of the scan -/

def State.between (sides : Sides) : State := ⟨.awaitingKeyword, sides, none⟩

def State.during (sides : Sides) (keyword : Keyword) : State := ⟨.keywordOpen, sides, some keyword⟩

theorem State.matchClass_fresh (sides : Sides) :
    State.fresh.matchClass sides = (.between sides, .ok ()) :=
  matchClass_of_phase (show fresh.phase = .awaitingClass from rfl) sides

/-- A run goes on as `next` says with the described analysis, or it ends with the described fault while a
keyword call is open. -/
def Proceeds (sides : Sides) (run : State × Except Fault ClassAnalysis)
    (described : Except Fault ClassAnalysis)
    (next : ClassAnalysis → State × Except Fault ClassAnalysis) : Prop :=
  match described with
  | .ok analysis => run = next analysis
  | .error fault => ∃ keyword, run = (.during sides keyword, .error fault)

/-- Runs that proceed as described one after the other proceed as described together. -/
theorem Proceeds.bind {sides : Sides} {run : State × Except Fault ClassAnalysis}
    {described : Except Fault ClassAnalysis} {f : ClassAnalysis → Except Fault ClassAnalysis}
    {next next' : ClassAnalysis → State × Except Fault ClassAnalysis}
    (h : Proceeds sides run described next)
    (hnext : ∀ analysis, Proceeds sides (next analysis) (f analysis) next') :
    Proceeds sides run (described >>= f) next' := by
  cases described with
  | error fault => exact h
  | ok analysis =>
    have hrun : run = next analysis := h
    rw [hrun]
    exact hnext analysis

section Steps

variable (sides : Sides) (keyword : Keyword) (path : Path) (node : Node) (rest : List Visit)
  (analysis : ClassAnalysis)

theorem scan_leave_between :
    scan (.leave path :: rest) (.between sides) analysis = scan rest (.between sides) analysis := by
  rw [scan]
  rfl

theorem scan_leave_during {keyword : Keyword} (h : keyword.call ≠ path) :
    scan (.leave path :: rest) (.during sides keyword) analysis =
      scan rest (.during sides keyword) analysis := by
  rw [scan]
  simp [State.close, State.during, h]

/-- Leaving its call closes a keyword. -/
theorem scan_leave_call :
    scan (.leave keyword.call :: rest) (.during sides keyword) analysis =
      scan rest (.between sides) analysis := by
  rw [scan]
  simp [State.close, State.during, State.between]

theorem scan_enter_none (h : keywordCall? sides path node = none) :
    scan (.enter path node :: rest) (.between sides) analysis =
      scan (Visit.below path node rest) (.between sides) analysis := by
  rw [scan]
  simp [State.between, h]

/-- Between calls, a keyword call opens its keyword. -/
theorem scan_enter_call {keyword : Keyword} (h : keywordCall? sides path node = some keyword) :
    scan (.enter path node :: rest) (.between sides) analysis =
      scan (Visit.below path node rest) (.during sides keyword) analysis := by
  rw [scan]
  simp [State.between, State.during, State.openKeyword, State.expect, h]

theorem scan_enter_during {keyword : Keyword}
    (h : ¬ (node.isMember ∧ path.tail = keyword.literal)) :
    scan (.enter path node :: rest) (.during sides keyword) analysis =
      scan (Visit.below path node rest) (.during sides keyword) analysis := by
  rw [scan]
  simp only [State.during, reduceCtorEq, if_false, if_neg h]

end Steps

/-! ## What has no effect while a keyword call is open -/

/-- Nodes at or below the path are neither the open call, nor around its literal, nor its members. -/
structure Inert (keyword : Keyword) (path : Path) : Prop where
  not_around : ¬ path <:+ keyword.literal
  not_member : path.tail ≠ keyword.literal
  not_call : ¬ path <:+ keyword.call

/-- What is below an inert place is inert. -/
theorem Inert.child {keyword : Keyword} {path : Path} (h : Inert keyword path) (index : Nat) :
    Inert keyword (index :: path) where
  not_around hsuffix := h.not_around ((List.suffix_cons index path).trans hsuffix)
  not_member heq := h.not_around (by rw [← heq]; exact List.suffix_refl _)
  not_call hsuffix := h.not_call ((List.suffix_cons index path).trans hsuffix)

/-- Visits to siblings that have no effect one by one have none together. -/
theorem scan_children_of_skip {state : State} {analysis : ClassAnalysis} (path : Path)
    (nodes : List Node) (index : Nat) (rest : List Visit)
    (h : ∀ i (hi : i < nodes.length) (rest : List Visit),
      scan (.enter ((index + i) :: path) nodes[i] :: rest) state analysis =
        scan rest state analysis) :
    scan (Visit.children path index nodes ++ rest) state analysis = scan rest state analysis := by
  induction nodes generalizing index with
  | nil => rfl
  | cons node nodes ih =>
    rw [Visit.children, List.cons_append]
    refine (h 0 (Nat.succ_pos _) _).trans (ih (index + 1) ?_)
    intro i hi rest
    rw [Nat.add_assoc, Nat.add_comm 1 i]
    exact h (i + 1) (Nat.succ_lt_succ hi) rest

/-- A tree at an inert place leaves the state and the analysis as they are. -/
theorem scan_inert {sides : Sides} {keyword : Keyword} {analysis : ClassAnalysis} (node : Node)
    (path : Path) (rest : List Visit) (h : Inert keyword path) :
    scan (.enter path node :: rest) (.during sides keyword) analysis =
      scan rest (.during sides keyword) analysis := by
  induction node using Node.induction generalizing path rest with
  | step node ih =>
    rw [scan_enter_during sides path node rest analysis fun hmember ↦ h.not_member hmember.2,
      Visit.below, scan_children_of_skip path node.children 0]
    · apply scan_leave_during
      intro heq
      exact h.not_call (heq ▸ List.suffix_refl _)
    · intro i hi rest
      exact ih _ (List.getElem_mem hi) _ rest (h.child _)

/-! ## Filing the members of the open call -/

structure Opens (keyword : Keyword) (call : KeywordCall) : Prop where
  inside : keyword.inside = call.literal.start
  side : keyword.side = call.side
  name : keyword.name = call.name

/-- The bodies of nested classes below a size are scanned as they are described. -/
def ScansBodies (size : Nat) : Prop :=
  ∀ body : Node, body.size < size → ∀ (sides : Sides) (analysis : ClassAnalysis),
    (scan [.enter [] body] (.between sides) analysis).2 =
      (membersOf (outermost sides body)).foldlM file analysis

/-- A class nested in another one is scanned as it is described. -/
theorem describe_eq_scan {moduleName className : Text} {site : Option Site} {shape : ClassShape}
    {superclass : Text} (hbodies : ScansBodies shape.function.size)
    (hsuper : shape.superclass = .ok superclass) :
    describe moduleName className site shape =
      match shape.function.body? with
      | none => .ok (opened moduleName className superclass site shape.function)
      | some body =>
        (scan [.enter [] body] (.between (bindSides shape.function.functionParameters))
          (opened moduleName className superclass site shape.function)).2 := by
  rw [describe_eq_foldlM, hsuper]
  show (declaredMembers shape.function).foldlM file _ = _
  unfold declaredMembers keywordCalls
  cases hbody : shape.function.body? with
  | none => rfl
  | some body => exact (hbodies body (size_body hbody) _ _).symm

/-- How a member is filed, told by the description. -/
theorem describeMember_eq_filing {keyword : Keyword} {call : KeywordCall}
    (hopens : Opens keyword call) (analysis : ClassAnalysis) (member : Node) :
    describeMember analysis.facts.moduleName analysis.facts.className call member =
      match filing keyword analysis member with
      | .skip => .ok none
      | .refuse fault => .error fault
      | .declare aspect name value =>
        .ok (some (.declaration aspect name { site := memberSite keyword member, value }))
      | .nest name =>
        match memberShape? member with
        | none =>
          .error (.failure ⟨.badScript, analysis.facts.moduleName, nestedName analysis name⟩)
        | some shape =>
          (describe analysis.facts.moduleName (nestedName analysis name)
            (some ⟨keyword.inside, shape.function.start, member.stop⟩) shape).map
            fun inner ↦ some (.nested name inner) := by
  rw [describeMember, filing, hopens.name, hopens.side]
  cases hkey : member.key with
  | error fault => rfl
  | ok key =>
    cases key with
    | computed => rfl
    | missing => rfl
    | named name =>
      by_cases hnest : call.name = Text.ofString "nest"
      · simp only [hnest, if_true, hopens.inside]
        cases memberShape? member with
        | none => rfl
        | some shape => rfl
      · by_cases ham : call.name = Text.ofString "am"
        · simp only [if_neg hnest, if_pos ham, memberSite, hopens.inside]
          cases member.memberValue.isBoolean with
          | true => rfl
          | false => rfl
        · simp only [if_neg hnest, if_neg ham, memberSite, hopens.inside]
          rfl

/-- A member is filed when it is entered; if it is a class, the class is scanned with a state of its
own. -/
theorem scan_enter_member {sides : Sides} {keyword : Keyword} {call : KeywordCall} {path : Path}
    {node : Node} (rest : List Visit) (analysis : ClassAnalysis) (hopens : Opens keyword call)
    (hmember : node.isMember) (hpath : path.tail = keyword.literal)
    (hbodies : ScansBodies node.size) :
    Proceeds sides (scan (.enter path node :: rest) (.during sides keyword) analysis)
      (file analysis (call, node))
      fun analysis ↦ scan (Visit.below path node rest) (.during sides keyword) analysis := by
  rw [scan]
  simp only [State.during, reduceCtorEq, if_false, if_pos (And.intro hmember hpath)]
  unfold file
  rw [describeMember_eq_filing hopens]
  cases filing keyword analysis node with
  | skip => rfl
  | refuse fault => exact ⟨keyword, rfl⟩
  | declare aspect name value => rfl
  | nest name =>
    cases hshape : memberShape? node with
    | none => exact ⟨keyword, rfl⟩
    | some shape =>
      have hinner : ScansBodies shape.function.size := fun body hbody ↦
        hbodies body (Nat.lt_of_lt_of_le hbody (size_memberShape hshape))
      dsimp only
      cases hsuper : shape.superclass with
      | error fault =>
        rw [describe_eq_foldlM, hsuper]
        exact ⟨keyword, rfl⟩
      | ok superclass =>
        rw [describe_eq_scan hinner hsuper]
        rw [State.matchClass_fresh]
        dsimp only
        cases hbody : shape.function.body? with
        | none => rfl
        | some body =>
          dsimp only
          cases (scan [.enter [] body] _ _).2 with
          | error fault => exact ⟨keyword, rfl⟩
          | ok inner => rfl

theorem inert_below_literal {keyword : Keyword} (hcall : keyword.call <:+ keyword.literal)
    (index index' : Nat) : Inert keyword (index' :: index :: keyword.literal) where
  not_around hsuffix := by
    have := hsuffix.length_le
    simp only [List.length_cons] at this
    omega
  not_member heq := by
    have := congrArg List.length heq
    simp at this
  not_call hsuffix := by
    have := hsuffix.length_le
    have := hcall.length_le
    simp only [List.length_cons] at *
    omega

theorem scan_below_literal {sides : Sides} {keyword : Keyword} (hcall : keyword.call <:+ keyword.literal)
    (index : Nat) (node : Node) (rest : List Visit) (analysis : ClassAnalysis) :
    scan (Visit.below (index :: keyword.literal) node rest) (.during sides keyword) analysis =
      scan rest (.during sides keyword) analysis := by
  rw [Visit.below, scan_children_of_skip]
  · apply scan_leave_during
    intro heq
    have := hcall.length_le
    rw [heq, List.length_cons] at this
    omega
  · intro i hi rest
    exact scan_inert _ _ rest (inert_below_literal hcall index _)

/-- Visits to the children of the open literal file its members from left to right. -/
theorem scan_literal {sides : Sides} {keyword : Keyword} {call : KeywordCall}
    (hopens : Opens keyword call) (hcall : keyword.call <:+ keyword.literal) (nodes : List Node)
    (hbodies : ∀ node ∈ nodes, ScansBodies node.size) (index : Nat) (rest : List Visit)
    (analysis : ClassAnalysis) :
    Proceeds sides
      (scan (Visit.children keyword.literal index nodes ++ rest) (.during sides keyword) analysis)
      (((nodes.filter Node.isMember).map (call, ·)).foldlM file analysis)
      fun analysis ↦ scan rest (.during sides keyword) analysis := by
  induction nodes generalizing index analysis with
  | nil => rfl
  | cons node nodes ih =>
    have hrest := ih fun other hother ↦ hbodies other (List.mem_cons_of_mem node hother)
    rw [Visit.children, List.cons_append]
    cases hmember : node.isMember with
    | true =>
      rw [List.filter_cons_of_pos hmember, List.map_cons, List.foldlM_cons]
      apply (scan_enter_member _ analysis hopens hmember rfl
        (hbodies node (List.mem_cons_self))).bind
      intro filed
      rw [scan_below_literal hcall]
      exact hrest (index + 1) filed
    | false =>
      rw [List.filter_cons_of_neg (by simp [hmember]), scan_enter_during, scan_below_literal hcall]
      · exact hrest (index + 1) analysis
      · simp [hmember]

/-! ## Finding keyword calls -/

theorem children_append (path : Path) (index : Nat) (a b : List Node) :
    Visit.children path index (a ++ b) =
      Visit.children path index a ++ Visit.children path (index + a.length) b := by
  induction a generalizing index with
  | nil => rfl
  | cons node rest ih =>
    rw [List.cons_append, Visit.children, Visit.children, ih, List.cons_append, List.length_cons,
      Nat.add_assoc, Nat.add_comm 1]

/-- The first element with a property stands at its index. -/
theorem exists_append_of_find? {nodes : List Node} {p : Node → Bool} {found : Node}
    (h : nodes.find? p = some found) :
    ∃ before after, nodes = before ++ found :: after ∧ nodes.findIdx p = before.length := by
  obtain ⟨hfound, before, after, rfl, hbefore⟩ := List.find?_eq_some_iff_append.1 h
  refine ⟨before, after, rfl, ?_⟩
  have hskip : before.findIdx p = before.length := by
    apply List.findIdx_eq_length.2
    intro node hnode
    simpa using hbefore node hnode
  rw [List.findIdx_append, hskip, if_neg (Nat.lt_irrefl _), List.findIdx_cons, hfound]
  simp

/-- What is kept in the state of a keyword call that a node at a path is. -/
def KeywordCall.keyword (path : Path) (node : Node) (call : KeywordCall) : Keyword where
  call := path
  literal := keywordCall?.literalPath path node
  inside := call.literal.start
  side := call.side
  name := call.name

/-- The scan finds a keyword where the description does. -/
theorem keywordCall?_eq (sides : Sides) (path : Path) (node : Node) :
    keywordCall? sides path node =
      (KeywordCall.ofNode? sides node).map (KeywordCall.keyword path node) := by
  unfold keywordCall? KeywordCall.ofNode?
  by_cases hkind : node.kind = .callExpression
  · rw [if_pos hkind]
    cases node.part? .callee with
    | none => simp
    | some callee =>
      cases node.callArguments with
      | nil => simp
      | cons literal others =>
        cases others with
        | cons _ _ => simp
        | nil =>
          cases htarget : callee.part? .target with
          | none => simp [htarget]
          | some target =>
            cases hname : callee.propertyName? with
            | none => simp [htarget, hname]
            | some name =>
              by_cases hcallee : callee.kind = .memberExpression
              · by_cases hidentifier : target.kind = .identifier
                · by_cases hobject : literal.kind = .object
                  · cases hside : Table.get? target.name sides with
                    | none => simp [htarget, hname, hside]
                    | some side =>
                      simp [guard, hkind, hcallee, htarget, hname, hidentifier, hobject, hside,
                        KeywordCall.keyword]
                  · simp [htarget, hname, hobject]
                · simp [guard, htarget, hname, hidentifier]
              · simp [guard, htarget, hname, hcallee]
  · simp [hkind]

/-- Where the literal of a keyword call stands in the call. -/
theorem exists_split_of_ofNode? {sides : Sides} {node : Node} {call : KeywordCall}
    (h : KeywordCall.ofNode? sides node = some call) (path : Path) :
    ∃ before args after before' after',
      node.children = before ++ args :: after ∧
      args.children = before' ++ call.literal :: after' ∧
      keywordCall?.literalPath path node = before'.length :: before.length :: path := by
  obtain ⟨_, hargs, _⟩ := ofNode?_eq_some h
  unfold Node.callArguments at hargs
  split at hargs
  · next args hpart =>
    split at hargs
    · have hliteral : args.children.find? (fun child ↦ child.kind != .comment) = some call.literal := by
        rw [← List.head?_filter]
        exact congrArg List.head? hargs
      obtain ⟨before, after, hsplit, hindex⟩ := exists_append_of_find? hpart
      obtain ⟨before', after', hsplit', hindex'⟩ := exists_append_of_find? hliteral
      refine ⟨before, args, after, before', after', hsplit, hsplit', ?_⟩
      unfold keywordCall?.literalPath
      rw [hpart, hindex]
      exact congrArg (· :: before.length :: path) hindex'
    · simp at hargs
  · simp at hargs

/-- A path that leaves the way from the open call to its literal leads to nothing of interest. -/
theorem inert_beside {keyword : Keyword} {above below : Path} {index index' : Nat}
    (hliteral : keyword.literal = below ++ index :: above) (hcall : keyword.call <:+ above)
    (hne : index' ≠ index) : Inert keyword (index' :: above) where
  not_around hsuffix := by
    rw [hliteral] at hsuffix
    have hbeside : index' :: above = index :: above :=
      (List.suffix_of_suffix_length_le hsuffix (List.suffix_append below (index :: above))
        (Nat.le_refl _)).eq_of_length rfl
    exact hne (List.cons.inj hbeside).1
  not_member heq := by
    have := congrArg List.length (heq.trans hliteral)
    simp only [List.tail_cons, List.length_append, List.length_cons] at this
    omega
  not_call hsuffix := by
    have := (hsuffix.trans hcall).length_le
    simp only [List.length_cons] at this
    omega

/-- The visits to the children of a node before and after one of them have no effect. -/
theorem scan_children_beside {sides : Sides} {keyword : Keyword} {above below : Path}
    {analysis : ClassAnalysis} {nodes : List Node} {first index : Nat}
    (hliteral : keyword.literal = below ++ index :: above) (hcall : keyword.call <:+ above)
    (houtside : index < first ∨ first + nodes.length ≤ index) (rest : List Visit) :
    scan (Visit.children above first nodes ++ rest) (.during sides keyword) analysis =
      scan rest (.during sides keyword) analysis := by
  apply scan_children_of_skip
  intro i hi rest
  apply scan_inert
  apply inert_beside hliteral hcall
  omega

/-- On the way from the open call to its literal, the nodes before the next one are passed. -/
theorem scan_below_split {sides : Sides} {keyword : Keyword} {above below : Path}
    {node child : Node} {before after : List Node}
    (hliteral : keyword.literal = below ++ before.length :: above) (hcall : keyword.call <:+ above)
    (hsplit : node.children = before ++ child :: after) (rest : List Visit)
    (analysis : ClassAnalysis) :
    scan (Visit.below above node rest) (.during sides keyword) analysis =
      scan (.enter (before.length :: above) child ::
        (Visit.children above (before.length + 1) after ++ .leave above :: rest))
        (.during sides keyword) analysis := by
  rw [Visit.below, hsplit, children_append, List.append_assoc,
    scan_children_beside hliteral hcall (.inr (Nat.le_of_eq (Nat.zero_add _))), Nat.zero_add]
  rfl

/-- While a keyword call is open its members are filed; leaving the call closes it. -/
theorem scan_below_call {sides : Sides} {call : KeywordCall} {node : Node}
    (hcall : KeywordCall.ofNode? sides node = some call) (hbodies : ScansBodies node.size)
    (path : Path) (rest : List Visit) (analysis : ClassAnalysis) :
    Proceeds sides
      (scan (Visit.below path node rest) (.during sides (call.keyword path node)) analysis)
      ((membersOf [call]).foldlM file analysis)
      fun analysis ↦ scan rest (.between sides) analysis := by
  obtain ⟨before, args, after, before', after', hsplit, hsplit', hpath⟩ :=
    exists_split_of_ofNode? hcall path
  generalize hkeyword : call.keyword path node = keyword
  have hopens : Opens keyword call := by
    rw [← hkeyword]
    exact ⟨rfl, rfl, rfl⟩
  have hliteral : keyword.literal = before'.length :: before.length :: path := by
    rw [← hkeyword, ← hpath]
    rfl
  obtain rfl : keyword.call = path := by
    rw [← hkeyword]
    rfl
  have houter : keyword.literal = [before'.length] ++ before.length :: keyword.call := hliteral
  have hinner : keyword.literal = [] ++ before'.length :: before.length :: keyword.call := hliteral
  have hargs : keyword.call <:+ before.length :: keyword.call := List.suffix_cons _ _
  have hsuffix : keyword.call <:+ keyword.literal := by
    rw [hliteral]
    exact hargs.trans (List.suffix_cons _ _)
  have hmembers : (membersOf [call]).foldlM file analysis =
      ((call.literal.children.filter Node.isMember).map (call, ·)).foldlM file analysis >>= pure := by
    rw [bind_pure]
    simp [membersOf, Node.members]
  have hlength : keyword.literal.length = keyword.call.length + 2 := congrArg List.length hliteral
  have hcallNe : keyword.call ≠ keyword.literal := fun heq ↦ by
    rw [← heq] at hlength
    omega
  have hargsNe : before.length :: keyword.call ≠ keyword.literal := fun heq ↦ by
    rw [← heq, List.length_cons] at hlength
    omega
  have hargsPassed : ¬ (args.isMember ∧ (before.length :: keyword.call).tail = keyword.literal) :=
    fun h ↦ hcallNe h.2
  have hliteralPassed : ¬ (call.literal.isMember ∧
      (before'.length :: before.length :: keyword.call).tail = keyword.literal) :=
    fun h ↦ hargsNe h.2
  rw [scan_below_split houter (List.suffix_refl _) hsplit,
    scan_enter_during _ _ _ _ _ hargsPassed, scan_below_split hinner hargs hsplit',
    scan_enter_during _ _ _ _ _ hliteralPassed, ← hliteral, Visit.below, hmembers]
  refine (scan_literal hopens hsuffix call.literal.children ?_ 0 _ analysis).bind ?_
  · intro member hmember body hbody
    apply hbodies body
    have := Node.size_lt_of_mem hmember
    have := size_literal hcall
    omega
  · intro filed
    show scan _ _ filed = scan rest _ filed
    rw [scan_leave_during _ _ _ _ hcallNe,
      scan_children_beside hinner hargs (.inl (Nat.lt_succ_self _)), scan_leave_during,
      scan_children_beside houter (List.suffix_refl _) (.inl (Nat.lt_succ_self _)), scan_leave_call]
    exact fun heq ↦ Nat.ne_of_lt (Nat.lt_succ_self _) (congrArg List.length heq)

theorem foldlM_membersOf_append (calls others : List KeywordCall) (analysis : ClassAnalysis) :
    (membersOf (calls ++ others)).foldlM file analysis =
      (membersOf calls).foldlM file analysis >>= fun filed ↦ (membersOf others).foldlM file filed := by
  rw [membersOf, List.flatMap_append, List.foldlM_append]
  rfl

/-- Between keyword calls, visiting a tree files the members of its outermost keyword calls. -/
theorem scan_between {sides : Sides} (node : Node) (hbodies : ScansBodies node.size) (path : Path)
    (rest : List Visit) (analysis : ClassAnalysis) :
    Proceeds sides (scan (.enter path node :: rest) (.between sides) analysis)
      ((membersOf (outermost sides node)).foldlM file analysis)
      fun analysis ↦ scan rest (.between sides) analysis := by
  induction node using Node.induction generalizing path rest analysis with
  | step node ih =>
    rw [outermost_eq]
    cases hcall : KeywordCall.ofNode? sides node with
    | some call =>
      have hkeyword := keywordCall?_eq sides path node
      rw [hcall, Option.map_some] at hkeyword
      rw [scan_enter_call _ _ _ _ _ hkeyword]
      exact scan_below_call hcall hbodies path rest analysis
    | none =>
      have hkeyword := keywordCall?_eq sides path node
      rw [hcall, Option.map_none] at hkeyword
      rw [scan_enter_none _ _ _ _ _ hkeyword, Visit.below]
      -- the children are visited one after the other, then the node is left
      have hchildren : ∀ (nodes : List Node), (∀ child ∈ nodes, child ∈ node.children) →
          ∀ (index : Nat) (rest : List Visit) (analysis : ClassAnalysis),
          Proceeds sides (scan (Visit.children path index nodes ++ rest) (.between sides) analysis)
            ((membersOf (nodes.flatMap (outermost sides))).foldlM file analysis)
            fun analysis ↦ scan rest (.between sides) analysis := by
        intro nodes hnodes
        induction nodes with
        | nil =>
          intro index rest analysis
          rfl
        | cons child nodes ihNodes =>
          intro index rest analysis
          have hchild := hnodes child List.mem_cons_self
          rw [List.flatMap_cons, foldlM_membersOf_append]
          apply (ih child hchild (fun body hbody ↦ hbodies body
            (Nat.lt_trans hbody (Node.size_lt_of_mem hchild))) _ _ _).bind
          intro filed
          exact ihNodes (fun other hother ↦ hnodes other (List.mem_cons_of_mem child hother)) _ _ _
      have hleave := hchildren node.children (fun _ h ↦ h) 0 (.leave path :: rest) analysis
      simp only [scan_leave_between] at hleave
      exact hleave

/-- A scanned body leaves the recognizer between keyword calls, or in the one with the fault. -/
theorem scan_body {sides : Sides} {body : Node} (hbodies : ScansBodies body.size)
    (analysis : ClassAnalysis) :
    ∃ state, (state = .between sides ∨ ∃ keyword, state = .during sides keyword) ∧
      scan [.enter [] body] (.between sides) analysis =
        (state, (membersOf (outermost sides body)).foldlM file analysis) := by
  have hrun : Proceeds sides _ _ _ := scan_between body hbodies [] [] analysis
  cases hdescribed : (membersOf (outermost sides body)).foldlM file analysis with
  | ok filed =>
    rw [hdescribed] at hrun
    have hrun : scan [.enter [] body] (.between sides) analysis =
        scan [] (.between sides) filed := hrun
    exact ⟨_, .inl rfl, by rw [hrun, scan]⟩
  | error fault =>
    rw [hdescribed] at hrun
    obtain ⟨keyword, hrun⟩ := hrun
    exact ⟨_, .inr ⟨keyword, rfl⟩, hrun⟩

/-- Bodies of any size are scanned as they are described. -/
theorem scansBodies (size : Nat) : ScansBodies size := by
  induction size using Nat.strongRecOn with
  | ind size ih =>
    intro body hbody sides analysis
    obtain ⟨state, _, hrun⟩ := scan_body (ih body.size hbody) analysis
    rw [hrun]

/-! ## Recognition -/

theorem exists_of_findClass {statements : List Node} {shape : ClassShape}
    (h : findClass statements = .ok shape) :
    ∃ statement, statements = [statement] ∧ statementShape? statement = some shape := by
  unfold findClass at h
  split at h
  · cases h
  · next statement =>
    split at h
    · next hshape =>
      cases h
      exact ⟨statement, rfl, hshape⟩
    · cases h
  · cases h

/-- What a fresh recognizer answers: the only statement of the script must be a class, and then it is
the description of the class. -/
theorem snd_recognize_fresh (moduleName className : Text) (statements : List Node) :
    ((Recognizer.mk moduleName className .fresh).recognize statements).2 = (do
      let shape ← (findClass statements).mapError fun cause ↦
        Fault.failure ⟨cause, moduleName, className⟩
      describe moduleName className none shape) := by
  unfold recognize
  cases findClass statements with
  | error cause => rfl
  | ok shape =>
    show _ = describe moduleName className none shape
    dsimp only
    cases hsuper : shape.superclass with
    | error fault =>
      rw [describe_eq_foldlM, hsuper]
      rfl
    | ok superclass =>
      rw [describe_eq_scan (scansBodies _) hsuper]
      rw [State.matchClass_fresh]
      cases shape.function.body? with
      | none => rfl
      | some body => rfl

/-- A fresh recognizer answers with the description of the class that the only statement is: its
analysis, or its first fault in document order. -/
theorem recognize_eq_describe (moduleName className : Text) {statement : Node} {shape : ClassShape}
    (h : statementShape? statement = some shape) :
    ((Recognizer.mk moduleName className .fresh).recognize [statement]).2 =
      describe moduleName className none shape := by
  have hfound : findClass [statement] = .ok shape := by
    simp only [findClass, h]
  rw [snd_recognize_fresh, hfound]
  rfl

/-- A class with a keyword call hidden in a method, a computed key and a name that is declared twice. -/
def entangledClass : Node :=
  let source := "(function (I) {
    if (I.have({ a: 1, [b]: 2 })) I.know({ m() { I.am({ h: 1 }); } });
    I.have({ c: 2, a: 3 });
  })"
  ((JavaScript.Script.read source.toList).toOption.bind fun script ↦ script.statements.head?).getD
    default

set_option maxRecDepth 100000 in
theorem recognize_entangledClass :
    ∃ shape, statementShape? entangledClass = some shape ∧
      ((Recognizer.mk "m" "C" .fresh).recognize [entangledClass]).2 = describe "m" "C" none shape ∧
      (describe "m" "C" none shape).toOption.isSome := by
  have hclass : (statementShape? entangledClass).isSome ∧
      ((Recognizer.mk "m" "C" .fresh).recognize [entangledClass]).2.toOption.isSome := by
    decide +kernel
  obtain ⟨shape, hshape⟩ := Option.isSome_iff_exists.1 hclass.1
  have hdescribed := recognize_eq_describe "m" "C" hshape
  exact ⟨shape, hshape, hdescribed, hdescribed ▸ hclass.2⟩

end Recognizer

end ClassScript
