import ClassScript.Proofs.Options
import ClassScript.Proofs.Spans
import Mathlib.Data.List.Forall2

/-!
# Trees without some of their comments

Comments stand anywhere between the parts of nodes. A tree strips to another one if that is what is left
of it without some of its comments, at any depth. The spans of such a tree lie as properly as before,
and whatever is asked of its nodes has the same answer up to the comments below: each question passes
over the comments among the children, wherever they stand.
-/

namespace ClassScript

/-! ## Related lists -/

section Lists

variable {α β γ ε : Type} {R : α → β → Prop} {as : List α} {bs : List β}

theorem rel_head? (h : List.Forall₂ R as bs) : Option.Rel R as.head? bs.head? := by
  cases h with
  | nil => exact .none
  | cons hab _ => exact .some hab

theorem rel_getLast? (h : List.Forall₂ R as bs) : Option.Rel R as.getLast? bs.getLast? := by
  rw [← List.head?_reverse, ← List.head?_reverse]
  exact rel_head? (List.forall₂_reverse_iff.2 h)

theorem forall₂_dropWhile {p : α → Bool} {q : β → Bool} (h : List.Forall₂ R as bs)
    (hpq : ∀ a b, R a b → p a = q b) : List.Forall₂ R (as.dropWhile p) (bs.dropWhile q) := by
  induction h with
  | nil => exact .nil
  | @cons a b as bs hab hrest ih =>
    rw [List.dropWhile_cons, List.dropWhile_cons, hpq a b hab]
    cases q b with
    | true => exact ih
    | false => exact .cons hab hrest

theorem mapM_eq_of_forall₂ {f : α → Except ε γ} {g : β → Except ε γ} (h : List.Forall₂ R as bs)
    (hfg : ∀ a ∈ as, ∀ b, R a b → f a = g b) : as.mapM f = bs.mapM g := by
  induction h with
  | nil => rfl
  | @cons a b as bs hab hrest ih =>
    rw [List.mapM_cons, List.mapM_cons, hfg a List.mem_cons_self b hab,
      ih fun a' ha' ↦ hfg a' (List.mem_cons_of_mem _ ha')]

end Lists

namespace JavaScript.Node

/-! ## Trees without some of their comments -/

/-- A comment that plays no role in its parent. -/
structure IsAside (node : Node) : Prop where
  kind : node.kind = .comment
  role : node.role = none

/-- The second list of trees is the first one without some of the comments in it, at any depth. All
other nodes stay what they are, in the same order. -/
inductive StripsAmong : List Node → List Node → Prop where
  | nil : StripsAmong [] []
  | aside {comment : Node} {rest rest' : List Node} (haside : comment.IsAside)
    (hrest : StripsAmong rest rest') : StripsAmong (comment :: rest) rest'
  | kept {kind : Kind} {role : Option Role} {span : Span} {text : List Char}
    {children children' rest rest' : List Node} (hchildren : StripsAmong children children')
    (hrest : StripsAmong rest rest') :
    StripsAmong (mk kind role span text children :: rest) (mk kind role span text children' :: rest')

/-- The second node is the first one without some of the comments below it. -/
structure Strips (node node' : Node) : Prop where
  kind : node.kind = node'.kind
  role : node.role = node'.role
  span : node.span = node'.span
  text : node.text = node'.text
  children : StripsAmong node.children node'.children

namespace Strips

variable {node node' : Node}

theorem name (h : node.Strips node') : node.name = node'.name := by
  rw [Node.name, h.text, Node.name]

theorem start (h : node.Strips node') : node.start = node'.start := by
  rw [Node.start, h.span, Node.start]

theorem stop (h : node.Strips node') : node.stop = node'.stop := by
  rw [Node.stop, h.span, Node.stop]

end Strips

namespace StripsAmong

variable {nodes nodes' : List Node}

/-- Nothing is added when comments are stripped. -/
theorem exists_of_mem (h : StripsAmong nodes nodes') {node' : Node} (hmem : node' ∈ nodes') :
    ∃ node ∈ nodes, node.Strips node' := by
  induction h with
  | nil => cases hmem
  | aside _ _ ih =>
    obtain ⟨node, hnode, hstrips⟩ := ih hmem
    exact ⟨node, List.mem_cons_of_mem _ hnode, hstrips⟩
  | kept hchildren _ _ ih =>
    rcases List.mem_cons.1 hmem with rfl | hrest
    · exact ⟨_, List.mem_cons_self, rfl, rfl, rfl, rfl, hchildren⟩
    · obtain ⟨node, hnode, hstrips⟩ := ih hrest
      exact ⟨node, List.mem_cons_of_mem _ hnode, hstrips⟩

/-- Nodes that are asked for by something that comments do not have are the same ones. -/
theorem filter {f : Node → Bool} (h : StripsAmong nodes nodes')
    (haside : ∀ node : Node, node.IsAside → f node = false)
    (hf : ∀ node node' : Node, node.Strips node' → f node = f node') :
    List.Forall₂ Strips (nodes.filter f) (nodes'.filter f) := by
  induction h with
  | nil => exact .nil
  | aside hcomment _ ih =>
    rw [List.filter_cons_of_neg (by simp [haside _ hcomment])]
    exact ih
  | @kept kind role span text children children' rest rest' hchildren _ _ ih =>
    have hstrips : (mk kind role span text children).Strips (mk kind role span text children') :=
      ⟨rfl, rfl, rfl, rfl, hchildren⟩
    rw [List.filter_cons, List.filter_cons, hf _ _ hstrips]
    cases f (mk kind role span text children') with
    | true => exact .cons hstrips ih
    | false => exact ih

/-- Nodes of given kinds, none of which is that of comments, are the same ones. -/
theorem filter_kind {f : Kind → Bool} (h : StripsAmong nodes nodes') (hf : f .comment = false) :
    List.Forall₂ Strips (nodes.filter fun node ↦ f node.kind) (nodes'.filter fun node ↦ f node.kind) := by
  apply h.filter
  · intro comment haside
    rw [haside.kind, hf]
  · intro node node' hstrips
    rw [hstrips.kind]

/-- What is found in each node and in no comment is related if it is related for each node. -/
theorem flatMap {β : Type} {R : β → β → Prop} {f : Node → List β} (h : StripsAmong nodes nodes')
    (haside : ∀ node ∈ nodes, node.IsAside → f node = [])
    (hf : ∀ node ∈ nodes, ∀ node' : Node, node.Strips node' → List.Forall₂ R (f node) (f node')) :
    List.Forall₂ R (nodes.flatMap f) (nodes'.flatMap f) := by
  induction h with
  | nil => exact .nil
  | aside hcomment _ ih =>
    rw [List.flatMap_cons, haside _ List.mem_cons_self hcomment, List.nil_append]
    exact ih (fun node hnode ↦ haside node (List.mem_cons_of_mem _ hnode))
      fun node hnode ↦ hf node (List.mem_cons_of_mem _ hnode)
  | kept hchildren _ _ ih =>
    rw [List.flatMap_cons, List.flatMap_cons]
    apply List.rel_append
    · exact hf _ List.mem_cons_self _ ⟨rfl, rfl, rfl, rfl, hchildren⟩
    · exact ih (fun node hnode ↦ haside node (List.mem_cons_of_mem _ hnode))
        fun node hnode ↦ hf node (List.mem_cons_of_mem _ hnode)

end StripsAmong

mutual

def uncommented : Node → Node
  | mk kind role span text children => mk kind role span text (uncommentedAmong children)

def uncommentedAmong : List Node → List Node
  | [] => []
  | node :: rest =>
    if node.kind = .comment ∧ node.role = none then uncommentedAmong rest
    else uncommented node :: uncommentedAmong rest

end

/-- Comments without a role can all be stripped. -/
theorem strips_uncommented (node : Node) : node.Strips node.uncommented := by
  induction node using Node.induction with
  | step node ih =>
    obtain ⟨kind, role, span, text, children⟩ := node
    refine ⟨rfl, rfl, rfl, rfl, ?_⟩
    show StripsAmong children (uncommentedAmong children)
    replace ih : ∀ child ∈ children, child.Strips child.uncommented := ih
    induction children with
    | nil => exact .nil
    | cons child rest ihrest =>
      rw [uncommentedAmong]
      have hrest := ihrest fun other hother ↦ ih other (List.mem_cons_of_mem _ hother)
      split
      · next haside => exact .aside ⟨haside.1, haside.2⟩ hrest
      · have hchild := (ih child List.mem_cons_self).children
        obtain ⟨kind, role, span, text, children⟩ := child
        exact .kept hchild hrest

/-! ## Spans -/

theorem areOrderly_of_le {start start' stop : Position} {nodes : List Node} (hle : start' ≤ start)
    (h : areOrderly start stop nodes = true) : areOrderly start' stop nodes = true := by
  cases nodes with
  | nil =>
    rw [areOrderly, decide_eq_true_eq] at h ⊢
    exact hle.trans h
  | cons node rest =>
    simp only [areOrderly, Bool.and_eq_true, decide_eq_true_eq] at h ⊢
    exact ⟨⟨hle.trans h.1.1, h.1.2⟩, h.2⟩

/-- Spans that lie properly do so without some of the comments. -/
theorem StripsAmong.areOrderly {nodes nodes' : List Node} (h : StripsAmong nodes nodes')
    {start stop : Position} (horderly : areOrderly start stop nodes = true) :
    areOrderly start stop nodes' = true := by
  induction h generalizing start stop with
  | nil => exact horderly
  | aside _ _ ih =>
    simp only [Node.areOrderly, Bool.and_eq_true, decide_eq_true_eq] at horderly
    obtain ⟨⟨hstart, hcomment⟩, hrest⟩ := horderly
    -- The nodes after the comment start after its end, and so after the given start.
    exact areOrderly_of_le (hstart.trans (start_lt_stop hcomment).le) (ih hrest)
  | @kept kind role span text children children' rest rest' hchildren _ ihchildren ihrest =>
    simp only [Node.areOrderly, Bool.and_eq_true, decide_eq_true_eq] at horderly ⊢
    obtain ⟨⟨hstart, hnode⟩, hrest⟩ := horderly
    refine ⟨⟨hstart, ?_⟩, ihrest hrest⟩
    obtain ⟨hspan, hcomment, hbracket, hinner⟩ := (isOrderly_iff _).1 hnode
    refine (isOrderly_iff _).2 ⟨hspan, ?_, ?_, ihchildren hinner⟩
    · intro hkind
      obtain rfl : children = [] := hcomment hkind
      cases hchildren
      rfl
    · intro hkind child' hchild'
      obtain ⟨child, hchild, hstrips⟩ := hchildren.exists_of_mem hchild'
      rw [← hstrips.start]
      exact hbracket hkind child hchild

/-! ## What is asked of a node -/

theorem flatten_mapM_cons {α β ε : Type} (f : α → Except ε (List β)) (a : α) (rest : List α) :
    List.flatten <$> (a :: rest).mapM f = (do
      let first ← f a
      let others ← List.flatten <$> rest.mapM f
      return first ++ others) := by
  rw [List.mapM_cons]
  cases f a with
  | error fault => rfl
  | ok first =>
    cases rest.mapM f with
    | error fault => rfl
    | ok others => rfl

theorem stringValue_eq (node : Node) :
    node.stringValue = Text.joinPairs <$> List.flatten <$> node.children.mapM pieceValue := by
  rw [stringValue]
  cases node.children.mapM pieceValue with
  | error fault => rfl
  | ok pieces => rfl

/-- Comments between the pieces of a literal do not change its value. -/
theorem StripsAmong.flatten_mapM_pieceValue {nodes nodes' : List Node} (h : StripsAmong nodes nodes') :
    List.flatten <$> nodes.mapM pieceValue = List.flatten <$> nodes'.mapM pieceValue := by
  induction h with
  | nil => rfl
  | @aside comment rest rest' haside _ ih =>
    have hcomment : comment.pieceValue = .ok [] := by rw [pieceValue, haside.kind]
    rw [flatten_mapM_cons, hcomment, ih]
    cases rest'.mapM pieceValue with
    | error fault => rfl
    | ok pieces => rfl
  | kept _ _ _ ih =>
    rw [flatten_mapM_cons, flatten_mapM_cons, ih]
    rfl

theorem unwrapped?_eq (node : Node) :
    node.unwrapped? =
      if node.kind = .parenthesizedExpression then node.firstPart?.bind unwrapped? else some node := by
  rw [unwrapped?]
  split
  · cases node.firstPart? with
    | none => rfl
    | some inner => rfl
  · rfl

namespace Strips

variable {node node' : Node}

theorem rel_part? (h : node.Strips node') (role : Role) :
    Option.Rel Strips (node.part? role) (node'.part? role) := by
  rw [Node.part?, Node.part?, ← List.head?_filter, ← List.head?_filter]
  apply rel_head?
  apply h.children.filter
  · intro comment haside
    rw [haside.role]
    rfl
  · intro child child' hchild
    rw [hchild.role]

theorem parts (h : node.Strips node') : List.Forall₂ Strips node.parts node'.parts :=
  h.children.filter_kind (f := fun kind ↦ kind != .comment) rfl

theorem members (h : node.Strips node') : List.Forall₂ Strips node.members node'.members :=
  h.children.filter_kind
    (f := fun kind ↦ kind == .pair || kind == .methodDefinition || kind == .shorthandProperty) rfl

theorem rel_firstPart? (h : node.Strips node') :
    Option.Rel Strips node.firstPart? node'.firstPart? := by
  rw [Node.firstPart?, Node.firstPart?, ← List.head?_filter, ← List.head?_filter]
  exact rel_head? h.parts

theorem rel_unwrapped? (h : node.Strips node') : Option.Rel Strips node.unwrapped? node'.unwrapped? := by
  induction node using Node.induction generalizing node' with
  | step node ih =>
    rw [unwrapped?_eq, unwrapped?_eq, h.kind]
    split
    · apply rel_bind h.rel_firstPart?
      intro part hpart part' _ hstrips
      exact ih part (List.mem_of_find?_eq_some hpart) hstrips
    · exact .some h

theorem isDirective (h : node.Strips node') : node.isDirective = node'.isDirective := by
  have hfirst := h.rel_firstPart?
  rw [Node.isDirective, Node.isDirective, h.kind]
  generalize node.firstPart? = part?, node'.firstPart? = part'? at hfirst
  cases hfirst with
  | none => rfl
  | some hpart => rw [Option.any_some, Option.any_some, hpart.kind]

theorem rel_expression? (h : node.Strips node') :
    Option.Rel Strips node.expression? node'.expression? := by
  rw [Node.expression?, Node.expression?, h.kind]
  split
  · exact rel_bind h.rel_firstPart? fun _ _ _ _ hpart ↦ hpart.rel_unwrapped?
  · exact .none

theorem callArguments (h : node.Strips node') :
    List.Forall₂ Strips node.callArguments node'.callArguments := by
  have harguments := h.rel_part? .arguments
  rw [Node.callArguments, Node.callArguments]
  generalize node.part? .arguments = args?, node'.part? .arguments = args'? at harguments
  cases harguments with
  | none => exact .nil
  | some hargs =>
    dsimp only
    rw [hargs.kind]
    split
    · exact hargs.parts
    · exact .nil

theorem propertyName? (h : node.Strips node') : node.propertyName? = node'.propertyName? := by
  apply map_eq_of_rel (h.rel_part? .property)
  intro property property' hproperty
  rw [hproperty.text]

theorem functionParameters (h : node.Strips node') :
    List.Forall₂ Strips node.functionParameters node'.functionParameters := by
  have hsingle := h.rel_part? .parameter
  have hlist := h.rel_part? .parameters
  rw [Node.functionParameters, Node.functionParameters]
  generalize node.part? .parameter = single?, node'.part? .parameter = single'? at hsingle
  generalize node.part? .parameters = list?, node'.part? .parameters = list'? at hlist
  cases hsingle with
  | some hparameter => exact .cons hparameter .nil
  | none =>
    cases hlist with
    | none => exact .nil
    | some hparameters => exact hparameters.parts

theorem memberValue (h : node.Strips node') : node.memberValue.Strips node'.memberValue := by
  have hvalue := h.rel_part? .value
  rw [Node.memberValue, Node.memberValue, h.kind]
  generalize node.part? .value = value?, node'.part? .value = value'? at hvalue
  split
  · cases hvalue with
    | none => exact h
    | some hvalue => exact hvalue
  · exact h

/-- A comment adds nothing to a string in which it stands. -/
theorem stringValue (h : node.Strips node') : node.stringValue = node'.stringValue := by
  rw [stringValue_eq, stringValue_eq, h.children.flatten_mapM_pieceValue]

/-- Comments do not change the key of a member. -/
theorem key (h : node.Strips node') : node.key = node'.key := by
  rw [Node.key, Node.key, h.kind, h.name]
  split
  · rfl
  · have hkey := h.rel_part? (if node'.kind = .pair then .key else .name)
    generalize node.part? (if node'.kind = .pair then .key else .name) = key?,
      node'.part? (if node'.kind = .pair then .key else .name) = key'? at hkey
    cases hkey with
    | none => rfl
    | some hkey =>
      dsimp only
      rw [hkey.kind, hkey.name, hkey.stringValue]

end Strips

end JavaScript.Node

namespace JavaScript.Script

def stripped (script : Script) {root : Node} (h : script.root.Strips root) : Script where
  source := script.source
  root
  orderly := by
    rw [← h.start, ← h.stop]
    exact h.children.areOrderly script.orderly

/-- The statements of a script stay, in their order. -/
theorem forall₂_statements (script : Script) {root : Node} (h : script.root.Strips root) :
    List.Forall₂ Node.Strips script.statements (script.stripped h).statements := by
  apply forall₂_dropWhile
  · exact h.children.filter_kind (f := fun kind ↦ kind != .comment && kind != .hashBangLine) rfl
  · intro statement statement' hstatement
    exact hstatement.isDirective

end JavaScript.Script

end ClassScript
