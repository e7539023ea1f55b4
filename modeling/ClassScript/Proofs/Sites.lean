import ClassScript.Proofs.Buckets
import ClassScript.Proofs.Spans

/-!
# Sites of declared members

In an orderly tree the literals of the outermost keyword calls lie one before the other, and so do the
declared members of a class. Each member starts after the bracket that opens its literal. Hence the
sites in a bucket of a described class are proper and do not overlap, at any depth of nesting.
-/

namespace ClassScript

structure Site.Proper (site : Site) : Prop where
  inside_lt : site.inside < site.start
  start_lt : site.start < site.stop

def Site.Apart (a b : Site) : Prop := a.stop ≤ b.start ∨ b.stop ≤ a.start

/-- A site ends before another one starts, in the same literal or before the literal of the other one. -/
def Site.Precedes (a b : Site) : Prop :=
  a.stop ≤ b.start ∧ (a.inside = b.inside ∨ a.stop ≤ b.inside)

namespace Recognizer

open JavaScript (Node Span)
open JavaScript.Node (Occurs occurs_of_part? occurs_of_unwrapped? occurs_of_mem_callArguments
  occurs_memberValue start_lt_stop start_lt_of_bracketed siblings_children)

/-! ## Where classes and keyword calls occur -/

theorem occurs_of_classShape? {expression : Node} {shape : ClassShape}
    (h : classShape? expression = some shape) : Occurs shape.function expression := by
  unfold classShape? at h
  split at h
  · cases h
    exact .refl _
  · split at h
    · split at h
      · next script _ hlast =>
        split at h
        · split at h
          · cases h
            exact occurs_of_mem_callArguments (List.mem_of_getLast? hlast)
          · cases h
        · cases h
      · cases h
    · cases h

theorem occurs_of_memberShape? {member : Node} {shape : ClassShape}
    (h : memberShape? member = some shape) : Occurs shape.function member := by
  obtain ⟨value, hvalue, hshape⟩ := Option.bind_eq_some_iff.1 h
  exact (occurs_of_classShape? hshape).trans
    ((occurs_of_unwrapped? hvalue).trans (occurs_memberValue member))

theorem occurs_of_statementShape? {statement : Node} {shape : ClassShape}
    (h : statementShape? statement = some shape) : Occurs shape.function statement := by
  unfold statementShape? at h
  split at h
  · cases h
    exact .refl _
  · obtain ⟨expression, hexpression, hshape⟩ := Option.bind_eq_some_iff.1 h
    unfold Node.expression? at hexpression
    split at hexpression
    · obtain ⟨part, hpart, hunwrapped⟩ := Option.bind_eq_some_iff.1 hexpression
      exact (occurs_of_classShape? hshape).trans
        ((occurs_of_unwrapped? hunwrapped).trans (JavaScript.Node.occurs_of_firstPart? hpart))
    · cases hexpression

theorem exists_of_mem_outermost {sides : Sides} {call : KeywordCall} (node : Node)
    (h : call ∈ outermost sides node) :
    ∃ found, Occurs found node ∧ KeywordCall.ofNode? sides found = some call := by
  induction node using Node.induction with
  | step node ih =>
    rw [outermost_eq] at h
    split at h
    · next hfound =>
      rw [List.mem_singleton] at h
      subst h
      exact ⟨node, .refl _, hfound⟩
    · obtain ⟨child, hchild, hcall⟩ := List.mem_flatMap.1 h
      obtain ⟨found, hoccurs, hfound⟩ := ih child hchild hcall
      exact ⟨found, .child hchild hoccurs, hfound⟩

theorem occurs_literal {sides : Sides} {call : KeywordCall} {node : Node}
    (h : call ∈ outermost sides node) : Occurs call.literal node := by
  obtain ⟨found, hoccurs, hfound⟩ := exists_of_mem_outermost node h
  refine Occurs.trans (occurs_of_mem_callArguments ?_) hoccurs
  rw [(ofNode?_eq_some hfound).2.1]
  exact List.mem_singleton_self _

theorem kind_literal {sides : Sides} {call : KeywordCall} {node : Node}
    (h : call ∈ outermost sides node) : call.literal.kind = .object := by
  obtain ⟨found, _, hfound⟩ := exists_of_mem_outermost node h
  exact (ofNode?_eq_some hfound).2.2

/-- The literals of the outermost keyword calls lie one before the other. -/
theorem pairwise_outermost {sides : Sides} (node : Node) (h : node.isOrderly = true) :
    (outermost sides node).Pairwise fun a b ↦ a.literal.span.Before b.literal.span := by
  induction node using Node.induction with
  | step node ih =>
    rw [outermost_eq]
    split
    · exact List.pairwise_singleton _ _
    · have siblings := siblings_children h
      apply Span.pairwise_flatMap siblings.before
      · intro child hchild call hcall
        exact (occurs_literal hcall).within (siblings.orderly child hchild)
      · intro child hchild
        exact ih child hchild (siblings.orderly child hchild)

/-! ## Where declared members occur -/

section Members

variable {function : Node}

theorem exists_body_of_mem_keywordCalls {call : KeywordCall} (h : call ∈ keywordCalls function) :
    ∃ body, function.body? = some body ∧
      call ∈ outermost (bindSides function.functionParameters) body := by
  unfold keywordCalls at h
  split at h
  · next body hbody => exact ⟨body, hbody, h⟩
  · simp at h

theorem occurs_of_mem_keywordCalls {call : KeywordCall} (h : call ∈ keywordCalls function) :
    Occurs call.literal function := by
  obtain ⟨body, hbody, hcall⟩ := exists_body_of_mem_keywordCalls h
  exact (occurs_literal hcall).trans (occurs_of_part? hbody)

/-- The literals of the keyword calls lie one behind the other. -/
theorem pairwise_keywordCalls (h : function.isOrderly = true) :
    (keywordCalls function).Pairwise fun a b ↦ a.literal.span.Before b.literal.span := by
  unfold keywordCalls
  split
  · next body hbody => exact pairwise_outermost body ((occurs_of_part? hbody).isOrderly h)
  · exact List.Pairwise.nil

theorem occurs_in_literal {call : KeywordCall} {member : Node}
    (h : (call, member) ∈ declaredMembers function) : Occurs member call.literal :=
  .of_mem (List.mem_filter.1 (mem_membersOf.1 h).2).1

theorem occurs_of_mem_declaredMembers {call : KeywordCall} {member : Node}
    (h : (call, member) ∈ declaredMembers function) : Occurs member function :=
  (occurs_in_literal h).trans (occurs_of_mem_keywordCalls (mem_membersOf.1 h).1)

/-- A member starts after the bracket that opens its literal. -/
theorem literal_start_lt {call : KeywordCall} {member : Node} (hfunction : function.isOrderly = true)
    (h : (call, member) ∈ declaredMembers function) : call.literal.start < member.start := by
  obtain ⟨hcall, hmember⟩ := mem_membersOf.1 h
  obtain ⟨body, _, hbody⟩ := exists_body_of_mem_keywordCalls hcall
  have hliteral := (occurs_of_mem_keywordCalls hcall).isOrderly hfunction
  apply start_lt_of_bracketed hliteral _ (List.mem_filter.1 hmember).1
  rw [kind_literal hbody]
  rfl

/-- Declared members lie one before the other. -/
theorem pairwise_declaredMembers (h : function.isOrderly = true) :
    (declaredMembers function).Pairwise fun a b ↦ a.2.span.Before b.2.span := by
  apply Span.pairwise_flatMap (pairwise_keywordCalls h)
  · intro call hcall declared hdeclared
    obtain ⟨member, hmember, rfl⟩ := List.mem_map.1 hdeclared
    have hliteral := (occurs_of_mem_keywordCalls hcall).isOrderly h
    exact (siblings_children hliteral).within member (List.mem_filter.1 hmember).1
  · intro call hcall
    have hliteral := (occurs_of_mem_keywordCalls hcall).isOrderly h
    rw [List.pairwise_map]
    exact (siblings_children hliteral).before.filter _

/-- Declared members stand in one literal, or the first of them ends before the literal of the other
one. -/
theorem pairwise_literals_declaredMembers (h : function.isOrderly = true) :
    (declaredMembers function).Pairwise fun a b ↦
      a.1.literal.start = b.1.literal.start ∨ a.2.stop ≤ b.1.literal.start := by
  refine List.pairwise_flatMap.2 ⟨?_, ?_⟩
  · intro call _
    rw [List.pairwise_map]
    exact List.pairwise_of_forall fun _ _ ↦ .inl rfl
  · apply (pairwise_keywordCalls h).imp_of_mem
    intro a b ha _ hab x hx y hy
    obtain ⟨member, hmember, rfl⟩ := List.mem_map.1 hx
    obtain ⟨other, _, rfl⟩ := List.mem_map.1 hy
    have hliteral := (occurs_of_mem_keywordCalls ha).isOrderly h
    have hwithin := (siblings_children hliteral).within member (List.mem_filter.1 hmember).1
    exact .inr (hwithin.2.trans hab)

/-- What a member declares starts in the member. -/
theorem start_le_entryStart (call : KeywordCall) {member : Node} (h : member.isOrderly = true) :
    member.start ≤ entryStart call member ∧ entryStart call member < member.stop := by
  unfold entryStart
  split
  · cases hshape : memberShape? member with
    | none => exact ⟨le_refl _, start_lt_stop h⟩
    | some shape =>
      have hoccurs := occurs_of_memberShape? hshape
      have hwithin := hoccurs.within h
      exact ⟨hwithin.1, (start_lt_stop (hoccurs.isOrderly h)).trans_le hwithin.2⟩
  · exact ⟨le_refl _, start_lt_stop h⟩

/-- A nested class starts with its function. -/
theorem entryStart_of_nested {call : KeywordCall} {member : Node} {shape : ClassShape}
    (haspect : aspectOf? call member = none) (hshape : memberShape? member = some shape) :
    entryStart call member = shape.function.start := by
  rw [entryStart, if_pos (nest_of_aspectOf? haspect), hshape]
  rfl

/-- A member starts behind the start of its literal, and it is not empty. -/
theorem proper_siteOf {call : KeywordCall} {member : Node} (hfunction : function.isOrderly = true)
    (h : (call, member) ∈ declaredMembers function) : (siteOf call member).Proper := by
  have hmember := (occurs_of_mem_declaredMembers h).isOrderly hfunction
  have hstart := start_le_entryStart call hmember
  exact ⟨(literal_start_lt hfunction h).trans_le hstart.1, hstart.2⟩

end Members

/-! ## Sites in the buckets of described classes -/

/-- Entries without remarks whose sites are proper and do not overlap. -/
structure Separated (holders : List Holder) : Prop where
  bare : ∀ holder ∈ holders, holder.remarks = []
  proper : ∀ holder ∈ holders, ∃ site, holder.site = some site ∧ site.Proper
  apart : holders.Pairwise fun a b ↦ ∀ s ∈ a.site, ∀ t ∈ b.site, s.Apart t

theorem Separated.proper_of_mem {holders : List Holder} (h : Separated holders) {holder : Holder}
    (hholder : holder ∈ holders) {site : Site} (hsite : holder.site = some site) : site.Proper := by
  obtain ⟨found, hfound, hproper⟩ := h.proper holder hholder
  rw [hsite] at hfound
  cases hfound
  exact hproper

section Described

variable {moduleName className : Text} {site : Option Site} {shape : ClassShape}
  {analysis : ClassAnalysis}

/-- A bucket of a described class holds the latest entry of each name that was added to it. -/
theorem holders_of_describe (h : describe moduleName className site shape = .ok analysis)
    {aspect? : Option Aspect} {holders : List Holder} (hb : (aspect?, holders) ∈ analysis.buckets) :
    holders = holdersOf aspect? ((additions moduleName className shape.function).map Prod.snd) := by
  obtain ⟨superclass, _, _, rfl⟩ := describe_eq_ok h
  exact holders_of_mem_buckets hb

/-- Each entry of a bucket was added by a declared member that is filed there. -/
theorem exists_member_of_holder {aspect? : Option Aspect} {holder : Holder} {function : Node}
    (h : holder ∈ holdersOf aspect? ((additions moduleName className function).map Prod.snd)) :
    ∃ call member entry, ((call, member), entry) ∈ additions moduleName className function ∧
      aspectOf? call member = aspect? ∧ holder = entry.holder ∧ Adds call member entry := by
  obtain ⟨entry, hentry, haspect, rfl⟩ := mem_holdersOf h
  obtain ⟨⟨⟨call, member⟩, entry⟩, hadded, rfl⟩ := List.mem_map.1 hentry
  have hadds := adds_of_describeMember (mem_additions.1 hadded).2
  exact ⟨call, member, entry, hadded, hadds.aspect ▸ haspect, rfl, hadds⟩

theorem pairwise_additions_of {R : KeywordCall × Node → KeywordCall × Node → Prop} {function : Node}
    (h : (declaredMembers function).Pairwise R) :
    (additions moduleName className function).Pairwise fun a b ↦ R a.1 b.1 := by
  unfold additions
  rw [List.pairwise_filterMap]
  apply h.imp
  intro a b hab a' ha' b' hb'
  split at ha'
  · split at hb'
    · cases ha'
      cases hb'
      exact hab
    · cases hb'
  · cases ha'

/-- Entries are added in document order. -/
theorem pairwise_members_additions (moduleName className : Text) {function : Node}
    (h : function.isOrderly = true) :
    (additions moduleName className function).Pairwise fun a b ↦ a.1.2.span.Before b.1.2.span :=
  pairwise_additions_of (pairwise_declaredMembers h)

/-- Entries are added at sites that precede one another. -/
theorem pairwise_additions (moduleName className : Text) {function : Node}
    (h : function.isOrderly = true) :
    (additions moduleName className function).Pairwise fun a b ↦
      ∀ s ∈ a.2.site?, ∀ t ∈ b.2.site?, s.Precedes t := by
  have hmembers := (pairwise_declaredMembers h).and (pairwise_literals_declaredMembers h)
  apply (pairwise_additions_of hmembers).imp_of_mem
  intro a b ha hb hab s hs t ht
  obtain ⟨_, haddsA⟩ := mem_additions.1 ha
  obtain ⟨hdeclared, haddsB⟩ := mem_additions.1 hb
  rw [(adds_of_describeMember haddsA).site] at hs
  rw [(adds_of_describeMember haddsB).site] at ht
  cases hs
  cases ht
  have horderly := (occurs_of_mem_declaredMembers hdeclared).isOrderly h
  exact ⟨hab.1.trans (start_le_entryStart b.1.1 horderly).1, hab.2⟩

/-- The buckets of a described class have different aspects. -/
theorem pairwise_buckets (h : describe moduleName className site shape = .ok analysis) :
    analysis.buckets.Pairwise fun a b ↦ a.1 ≠ b.1 := by
  obtain ⟨superclass, _, _, rfl⟩ := describe_eq_ok h
  unfold ClassAnalysis.buckets
  rw [List.pairwise_append]
  refine ⟨?_, List.pairwise_singleton _ _, ?_⟩
  · rw [List.pairwise_map]
    have hkeys := List.pairwise_map.1 (Table.nodup_keys_grouped
      (((additions moduleName className shape.function).map Prod.snd).filterMap Entry.declaration?))
    exact hkeys.imp fun {_ _} hne heq ↦ hne (Option.some.inj heq)
  · intro a ha b hb
    obtain ⟨entry, _, rfl⟩ := List.mem_map.1 ha
    rw [List.mem_singleton.1 hb]
    exact Option.some_ne_none _

/-- Of any two sites in a described class one precedes the other, whatever their buckets. -/
theorem pairwise_holders (hfunction : shape.function.isOrderly = true)
    (h : describe moduleName className site shape = .ok analysis) :
    analysis.holders.Pairwise fun a b ↦
      ∀ s ∈ a.site, ∀ t ∈ b.site, s.Precedes t ∨ t.Precedes s := by
  have hadditions := pairwise_additions moduleName className hfunction
  refine List.pairwise_flatMap.2 ⟨?_, ?_⟩
  · -- Within a bucket the entries have different names.
    rintro ⟨aspect?, holders⟩ hbucket
    have hadded : ((((additions moduleName className shape.function).map Prod.snd).filter
        (·.aspect? = aspect?)).map fun entry ↦ (entry.name, entry.holder)).Pairwise
        fun a b ↦ ∀ s ∈ a.2.site, ∀ t ∈ b.2.site, s.Precedes t := by
      rw [List.pairwise_map]
      apply List.Pairwise.filter
      rw [List.pairwise_map]
      exact hadditions
    dsimp only
    rw [holders_of_describe h hbucket, holdersOf, List.pairwise_map]
    apply (Table.pairwise_latest hadded).imp
    intro a b hab s hs t ht
    exact hab.imp (fun hab ↦ hab s hs t ht) fun hba ↦ hba t ht s hs
  · -- Entries of different buckets were added by different members.
    apply (pairwise_buckets h).imp_of_mem
    rintro ⟨aspect, holders⟩ ⟨aspect', holders'⟩ hbucket hbucket' hne a ha b hb s hs t ht
    dsimp only at hne ha hb
    rw [holders_of_describe h hbucket] at ha
    rw [holders_of_describe h hbucket'] at hb
    obtain ⟨call, member, entry, hentry, haspect, rfl, _⟩ := exists_member_of_holder ha
    obtain ⟨call', member', entry', hentry', haspect', rfl, _⟩ := exists_member_of_holder hb
    have hdifferent : ((call, member), entry) ≠ ((call', member'), entry') := by
      intro heq
      cases heq
      exact hne (haspect.symm.trans haspect')
    rcases Table.rel_or_rel_of_pairwise hadditions hentry hentry' hdifferent with hab | hba
    · exact .inl (hab s hs t ht)
    · exact .inr (hba t ht s hs)

/-- The entries of a bucket have sites that lie apart. -/
theorem separated_of_describe (hfunction : shape.function.isOrderly = true)
    (h : describe moduleName className site shape = .ok analysis)
    {aspect? : Option Aspect} {holders : List Holder} (hb : (aspect?, holders) ∈ analysis.buckets) :
    Separated holders := by
  have hholders := holders_of_describe h hb
  constructor
  · intro holder hholder
    rw [hholders] at hholder
    obtain ⟨call, member, entry, _, _, rfl, hadds⟩ := exists_member_of_holder hholder
    exact hadds.bare
  · intro holder hholder
    rw [hholders] at hholder
    obtain ⟨call, member, entry, hadded, _, rfl, hadds⟩ := exists_member_of_holder hholder
    exact ⟨_, hadds.site, proper_siteOf hfunction (mem_additions.1 hadded).1⟩
  · apply ((pairwise_holders hfunction h).sublist (ClassAnalysis.sublist_holders hb)).imp
    intro a b hab s hs t ht
    exact (hab s hs t ht).imp And.left And.left

/-- A nested class is the description of the class that a declared member is. -/
theorem exists_of_mem_nested (h : describe moduleName className site shape = .ok analysis)
    {name : Text} {inner : ClassAnalysis} (hinner : (name, inner) ∈ analysis.nested) :
    ∃ call member shape', (call, member) ∈ declaredMembers shape.function ∧
      aspectOf? call member = none ∧ memberShape? member = some shape' ∧
      describe moduleName (innerName className name) (some (siteOf call member)) shape' =
        .ok inner := by
  obtain ⟨superclass, _, _, rfl⟩ := describe_eq_ok h
  obtain ⟨entry, hentry, hnested⟩ := List.mem_filterMap.1 (Table.mem_of_mem_latest hinner)
  obtain ⟨⟨⟨call, member⟩, entry⟩, hadded, rfl⟩ := List.mem_map.1 hentry
  cases entry with
  | declaration aspect name declared => cases hnested
  | nested name inner =>
    cases hnested
    obtain ⟨hdeclared, hdescribed⟩ := mem_additions.1 hadded
    obtain ⟨_, haspect, shape', hshape', hinner'⟩ := describeMember_eq_ok hdescribed
    exact ⟨call, member, shape', hdeclared, haspect, hshape', hinner'⟩

/-- Every class found in the description of a class is the description of a class whose function
occurs in it. -/
theorem describes_of_contains (h : describe moduleName className site shape = .ok analysis)
    {found : ClassAnalysis} (hfound : analysis.Contains found) :
    ∃ className' site' shape', describe moduleName className' site' shape' = .ok found ∧
      Occurs shape'.function shape.function := by
  induction hfound generalizing className site shape with
  | self analysis => exact ⟨className, site, shape, h, .refl _⟩
  | nested hinner _ ih =>
    obtain ⟨call, member, shape', hdeclared, _, hshape', hinner'⟩ := exists_of_mem_nested h hinner
    obtain ⟨className'', site'', shape'', hdescribed, hoccurs⟩ := ih hinner'
    exact ⟨className'', site'', shape'', hdescribed,
      hoccurs.trans ((occurs_of_memberShape? hshape').trans
        (occurs_of_mem_declaredMembers hdeclared))⟩

end Described

end Recognizer

end ClassScript
