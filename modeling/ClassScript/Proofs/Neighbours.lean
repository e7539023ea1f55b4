import ClassScript.Proofs.Gaps

/-!
# What stands between a remark and its entry

A remark may be attached to an entry although other members stand between the two: members that leave
no entry in the bucket. Such a member has no name of its own, or a later member of its name replaced
it, or it is a constant among methods or a method among constants, as one keyword files both. There
are no other reasons. In particular two entries that share a remark are a constant and a method that
members of one literal declare.
-/

namespace ClassScript

open JavaScript (Node Span)
open Recognizer

namespace Attachment

/-- A taken remark stands in the gap before its entry, and no entry lies across the rest of the gap. -/
theorem gap_of_taker {entries : List (Nat × Site)} (hproper : ∀ entry ∈ entries, entry.2.Proper)
    (hbefore : entries.Pairwise fun a b ↦ a.2.stop ≤ b.2.start) {remark : Remark} {index : Nat}
    (h : taker entries remark = some index) :
    ∃ site, (index, site) ∈ entries ∧ site.inside ≤ remark.start ∧ remark.start < site.start ∧
      ∀ other ∈ entries, other.2.stop ≤ remark.start ∨ site.start ≤ other.2.start := by
  induction entries with
  | nil => simp at h
  | cons first rest ih =>
    obtain ⟨firstIndex, first⟩ := first
    have hfirst : first.Proper := hproper _ List.mem_cons_self
    by_cases hreach : remark.start < first.reach
    · rw [taker_cons_of_lt rest hreach] at h
      split at h
      · next hgap =>
        cases h
        refine ⟨first, List.mem_cons_self, hgap.1, hgap.2, ?_⟩
        intro other hother
        rcases List.mem_cons.1 hother with rfl | hrest
        · exact .inr (le_refl _)
        · exact .inr (hfirst.start_lt.le.trans (List.rel_of_pairwise_cons hbefore hrest))
      · cases h
    · have hpassed := not_lt.1 hreach
      rw [taker_cons_of_le rest hpassed] at h
      obtain ⟨site, hsite, hinside, hstart, hothers⟩ :=
        ih (fun entry hentry ↦ hproper entry (List.mem_cons_of_mem _ hentry)) hbefore.of_cons h
      refine ⟨site, List.mem_cons_of_mem _ hsite, hinside, hstart, ?_⟩
      intro other hother
      rcases List.mem_cons.1 hother with rfl | hrest
      · rw [hfirst.reach_eq] at hpassed
        exact .inl hpassed
      · exact hothers other hrest

section Documented

variable {remarks : List Remark} {holders : List Holder}

theorem exists_of_mem_documented {holder : Holder} (h : holder ∈ documented remarks holders) :
    ∃ original ∈ holders, holder.name = original.name ∧ holder.site = original.site := by
  obtain ⟨index, hindex⟩ := List.mem_iff_getElem?.1 h
  obtain ⟨original, more, horiginal, _, rfl⟩ := List.getElem?_zipWith_eq_some.1 hindex
  exact ⟨original, List.mem_of_getElem? horiginal, rfl, rfl⟩

/-- The remarks of an entry after placing are those that its index takes. -/
theorem exists_index_of_mem_documented (hsorted : remarks.Pairwise (·.start ≤ ·.start))
    (hbare : ∀ holder ∈ holders, holder.remarks = []) {sites : List Site}
    (hsites : holders.map Holder.site = sites.map some) {holder : Holder}
    (h : holder ∈ documented remarks holders) :
    ∃ site index, (index, site) ∈ ordered (sites.map some) ∧ holder.site = some site ∧
      holder.remarks = remarks.filter fun remark ↦
        taker (ordered (sites.map some)) remark = some index := by
  have hmem := List.mem_map_of_mem (f := fun holder ↦ (holder.site, holder.remarks)) h
  rw [map_documented hsorted hbare hsites] at hmem
  obtain ⟨entry, hentry, heq⟩ := List.mem_map.1 hmem
  obtain ⟨hsite, hremarks⟩ := Prod.mk.inj heq
  exact ⟨entry.2, entry.1, (ordered_perm sites).mem_iff.2 hentry, hsite.symm, hremarks.symm⟩

theorem eq_of_mem_ordered {sites : List Site} {index : Nat} {a b : Site}
    (ha : (index, a) ∈ ordered (sites.map some)) (hb : (index, b) ∈ ordered (sites.map some)) :
    a = b := by
  obtain ⟨⟨_, _⟩, ha', heq⟩ := List.mem_map.1 ((ordered_perm sites).mem_iff.1 ha)
  cases heq
  obtain ⟨⟨_, _⟩, hb', heq⟩ := List.mem_map.1 ((ordered_perm sites).mem_iff.1 hb)
  cases heq
  have hget := List.mem_zipIdx_iff_getElem?.1 ha'
  rw [List.mem_zipIdx_iff_getElem?.1 hb'] at hget
  exact (Option.some.inj hget).symm

/-- A remark that an entry has got stands in the gap before it, and no entry of the bucket lies across
the rest of the gap. -/
theorem gap_of_mem_documented (hsorted : remarks.Pairwise (·.start ≤ ·.start))
    (h : Separated holders) {holder : Holder} (hholder : holder ∈ documented remarks holders)
    {remark : Remark} (hremark : remark ∈ holder.remarks) :
    remark ∈ remarks ∧ ∃ site, holder.site = some site ∧ site.inside ≤ remark.start ∧
      remark.start < site.start ∧
      ∀ other ∈ holders, ∀ t ∈ other.site, t.stop ≤ remark.start ∨ site.start ≤ t.start := by
  obtain ⟨sites, hsites, hproper, hapart⟩ := exists_sites_of_separated h
  obtain ⟨site, index, hindex, hsite, hremarks⟩ :=
    exists_index_of_mem_documented hsorted h.bare hsites hholder
  rw [hremarks] at hremark
  obtain ⟨hmem, htaker⟩ := List.mem_filter.1 hremark
  obtain ⟨found, hfound, hinside, hstart, hothers⟩ :=
    gap_of_taker (proper_of_mem_ordered hproper) (ordered_before hproper hapart)
      (of_decide_eq_true htaker)
  obtain rfl := eq_of_mem_ordered hindex hfound
  refine ⟨hmem, site, hsite, hinside, hstart, ?_⟩
  intro other hother t ht
  have hsome : some t ∈ sites.map some := by
    rw [← hsites, ← Option.mem_def.1 ht]
    exact List.mem_map_of_mem hother
  obtain ⟨t', ht', heq⟩ := List.mem_map.1 hsome
  cases heq
  obtain ⟨position, hposition⟩ := List.mem_iff_getElem?.1 ht'
  have hordered : (position, t) ∈ ordered (sites.map some) :=
    (ordered_perm sites).mem_iff.2
      (List.mem_map.2 ⟨(t, position), List.mem_zipIdx_iff_getElem?.2 hposition, rfl⟩)
  exact hothers _ hordered

/-- No two entries of a bucket get the same remark. -/
theorem pairwise_documented (hsorted : remarks.Pairwise (·.start ≤ ·.start)) (h : Separated holders) :
    (documented remarks holders).Pairwise fun a b ↦ ∀ remark ∈ a.remarks, remark ∉ b.remarks := by
  obtain ⟨sites, hsites, _, _⟩ := exists_sites_of_separated h
  have hmap : ((documented remarks holders).map fun holder ↦ (holder.site, holder.remarks)).Pairwise
      fun a b ↦ ∀ remark ∈ a.2, remark ∉ b.2 := by
    rw [map_documented hsorted h.bare hsites, List.pairwise_map, List.pairwise_map]
    have hindices : sites.zipIdx.Pairwise fun a b ↦ a.2 ≠ b.2 := by
      apply List.pairwise_map.1
      rw [List.zipIdx_map_snd]
      exact List.nodup_range'
    apply hindices.imp
    intro a b hne remark ha hb
    have htakenA := of_decide_eq_true (List.mem_filter.1 ha).2
    have htakenB := of_decide_eq_true (List.mem_filter.1 hb).2
    exact hne (Option.some.inj (htakenA.symm.trans htakenB))
  exact List.pairwise_map.1 hmap

/-- No entry gets a remark twice. -/
theorem nodup_of_mem_documented (hstrict : remarks.Pairwise (·.start < ·.start))
    (h : Separated holders) {holder : Holder} (hholder : holder ∈ documented remarks holders) :
    holder.remarks.Nodup := by
  obtain ⟨sites, hsites, _, _⟩ := exists_sites_of_separated h
  obtain ⟨_, _, _, _, hremarks⟩ := exists_index_of_mem_documented
    (hstrict.imp fun {_ _} hlt ↦ hlt.le) h.bare hsites hholder
  have hnodup : remarks.Nodup := hstrict.imp fun {_ _} hlt heq ↦ hlt.ne (congrArg Remark.start heq)
  rw [hremarks]
  exact hnodup.filter _

end Documented

end Attachment

namespace Recognizer

/-! ## Members of one literal -/

/-- The buckets of the constants and of the methods of one side. -/
def ConstantsAndMethods (a b : Option Aspect) : Prop :=
  ∃ side, (a = some (.fixed (.facet side .constants)) ∧ b = some (.fixed (.facet side .methods))) ∨
    (a = some (.fixed (.facet side .methods)) ∧ b = some (.fixed (.facet side .constants)))

/-- Whether the value of a member is null, which makes it a constant under the keyword for what is
known. -/
def isNull (member : Node) : Bool := member.memberValue.kind == .null

/-- Whether a value is null matters for `know` only. -/
theorem aspectOf_of_ne {keyword : Text} (h : keyword ≠ Text.ofString "know") (side : Side)
    (a b : Bool) : aspectOf keyword side a = aspectOf keyword side b := by
  unfold aspectOf
  rw [if_neg h, if_neg h]

theorem aspectOf_know (side : Side) (null : Bool) :
    aspectOf (Text.ofString "know") side null =
      .fixed (.facet side (if null then .constants else .methods)) := by
  unfold aspectOf
  rw [if_neg (by decide), if_neg (by decide), if_neg (by decide), if_pos rfl]

/-- Two members of one call are filed in one bucket, or one of them is a constant and the other one a
method. -/
theorem aspectOf?_eq_or (call : KeywordCall) (a b : Node) :
    aspectOf? call a = aspectOf? call b ∨
      (call.name = Text.ofString "know" ∧ isNull a ≠ isNull b ∧
        ConstantsAndMethods (aspectOf? call a) (aspectOf? call b)) := by
  by_cases hknow : call.name = Text.ofString "know"
  · have haspect : ∀ member : Node, aspectOf? call member =
        some (.fixed (.facet call.side (if isNull member then .constants else .methods))) := by
      intro member
      unfold aspectOf?
      rw [hknow, if_neg (by decide), if_neg (by decide), aspectOf_know]
      rfl
    rw [haspect, haspect]
    by_cases hnull : isNull a = isNull b
    · left
      rw [hnull]
    · refine .inr ⟨hknow, hnull, call.side, ?_⟩
      cases ha : isNull a with
      | true =>
        have hb : isNull b = false := by
          simpa [ha] using hnull
        simp [hb]
      | false =>
        have hb : isNull b = true := by
          simpa [ha] using hnull
        simp [hb]
  · left
    unfold aspectOf?
    rw [aspectOf_of_ne hknow call.side _ (b.memberValue.kind == .null)]

/-- Why a member leaves no entry in the bucket of another member of its literal. -/
inductive LeavesNoEntry (function : Node) (call : KeywordCall) (member other : Node) : Prop where
  /-- It has no name of its own. -/
  | unnamed (h : other.key = .ok .computed ∨ other.key = .ok .missing)
  /-- One is a constant and the other one a method. -/
  | elsewhere (hcall : call.name = Text.ofString "know") (h : isNull other ≠ isNull member)
  /-- A later member of the same name is filed in the bucket. -/
  | replaced {call' : KeywordCall} {later : Node} {name : Text}
    (hlater : (call', later) ∈ declaredMembers function) (hafter : other.stop ≤ later.start)
    (haspect : aspectOf? call' later = aspectOf? call other)
    (hname : other.key = .ok (.named name)) (hname' : later.key = .ok (.named name))

section Described

variable {moduleName className : Text} {site : Option Site} {shape : ClassShape}
  {analysis : ClassAnalysis}

/-- A declared member is held in a bucket unless it leaves no entry there. -/
theorem held_or_leavesNoEntry (hfunction : shape.function.isOrderly = true)
    (h : describe moduleName className site shape = .ok analysis) {call : KeywordCall}
    (member : Node) {other : Node} (hother : (call, other) ∈ declaredMembers shape.function) :
    LeavesNoEntry shape.function call member other ∨
      ∃ holder ∈ holdersOf (aspectOf? call member)
        ((additions moduleName className shape.function).map Prod.snd),
        holder.site = some (siteOf call other) := by
  obtain ⟨_, _, hall, _⟩ := describe_eq_ok h
  obtain ⟨added, hadded⟩ := hall _ hother
  cases added with
  | none => exact .inl (.unnamed (describeMember_eq_ok hadded))
  | some entry =>
    have hadds := adds_of_describeMember hadded
    rcases aspectOf?_eq_or call other member with hsame | ⟨hknow, hnull, _⟩
    · obtain ⟨before, after, hsplit⟩ :=
        List.append_of_mem (mem_additions.2 ⟨hother, hadded⟩)
      have haspect : entry.aspect? = aspectOf? call member := hadds.aspect.trans hsame
      rcases holder_mem_or_replaced haspect with hheld | ⟨later, hlater, haspect', hname⟩
      · right
        refine ⟨entry.holder, ?_, hadds.site⟩
        rw [hsplit, List.map_append, List.map_cons]
        exact hheld
      · left
        obtain ⟨⟨⟨call', later'⟩, laterEntry⟩, hmem, rfl⟩ := List.mem_map.1 hlater
        have hpairwise := pairwise_members_additions moduleName className hfunction
        rw [hsplit] at hpairwise
        have hafter := List.rel_of_pairwise_cons (List.pairwise_append.1 hpairwise).2.1 hmem
        have hlaterMem : ((call', later'), laterEntry) ∈
            additions moduleName className shape.function := by
          rw [hsplit]
          exact List.mem_append_right _ (List.mem_cons_of_mem _ hmem)
        obtain ⟨hdeclared, hdescribed⟩ := mem_additions.1 hlaterMem
        have hlaterAdds := adds_of_describeMember hdescribed
        refine .replaced hdeclared hafter ?_ hadds.key (hname ▸ hlaterAdds.key)
        rw [← hlaterAdds.aspect, haspect', hsame]
    · exact .inl (.elsewhere hknow hnull)

/-- Members of one literal that differ lie one before the other. -/
theorem before_or_before {function : Node} (hfunction : function.isOrderly = true)
    {call : KeywordCall} {a b : Node} (ha : (call, a) ∈ declaredMembers function)
    (hb : b ∈ call.literal.members) (hne : b ≠ a) : b.stop ≤ a.start ∨ a.stop ≤ b.start := by
  obtain ⟨hcall, ha⟩ := mem_membersOf.1 ha
  have hliteral := (occurs_of_mem_keywordCalls hcall).isOrderly hfunction
  have hmembers : call.literal.members.Pairwise fun a b ↦ a.span.Before b.span :=
    (JavaScript.Node.siblings_children hliteral).before.filter _
  exact Table.rel_or_rel_of_pairwise hmembers hb ha hne

/-- An entry was declared by a member, and its remarks stand in the literal of that member, before the
entry; any other member of the literal that lies across the rest of the way leaves no entry in the
bucket. -/
def PrecededByRemarks (function : Node) (aspect? : Option Aspect) (holder : Holder) : Prop :=
  ∃ call member, (call, member) ∈ declaredMembers function ∧ aspectOf? call member = aspect? ∧
    member.key = .ok (.named holder.name) ∧ holder.site = some (siteOf call member) ∧
    ∀ remark ∈ holder.remarks,
      call.literal.start ≤ remark.start ∧ remark.start < entryStart call member ∧
      ∀ other ∈ call.literal.members, other ≠ member →
        other.stop ≤ remark.start ∨ member.start ≤ other.start ∨
          LeavesNoEntry function call member other

/-- An entry of a described class has remarks that precede it in its literal, up to members that leave
no entry in its bucket. -/
theorem precededByRemarks (hfunction : shape.function.isOrderly = true)
    (h : describe moduleName className site shape = .ok analysis) {remarks : List Remark}
    (hsorted : remarks.Pairwise (·.start ≤ ·.start)) {aspect? : Option Aspect}
    {holders : List Holder} (hb : (aspect?, holders) ∈ analysis.buckets) {holder : Holder}
    (hholder : holder ∈ Attachment.documented remarks holders) :
    PrecededByRemarks shape.function aspect? holder := by
  have hseparated := separated_of_describe hfunction h hb
  obtain ⟨original, horiginal, hname, hsite⟩ := Attachment.exists_of_mem_documented hholder
  rw [holders_of_describe h hb] at horiginal
  obtain ⟨call, member, entry, hadded, haspect, rfl, hadds⟩ := exists_member_of_holder horiginal
  have hdeclared := (mem_additions.1 hadded).1
  refine ⟨call, member, hdeclared, haspect, hname ▸ hadds.key, hsite.trans hadds.site, ?_⟩
  intro remark hremark
  obtain ⟨_, found, hfound, hinside, hstart, hothers⟩ :=
    Attachment.gap_of_mem_documented hsorted hseparated hholder hremark
  rw [hsite.trans hadds.site] at hfound
  cases hfound
  refine ⟨hinside, hstart, ?_⟩
  intro other hother hne
  rcases before_or_before hfunction hdeclared hother hne with hbefore | hafter
  · -- the other member comes first: if it is held, it ends before the remark
    have hdeclared' : (call, other) ∈ declaredMembers shape.function :=
      mem_membersOf.2 ⟨(mem_membersOf.1 hdeclared).1, hother⟩
    rcases held_or_leavesNoEntry hfunction h member hdeclared' with hno | hheld
    · exact .inr (.inr hno)
    · obtain ⟨held, hheld, hheldSite⟩ := hheld
      rw [haspect, ← holders_of_describe h hb] at hheld
      rcases hothers held hheld _ hheldSite with hstop | hle
      · exact .inl hstop
      · have horderly := (occurs_of_mem_declaredMembers hdeclared').isOrderly hfunction
        have horderly' := (occurs_of_mem_declaredMembers hdeclared).isOrderly hfunction
        have hlt := (start_le_entryStart call horderly).2
        have hle' := (start_le_entryStart call horderly').1
        exact absurd (hlt.trans_le (hbefore.trans hle')) hle.not_gt
  · have horderly := (occurs_of_mem_declaredMembers hdeclared).isOrderly hfunction
    exact .inr (.inl ((JavaScript.Node.start_lt_stop horderly).le.trans hafter))

/-- Two entries that members of one literal declare, one as a constant and the other one as a method. -/
def DeclaredTogether (function : Node) (holder other : Holder) : Prop :=
  ∃ call a b, (call, a) ∈ declaredMembers function ∧ (call, b) ∈ declaredMembers function ∧
    call.name = Text.ofString "know" ∧ isNull a ≠ isNull b ∧
    a.key = .ok (.named holder.name) ∧ holder.site = some (siteOf call a) ∧
    b.key = .ok (.named other.name) ∧ other.site = some (siteOf call b)

/-- Two entries of a class are in one bucket, or one is a constant and the other one a method of the same
literal, or one ends before the literal of the other one starts. -/
theorem bucket_eq_or (hfunction : shape.function.isOrderly = true)
    (h : describe moduleName className site shape = .ok analysis) {a b : Option Aspect}
    {holders others : List Holder} (ha : (a, holders) ∈ analysis.buckets)
    (hb : (b, others) ∈ analysis.buckets) {holder other : Holder} (hholder : holder ∈ holders)
    (hother : other ∈ others) {s t : Site} (hs : holder.site = some s) (ht : other.site = some t) :
    a = b ∨ (ConstantsAndMethods a b ∧ DeclaredTogether shape.function holder other) ∨
      s.stop ≤ t.inside ∨ t.stop ≤ s.inside := by
  rw [holders_of_describe h ha] at hholder
  rw [holders_of_describe h hb] at hother
  obtain ⟨call, member, entry, hadded, rfl, rfl, hadds⟩ := exists_member_of_holder hholder
  obtain ⟨call', member', entry', hadded', rfl, rfl, hadds'⟩ := exists_member_of_holder hother
  cases hadds.site.symm.trans hs
  cases hadds'.site.symm.trans ht
  have hdeclared := (mem_additions.1 hadded).1
  have hdeclared' := (mem_additions.1 hadded').1
  have hcall := (mem_membersOf.1 hdeclared).1
  have hcall' := (mem_membersOf.1 hdeclared').1
  have hwithin := (occurs_in_literal hdeclared).within
    ((occurs_of_mem_keywordCalls hcall).isOrderly hfunction)
  have hwithin' := (occurs_in_literal hdeclared').within
    ((occurs_of_mem_keywordCalls hcall').isOrderly hfunction)
  by_cases hsame : call = call'
  · subst hsame
    rcases aspectOf?_eq_or call member member' with heq | ⟨hknow, hnull, hpair⟩
    · exact .inl heq
    · exact .inr (.inl ⟨hpair, call, member, member', hdeclared, hdeclared', hknow, hnull, hadds.key,
        hadds.site, hadds'.key, hadds'.site⟩)
  · rcases Table.rel_or_rel_of_pairwise (pairwise_keywordCalls hfunction) hcall hcall' hsame with
      hbefore | hafter
    · exact .inr (.inr (.inl (hwithin.2.trans hbefore)))
    · exact .inr (.inr (.inr (hwithin'.2.trans hafter)))

end Described

end Recognizer

end ClassScript
