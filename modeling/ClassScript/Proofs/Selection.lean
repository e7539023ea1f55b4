import ClassScript.Proofs.Components
import ClassScript.Proofs.Matching
import ClassScript.Selector
import Mathlib.Data.List.TakeWhile

/-!
# Which paths are selected, and as which classes

A path is selected if the pattern of the home matches it and no excluding pattern does. What the
pattern matches is said here in terms of the path alone: `Included`. The names of the module and of
the class are then cut out of the path by the lengths of the home and of the extension, whatever
stands there. So an identity lies at its path by the convention just when the home and the extension
stand where they are cut off, which is sure only for homes without pattern characters and paths that
end in the extension.
-/

namespace ClassScript

open ClassScript.Path (slash lineFeed)

namespace Identity

/-- A path is the name of the module, a slash, a front, the name of the class with slashes for dots,
and a back. The name of the module has a dot after its first character. -/
structure IsCut (identity : Identity) (front back path : Text) : Prop where
  noSlash : slash ∉ identity.moduleName
  hasDot : CodePoint.ofChar '.' ∈ identity.moduleName
  noDotFirst : identity.moduleName.head? ≠ some (CodePoint.ofChar '.')
  spelled : ∃ classPath : Text, classPath ≠ [] ∧
    path = identity.moduleName ++ slash :: (front ++ classPath ++ back) ∧
    identity.className = classPath.map fun c ↦ if c = slash then CodePoint.ofChar '.' else c

/-- The convention: the script of a class lies in the home below its module and has the extension. -/
def LiesAt (identity : Identity) (home path : Text) : Prop :=
  identity.IsCut (home ++ [slash]) Selector.extension path

/-- The names are cut out where a home and an extension of the given lengths leave them. -/
def IsCutFrom (identity : Identity) (home path : Text) : Prop :=
  ∃ front back : Text, front.length = home.length + 1 ∧ back.length = Selector.extension.length ∧
    identity.IsCut front back path

end Identity

/-! ## Names cut out of a path -/

theorem takeWhile_append_slash {s : Text} (h : slash ∉ s) (t : Text) :
    (s ++ slash :: t).takeWhile (· != slash) = s := by
  rw [List.takeWhile_append_of_pos (Path.forall_bne_iff.2 h)]
  simp

theorem dropWhile_append_slash {s : Text} (h : slash ∉ s) (t : Text) :
    (s ++ slash :: t).dropWhile (· != slash) = slash :: t := by
  rw [List.dropWhile_append_of_pos (Path.forall_bne_iff.2 h)]
  simp

/-- A path has one first component. -/
theorem append_slash_inj {s s' t t' : Text} (h : slash ∉ s) (h' : slash ∉ s')
    (heq : s ++ slash :: t = s' ++ slash :: t') : s = s' ∧ t = t' := by
  have hs : s = s' := by rw [← takeWhile_append_slash h t, heq, takeWhile_append_slash h']
  subst hs
  exact ⟨rfl, by simpa using heq⟩

/-- What is left of a text after a front and a back are cut off stands between them. -/
theorem exists_append_of_cut {k e : Nat} {t middle : Text}
    (h : (t.take (t.length - e)).drop k = middle) (hne : middle ≠ []) :
    ∃ front back, front.length = k ∧ back.length = e ∧ t = front ++ middle ++ back := by
  have hlt : k < t.length - e := by
    by_contra hle
    refine hne (h ▸ List.drop_eq_nil_iff.2 ?_)
    rw [List.length_take]
    omega
  refine ⟨(t.take (t.length - e)).take k, t.drop (t.length - e), ?_, ?_, ?_⟩
  · rw [List.length_take, List.length_take]
    omega
  · rw [List.length_drop]
    omega
  · rw [← h, List.take_append_drop, List.take_append_drop]

theorem cut_append (front middle back : Text) :
    ((front ++ middle ++ back).take ((front ++ middle ++ back).length - back.length)).drop
      front.length = middle := by
  rw [List.length_append, Nat.add_sub_cancel, List.take_left, List.drop_left]

namespace Selector

/-- A path has an identity just when module and class can be cut from it. -/
theorem identityOf?_eq_some_iff {home path : Text} {identity : Identity} :
    identityOf? home.length path = some identity ↔ identity.IsCutFrom home path := by
  constructor
  · intro h
    unfold identityOf? at h
    dsimp only at h
    by_cases hmem : slash ∈ path
    · obtain ⟨moduleName, rest, rfl, hslash⟩ := List.eq_append_cons_of_mem hmem
      rw [takeWhile_append_slash hslash, dropWhile_append_slash hslash, List.drop_one,
        List.tail_cons] at h
      split at h
      · cases h
      · next hmodule =>
        split at h
        · cases h
        · next hclass =>
          obtain ⟨hfirst, hdot⟩ := not_or.1 hmodule
          obtain ⟨front, back, hfront, hback, hrest⟩ :=
            exists_append_of_cut rfl fun hnil ↦ hclass (List.isEmpty_iff.2 hnil)
          cases h
          refine ⟨front, back, hfront, hback, hslash, not_not.1 hdot, hfirst, _, ?_, ?_, rfl⟩
          · exact fun hnil ↦ hclass (List.isEmpty_iff.2 hnil)
          · rw [← hrest]
    · have hnone : path.dropWhile (· != slash) = [] :=
        List.dropWhile_eq_nil_iff.2 (Path.forall_bne_iff.2 hmem)
      simp [hnone] at h
  · rintro ⟨front, back, hfront, hback, hslash, hdot, hfirst, classPath, hne, rfl, hname⟩
    unfold identityOf?
    dsimp only
    rw [takeWhile_append_slash hslash, dropWhile_append_slash hslash, List.drop_one, List.tail_cons,
      ← hfront, ← hback, cut_append, if_neg (not_or.2 ⟨hfirst, not_not.2 hdot⟩),
      if_neg (by simpa using hne), ← hname]

/-! ## The pattern of a home -/

def pieces (home : Text) : List Text := ["*.*", home, Path.doubleStar, Path.star ++ extension]

def moduleSegment : Path.Segment := .glob [.many, .literal (CodePoint.ofChar '.'), .many]

def scriptSegment : Path.Segment := .glob (.many :: extension.map .literal)

/-- The segments below that of the module. A home `**` is one with the `**` after it. -/
def segmentsBelow (home : Path.Segment) : List Path.Segment :=
  if home = .deep then [.deep, scriptSegment] else [home, .deep, scriptSegment]

def homePattern (home : Path.Segment) : Path.Pattern where
  negated := false
  directory := false
  segments := moduleSegment :: segmentsBelow home

theorem includePattern_eq_join (home : Text) :
    includePattern home = Text.join [slash] (pieces home) := by
  have hfirst : Text.ofString "*.*/" = Text.ofString "*.*" ++ [slash] := by decide
  have hlast : Text.ofString "/**/*" = slash :: (Path.doubleStar ++ slash :: Path.star) := by decide
  rw [includePattern, hfirst, hlast]
  simp [pieces, Text.join]

/-- A home without slashes is one component of its pattern. -/
theorem splitAt_includePattern {home : Text} (h : slash ∉ home) :
    Text.splitAt slash (includePattern home) = pieces home := by
  rw [includePattern_eq_join]
  refine Text.splitAt_join (List.cons_ne_nil _ _) ?_
  simp only [pieces, List.forall_mem_cons]
  exact ⟨by decide, h, by decide, by decide, List.forall_mem_nil _⟩

theorem trimmed_includePattern (home : Text) :
    Path.Pattern.trimmed (includePattern home) = includePattern home := by
  have hlast : includePattern home =
      Text.ofString "*.*/" ++ home ++ Text.ofString "/**/*.j" ++ [CodePoint.ofChar 's'] := by
    simp only [includePattern, List.append_assoc]
    rfl
  have hblank : ¬(Text.ofString "\\ ").isSuffixOf (includePattern home) = true := by
    rw [List.isSuffixOf_iff_suffix, hlast]
    rintro ⟨t, ht⟩
    have hends : Text.ofString "\\ " = [CodePoint.ofChar '\\'] ++ [CodePoint.ofChar ' '] := by decide
    rw [hends, ← List.append_assoc] at ht
    exact absurd (List.append_inj' ht rfl).2 (by decide)
  rw [Path.Pattern.trimmed, if_neg hblank, Text.trimRight, hlast, List.reverse_concat,
    List.dropWhile_cons_of_neg (by decide), ← List.reverse_concat, List.reverse_reverse]

theorem mapM_segment_pieces (home : Text) :
    (Path.Pattern.collapse (pieces home)).mapM Path.segment =
      (Path.segment home).map fun home ↦ moduleSegment :: segmentsBelow home := by
  have hmodule : Path.segment "*.*" = .ok moduleSegment := by cbv
  have hscript : Path.segment (Path.star ++ extension) = .ok scriptSegment := by cbv
  have hdeep : Path.segment Path.doubleStar = .ok .deep := rfl
  by_cases hhome : home = Path.doubleStar
  · subst hhome
    cbv
  · have hcollapse : Path.Pattern.collapse (pieces home) = pieces home := by
      simp only [pieces, Path.Pattern.collapse, hhome, false_and, and_false, if_false]
      rfl
    rw [hcollapse]
    cases hsegment : Path.segment home with
    | error fault =>
      simp only [pieces, List.mapM_cons, hmodule, hsegment]
      rfl
    | ok segment =>
      have hne : segment ≠ .deep := by
        rintro rfl
        exact hhome (Path.segment_eq_deep_iff.1 hsegment)
      simp only [pieces, List.mapM_cons, List.mapM_nil, hmodule, hsegment, hdeep, hscript]
      simp only [Except.map, segmentsBelow, if_neg hne]
      rfl

theorem anchor_pieces (home : Text) : Path.Pattern.anchor (pieces home) = pieces home := by
  have hfirst : Text.ofString "*.*" = CodePoint.ofChar '*' :: Text.ofString ".*" := by decide
  rw [pieces, hfirst]
  cases home <;> rfl

/-- Only the home can bring a reversed range into its pattern. -/
theorem findSome?_reversed (home : Path.Segment) :
    (moduleSegment :: segmentsBelow home).findSome? Path.Segment.reversed? = home.reversed? := by
  have hmodule : moduleSegment.reversed? = none := rfl
  have hscript : scriptSegment.reversed? = none := rfl
  have hdeep : Path.Segment.deep.reversed? = none := rfl
  by_cases hhome : home = .deep
  · rw [segmentsBelow, if_pos hhome, hhome]
    simp [hmodule, hscript, hdeep]
  · rw [segmentsBelow, if_neg hhome]
    cases hreversed : home.reversed? with
    | none => simp [hmodule, hscript, hdeep, hreversed]
    | some range => simp [hmodule, hreversed]

/-- The pattern of a home means nothing if the home has an unclosed set in it, and makes no sense just
when the home makes none. -/
theorem read_includePattern {home : Text} (hhome : slash ∉ home) :
    Path.Pattern.read (includePattern home) =
      match Path.segment home with
      | .ok segment =>
        match segment.reversed? with
        | some (first, last) => .error (.reversedRange first last)
        | none => .ok (some (homePattern segment))
      | .error .unclosedSet => .ok none
      | .error .danglingEscape => .error (.meaningless (includePattern home)) := by
  have hsplit : Text.splitAt (CodePoint.ofChar '/') (includePattern home) = pieces home :=
    splitAt_includePattern hhome
  have hmeans : ((includePattern home).isEmpty ||
      (includePattern home).head? == some (CodePoint.ofChar '#') ||
      includePattern home == Text.ofString "/") = false := rfl
  have hnegated : ((includePattern home).head? == some (CodePoint.ofChar '!')) = false := rfl
  have hclosed : Path.Pattern.closeDirectory (pieces home) = pieces home := rfl
  have hdirectory : ((pieces home).getLast? == some []) = false := rfl
  unfold Path.Pattern.read
  rw [trimmed_includePattern]
  simp only [hmeans, hnegated, Bool.false_eq_true, if_false, hsplit, anchor_pieces, hdirectory]
  split
  · next hnil => exact absurd hnil (List.cons_ne_nil _ _)
  · rw [hclosed, mapM_segment_pieces home]
    cases Path.segment home with
    | error fault => cases fault <;> rfl
    | ok segment =>
      dsimp only [Except.map]
      rw [findSome?_reversed]
      rfl

/-- The pattern of a home is read if the home is a segment without reversed ranges; with a set that is
never closed it is left out, and nothing is included. -/
theorem readPatterns_includePattern_eq_ok_iff {home : Text} (hhome : slash ∉ home)
    {included : List Path.Pattern} :
    Path.readPatterns [includePattern home] = .ok included ↔
      (∃ segment, Path.segment home = .ok segment ∧ segment.reversed? = none ∧
        included = [homePattern segment]) ∨
        Path.segment home = .error .unclosedSet ∧ included = [] := by
  rw [Path.readPatterns, List.mapM_cons, List.mapM_nil, read_includePattern hhome]
  cases Path.segment home with
  | ok segment =>
    dsimp only
    cases hranges : segment.reversed? with
    | some range => simp [hranges, bind, Except.bind]
    | none => simp [hranges, bind, Except.bind, pure, Except.pure, eq_comm]
  | error fault =>
    cases fault with
    | unclosedSet => simp [bind, Except.bind, pure, Except.pure, eq_comm]
    | danglingEscape => simp [bind, Except.bind]

/-! ## What the pattern of a home matches -/

/-- What follows the home on the path of a script: directories, if there are any, and a name with the
extension. The path may go on, if what has the extension is a directory or a line feed follows. -/
def LeadsToScript (t : Text) : Prop :=
  ∃ directories name rest : Text, t = slash :: (directories ++ (name ++ rest)) ∧
    (directories = [] ∨ ∃ s, s ≠ [] ∧ lineFeed ∉ s ∧ directories = s ++ [slash]) ∧
    slash ∉ name ∧ extension <:+ name ∧ (rest = [] ∨ rest = [lineFeed] ∨ rest.head? = some slash)

/-- The paths below a home: a component with a dot in it, a name that the home stands for as a
pattern, and the way to a script. -/
inductive Included (home : Text) : Text → Prop where
  | named {moduleName name t : Text} {segment : Path.Segment} (hslash : slash ∉ moduleName)
    (hdot : CodePoint.ofChar '.' ∈ moduleName) (hsegment : Path.segment home = .ok segment)
    (hname : segment.Takes name) (ht : LeadsToScript t) :
    Included home (moduleName ++ slash :: (name ++ t))
  | anywhere {moduleName t : Text} (hslash : slash ∉ moduleName)
    (hdot : CodePoint.ofChar '.' ∈ moduleName) (hhome : home = Path.doubleStar)
    (ht : LeadsToScript t) : Included home (moduleName ++ t)

theorem takes_moduleSegment {s : Text} :
    moduleSegment.Takes s ↔ slash ∉ s ∧ CodePoint.ofChar '.' ∈ s := by
  simp only [moduleSegment, Path.Segment.Takes, Path.Takes, Path.Item.Takes]
  constructor
  · rintro ⟨a, _, rfl, ha, _, _, rfl, rfl, b, _, rfl, hb, rfl⟩
    have hne : slash ≠ CodePoint.ofChar '.' := by decide
    simp [ha, hb, hne]
  · rintro ⟨hslash, hdot⟩
    obtain ⟨a, b, rfl⟩ := List.append_of_mem hdot
    refine ⟨a, _, rfl, fun h ↦ hslash (List.mem_append_left _ h), _, b, rfl, rfl, b, [], ?_, ?_, rfl⟩
    · rw [List.append_nil]
    · exact fun h ↦ hslash (List.mem_append_right _ (List.mem_cons_of_mem _ h))

theorem takes_scriptSegment {s : Text} : scriptSegment.Takes s ↔ slash ∉ s ∧ extension <:+ s := by
  simp only [scriptSegment, Path.Segment.Takes, Path.Takes, Path.takes_map_literal, Path.Item.Takes]
  constructor
  · rintro ⟨a, _, rfl, ha, rfl⟩
    have hextension : slash ∉ extension := by decide
    exact ⟨by simp [ha, hextension], List.suffix_append a extension⟩
  · rintro ⟨hslash, a, rfl⟩
    exact ⟨a, _, rfl, fun h ↦ hslash (List.mem_append_left _ h), rfl⟩

/-- Two stars and a script name match what leads down to a script. -/
theorem leadsToScript_iff {t : Text} : Path.Continues [.deep, scriptSegment] t ↔ LeadsToScript t := by
  have hscript : scriptSegment ≠ .deep := by decide
  simp only [Path.continues_deep_cons_iff (List.cons_ne_nil _ _), Path.continues_cons_iff hscript,
    takes_scriptSegment, Path.continues_nil_iff]
  constructor
  · rintro (⟨name, rest, rfl, ⟨hslash, hname⟩, hrest⟩ |
      ⟨s, _, rfl, hne, hs, name, rest, rfl, ⟨hslash, hname⟩, hrest⟩)
    · exact ⟨[], name, rest, rfl, .inl rfl, hslash, hname, hrest⟩
    · refine ⟨s ++ [slash], name, rest, ?_, .inr ⟨s, hne, hs, rfl⟩, hslash, hname, hrest⟩
      rw [List.append_assoc, List.singleton_append]
  · rintro ⟨_, name, rest, rfl, rfl | ⟨s, hne, hs, rfl⟩, hslash, hname, hrest⟩
    · exact .inl ⟨name, rest, rfl, ⟨hslash, hname⟩, hrest⟩
    · refine .inr ⟨s, _, ?_, hne, hs, name, rest, rfl, ⟨hslash, hname⟩, hrest⟩
      rw [List.append_assoc, List.singleton_append]

/-- The pattern of a home matches the paths below the home. -/
theorem isMatch_included_iff {home : Text} (hhome : slash ∉ home) {included : List Path.Pattern}
    (hread : Path.readPatterns [includePattern home] = .ok included) {path : Text} :
    Path.isMatch included path = true ↔ Included home (Path.relative path) := by
  rcases (readPatterns_includePattern_eq_ok_iff hhome).1 hread with
    ⟨segment, hsegment, -, rfl⟩ | ⟨hfault, rfl⟩
  · rw [Path.isMatch_singleton rfl, Path.Pattern.isSome_strength?_iff rfl (by decide)]
    generalize Path.relative path = t
    constructor
    · rintro ⟨moduleName, u, rfl, hmodule, hu⟩
      obtain ⟨hslash, hdot⟩ := takes_moduleSegment.1 hmodule
      by_cases hdeep : segment = .deep
      · rw [segmentsBelow, if_pos hdeep] at hu
        exact .anywhere hslash hdot (Path.segment_eq_deep_iff.1 (hdeep ▸ hsegment))
          (leadsToScript_iff.1 hu)
      · rw [segmentsBelow, if_neg hdeep, Path.continues_cons_iff hdeep] at hu
        obtain ⟨name, t, rfl, hname, ht⟩ := hu
        exact .named hslash hdot hsegment hname (leadsToScript_iff.1 ht)
    · intro h
      cases h with
      | @named moduleName name t found hslash hdot hfound hname ht =>
        obtain rfl : segment = found := Except.ok.inj (hsegment.symm.trans hfound)
        -- A home that takes a name is not `**`, so the two `**` are not collapsed.
        have hdeep : segment ≠ .deep := by
          rintro rfl
          exact hname.elim
        refine ⟨moduleName, _, rfl, takes_moduleSegment.2 ⟨hslash, hdot⟩, ?_⟩
        rw [segmentsBelow, if_neg hdeep]
        exact .named hname (leadsToScript_iff.2 ht)
      | @anywhere moduleName t hslash hdot hhome ht =>
        obtain rfl : segment = .deep :=
          Except.ok.inj (hsegment.symm.trans (Path.segment_eq_deep_iff.2 hhome))
        exact ⟨moduleName, t, rfl, takes_moduleSegment.2 ⟨hslash, hdot⟩, leadsToScript_iff.2 ht⟩
  · refine iff_of_false Bool.false_ne_true fun h ↦ ?_
    generalize Path.relative path = t at h
    cases h with
    | named hslash hdot hfound hname ht =>
      rw [hfault] at hfound
      cases hfound
    | anywhere hslash hdot hhome ht =>
      rw [Path.segment_eq_deep_iff.2 hhome] at hfault
      cases hfault

end Selector

/-! ## The identity of a selected path -/

theorem Path.relative_cons {c : CodePoint} (hslash : c ≠ slash) (hdot : c ≠ CodePoint.ofChar '.')
    (t : Text) : relative (c :: t) = c :: t := by
  cases t with
  | nil => rw [relative, if_neg hslash]
  | cons d rest => rw [relative, if_neg hslash, if_neg fun h ↦ hdot h.1]

namespace Identity

variable {identity : Identity} {home path : Text}

/-- A path that identities are cut from is matched as it is, since its module does not start with a
dot. -/
theorem IsCutFrom.relative_eq (h : identity.IsCutFrom home path) : Path.relative path = path := by
  obtain ⟨front, back, -, -, hslash, hdot, hfirst, classPath, -, rfl, -⟩ := h
  obtain ⟨c, rest, hmodule⟩ := List.exists_cons_of_ne_nil (List.ne_nil_of_mem hdot)
  rw [hmodule] at hslash hfirst ⊢
  refine Path.relative_cons ?_ ?_ _
  · rintro rfl
    exact hslash List.mem_cons_self
  · rintro rfl
    exact hfirst rfl

theorem LiesAt.isCutFrom (h : identity.LiesAt home path) : identity.IsCutFrom home path :=
  ⟨home ++ [slash], Selector.extension, List.length_append, rfl, h⟩

/-- The names that are cut out are those of the convention just when the home and the extension are
what is cut off. -/
theorem IsCutFrom.liesAt_iff (h : identity.IsCutFrom home path) :
    identity.LiesAt home path ↔
      identity.moduleName ++ slash :: (home ++ [slash]) <+: path ∧ Selector.extension <:+ path := by
  constructor
  · intro hlies
    obtain ⟨classPath, -, rfl, -⟩ := hlies.spelled
    constructor
    · exact ⟨classPath ++ Selector.extension, by simp⟩
    · exact ⟨identity.moduleName ++ slash :: (home ++ [slash] ++ classPath), by simp⟩
  · rintro ⟨⟨t, ht⟩, s, hs⟩
    obtain ⟨front, back, hfront, hback, hslash, hdot, hfirst, classPath, hne, rfl, hname⟩ := h
    have hhome : home ++ [slash] = front := by
      have hrest : home ++ [slash] ++ t = front ++ (classPath ++ back) := by simpa using ht
      refine (List.append_inj hrest ?_).1
      rw [hfront, List.length_append, List.length_singleton]
    have hextension : Selector.extension = back := by
      have hends : s ++ Selector.extension =
          identity.moduleName ++ slash :: (front ++ classPath) ++ back := by simpa using hs
      exact (List.append_inj' hends hback.symm).2
    subst hhome hextension
    exact ⟨hslash, hdot, hfirst, classPath, hne, rfl, hname⟩

end Identity

namespace Selector

variable {settings : Settings} {selector : Selector} {path : Text} {identity : Identity}

theorem ofSettings_eq_ok_iff :
    ofSettings settings = .ok selector ↔
      selector.home = settings.classHome ∧
        Path.readPatterns [includePattern settings.classHome] = .ok selector.included ∧
        Path.readPatterns settings.exclude = .ok selector.excluded := by
  obtain ⟨home, included, excluded⟩ := selector
  rw [ofSettings]
  cases Path.readPatterns [includePattern settings.classHome] with
  | error fault => simp [bind, Except.bind]
  | ok included =>
    cases Path.readPatterns settings.exclude with
    | error fault => simp [bind, Except.bind]
    | ok excluded => simp [bind, Except.bind, pure, Except.pure, eq_comm]

/-- A path is selected just when it is included, not excluded, and has an identity. -/
theorem identity?_eq_some_iff (hselector : ofSettings settings = .ok selector) :
    selector.identity? path = some identity ↔
      Included settings.classHome (normalize path) ∧
        Path.isMatch selector.excluded (normalize path) = false ∧
        identity.IsCutFrom settings.classHome (normalize path) := by
  obtain ⟨hhome, hincluded, -⟩ := ofSettings_eq_ok_iff.1 hselector
  rw [identity?, Option.ite_none_right_eq_some, Bool.and_eq_true, Bool.not_eq_true', hhome,
    identityOf?_eq_some_iff, isMatch_included_iff settings.oneName.2 hincluded, and_assoc]
  -- The matcher drops a leading `./`, but no identity is cut from a path that has one.
  constructor
  · rintro ⟨hmatch, hexcluded, hcut⟩
    exact ⟨hcut.relative_eq ▸ hmatch, hexcluded, hcut⟩
  · rintro ⟨hmatch, hexcluded, hcut⟩
    exact ⟨hcut.relative_eq.symm ▸ hmatch, hexcluded, hcut⟩

/-- The name with the extension is the end of the path, or a directory or a line feed follows it. -/
theorem Included.extension_mem (h : Included settings.classHome path) :
    extension <:+ path ∨ extension ++ [lineFeed] <:+ path ∨ extension ++ [slash] <:+: path := by
  have hleads {t : Text} (ht : LeadsToScript t) (s : Text) : extension <:+ s ++ t ∨
      extension ++ [lineFeed] <:+ s ++ t ∨ extension ++ [slash] <:+: s ++ t := by
    obtain ⟨directories, _, rest, rfl, -, -, ⟨name, rfl⟩, hrest⟩ := ht
    rcases hrest with rfl | rfl | hrest
    · exact .inl ⟨s ++ slash :: (directories ++ name), by simp⟩
    · exact .inr (.inl ⟨s ++ slash :: (directories ++ name), by simp⟩)
    · obtain ⟨rest, rfl⟩ := List.head?_eq_some_iff.1 hrest
      exact .inr (.inr ⟨s ++ slash :: (directories ++ name), rest, by simp⟩)
  cases h with
  | @named moduleName name t segment hslash hdot hsegment hname ht =>
    have hpath : moduleName ++ slash :: (name ++ t) = moduleName ++ slash :: name ++ t := by simp
    exact hpath ▸ hleads ht _
  | anywhere hslash hdot hhome ht => exact hleads ht _

/-- Below the module there is the home itself, if it has no pattern characters. -/
theorem Included.home_stands (h : Included settings.classHome path)
    (hcut : identity.IsCutFrom settings.classHome path) (hplain : Path.IsPlain settings.classHome) :
    identity.moduleName ++ slash :: (settings.classHome ++ [slash]) <+: path := by
  obtain ⟨front, back, -, -, hmodule, -, -, classPath, -, hpath, -⟩ := hcut
  cases h with
  | named hslash hdot hsegment hname ht =>
    rw [(append_slash_inj hslash hmodule hpath).1]
    rw [Path.segment_of_isPlain hplain] at hsegment
    cases hsegment
    obtain rfl := Path.takes_map_literal.1 hname
    obtain ⟨directories, script, more, rfl, -⟩ := ht
    exact ⟨directories ++ (script ++ more), by simp⟩
  | anywhere hslash hdot hhome ht =>
    have hstar : CodePoint.ofChar '*' ∈ settings.classHome := hhome ▸ by decide
    exact absurd (by decide) (hplain _ hstar)

theorem exists_last_slash {t : Text} (h : slash ∈ t) : ∃ s u, t = s ++ slash :: u ∧ slash ∉ u := by
  obtain ⟨u, s, hreverse, hu⟩ := List.eq_append_cons_of_mem (List.mem_reverse.2 h)
  refine ⟨s.reverse, u.reverse, ?_, fun hmem ↦ hu (List.mem_reverse.1 hmem)⟩
  rw [← List.reverse_reverse t, hreverse]
  simp

/-- The selector of a home that can be matched, without excluding patterns. -/
theorem ofSettings_of_segment {segment : Path.Segment}
    (hsegment : Path.segment settings.classHome = .ok segment) (hranges : segment.reversed? = none)
    (hexclude : settings.exclude = []) :
    ofSettings settings = .ok ⟨settings.classHome, [homePattern segment], []⟩ := by
  refine ofSettings_eq_ok_iff.2 ⟨rfl, ?_, hexclude.symm ▸ rfl⟩
  exact (readPatterns_includePattern_eq_ok_iff settings.oneName.2).2
    (.inl ⟨segment, hsegment, hranges, rfl⟩)

/-- A path by the convention is matched if it has no empty components and no line feeds. -/
theorem included_of_liesAt (hplain : Path.IsPlain settings.classHome)
    (h : identity.LiesAt settings.classHome path) (hfeed : lineFeed ∉ path)
    (hcomponents : [] ∉ Text.splitAt slash path) : Included settings.classHome path := by
  obtain ⟨hslash, hdot, -, classPath, -, hpath, -⟩ := h
  have hnamed : path = identity.moduleName ++ slash ::
      (settings.classHome ++ slash :: (classPath ++ extension)) := by simpa using hpath
  have hextension : slash ∉ extension := by decide
  rw [hnamed] at hfeed hcomponents ⊢
  refine .named hslash hdot (Path.segment_of_isPlain hplain) (Path.takes_map_literal.2 rfl) ?_
  by_cases hdeep : slash ∈ classPath
  · obtain ⟨directories, name, rfl, hname⟩ := exists_last_slash hdeep
    refine ⟨directories ++ [slash], name ++ extension, [], by simp, .inr ⟨directories, ?_, ?_, rfl⟩,
      by simp [hname, hextension], List.suffix_append _ _, .inl rfl⟩
    · -- Two slashes after the home would have an empty component between them.
      rintro rfl
      refine hcomponents ?_
      have hempty := Text.nil_mem_splitAt slash (identity.moduleName ++ slash :: settings.classHome)
        (name ++ extension)
      simpa using hempty
    · intro hmem
      exact hfeed (by simp [hmem])
  · exact ⟨[], classPath ++ extension, [], by simp, .inl rfl, by simp [hdeep, hextension],
      List.suffix_append _ _, .inl rfl⟩

theorem extension_suffix_normalize (h : extension <:+ path) : extension <:+ normalize path := by
  obtain ⟨s, rfl⟩ := h
  have hextension :
      (extension.map fun c ↦ if c = CodePoint.ofChar '\\' then slash else c) = extension := by decide
  have hfirst : extension.dropWhile (· == slash) = extension := by decide
  rw [normalize, List.map_append, hextension, List.dropWhile_append, hfirst]
  split
  · exact List.suffix_refl _
  · exact List.suffix_append _ _

/-- For a plain home, the paths with an identity are those that lie below a module and its home. -/
theorem identity?_eq_some_iff_liesAt (hselector : ofSettings settings = .ok selector)
    (hplain : Path.IsPlain settings.classHome)
    (hexcluded : Path.isMatch selector.excluded (normalize path) = false)
    (hextension : extension <:+ path) (hfeed : lineFeed ∉ normalize path)
    (hcomponents : [] ∉ Text.splitAt slash (normalize path)) (identity : Identity) :
    selector.identity? path = some identity ↔
      identity.LiesAt settings.classHome (normalize path) := by
  rw [identity?_eq_some_iff hselector]
  constructor
  · rintro ⟨hincluded, -, hcut⟩
    exact hcut.liesAt_iff.2
      ⟨hincluded.home_stands hcut hplain, extension_suffix_normalize hextension⟩
  · intro hlies
    exact ⟨included_of_liesAt hplain hlies hfeed hcomponents, hexcluded, hlies.isCutFrom⟩

/-- Just the paths that the pattern of the home matches and no excluding pattern does have an
identity, if there is a module and a class to cut out. It lies at the path by the convention if the
home and the extension are what is cut off. A home without pattern characters always is. The
extension need not be: it may stand before a line feed or at the end of a directory. -/
theorem identity?_isCutFrom (hselector : ofSettings settings = .ok selector) (path : Text)
    (identity : Identity) :
    (selector.identity? path = some identity ↔
      Included settings.classHome (normalize path) ∧
        Path.isMatch selector.excluded (normalize path) = false ∧
        identity.IsCutFrom settings.classHome (normalize path)) ∧
    (selector.identity? path = some identity →
      (identity.LiesAt settings.classHome (normalize path) ↔
        identity.moduleName ++ slash :: (settings.classHome ++ [slash]) <+: normalize path ∧
          extension <:+ normalize path) ∧
      (Path.IsPlain settings.classHome →
        identity.moduleName ++ slash :: (settings.classHome ++ [slash]) <+: normalize path) ∧
      (extension <:+ normalize path ∨ extension ++ [lineFeed] <:+ normalize path ∨
        extension ++ [slash] <:+: normalize path)) := by
  refine ⟨identity?_eq_some_iff hselector, fun h ↦ ?_⟩
  obtain ⟨hincluded, -, hcut⟩ := (identity?_eq_some_iff hselector).1 h
  exact ⟨hcut.liesAt_iff, hincluded.home_stands hcut, hincluded.extension_mem⟩

def anyHome : Settings := { Settings.default with classHome := Path.star, oneName := by decide }

/-- A file in a directory with the extension is selected, and so is one in a directory that a home
stands for but is not. In both cases something else is cut off than the convention says. -/
theorem identity?_strayMatches :
    (∃ selector, ofSettings .default = .ok selector ∧
      selector.identity? "m.m/_/foo.js/bar.txt" = some ⟨"m.m", "foo.js.bar."⟩ ∧
      ¬(⟨"m.m", "foo.js.bar."⟩ : Identity).LiesAt "_" (normalize "m.m/_/foo.js/bar.txt")) ∧
    ∃ selector, ofSettings anyHome = .ok selector ∧
      selector.identity? "a.b/xyz/C.js" = some ⟨"a.b", "z.C"⟩ ∧
      ¬(⟨"a.b", "z.C"⟩ : Identity).LiesAt "*" (normalize "a.b/xyz/C.js") := by
  have hdefault : ofSettings .default =
      .ok ⟨_, [homePattern (.glob [.literal (CodePoint.ofChar '_')])], []⟩ :=
    ofSettings_of_segment (Path.segment_of_isPlain (by decide)) rfl rfl
  have hany : ofSettings anyHome = .ok ⟨_, [homePattern .name], []⟩ :=
    ofSettings_of_segment rfl rfl rfl
  refine ⟨⟨_, hdefault, by decide, fun hlies ↦ ?_⟩, _, hany, by decide, fun hlies ↦ ?_⟩
  · exact absurd (((identity?_isCutFrom hdefault _ _).2 (by decide)).1.1 hlies).2 (by decide)
  · exact absurd (((identity?_isCutFrom hany _ _).2 (by decide)).1.1 hlies).1 (by decide)

/-- With a home without pattern characters and no excluding patterns, a path with the extension and
with neither line feeds nor empty components has the identity that the convention gives it, and none
if it gives it none. -/
theorem identity?_liesAt (hplain : Path.IsPlain settings.classHome)
    (hexclude : settings.exclude = []) :
    ∃ selector, ofSettings settings = .ok selector ∧
      ∀ path : Text, extension <:+ path → lineFeed ∉ normalize path →
        [] ∉ Text.splitAt slash (normalize path) →
        (∀ identity, selector.identity? path = some identity ↔
          identity.LiesAt settings.classHome (normalize path)) ∧
        (selector.identity? path = none ↔
          ∀ identity : Identity, ¬identity.LiesAt settings.classHome (normalize path)) := by
  have hselector := ofSettings_of_segment (Path.segment_of_isPlain hplain)
    (Path.reversed?_map_literal _) hexclude
  refine ⟨_, hselector, fun path hextension hfeed hcomponents ↦ ?_⟩
  have hidentity := identity?_eq_some_iff_liesAt hselector hplain rfl hextension hfeed hcomponents
  refine ⟨hidentity, ?_⟩
  rw [Option.eq_none_iff_forall_ne_some]
  exact forall_congr' fun identity ↦ not_congr (hidentity identity)

/-- A directory may have the name of a script or of the home, and a script no name before its
extension. -/
theorem identity?_liesAt_scriptNames :
    (Path.IsPlain Settings.default.classHome ∧ extension <:+ Text.ofString "/m.m\\_\\x.js\\_\\.js" ∧
      lineFeed ∉ normalize "/m.m\\_\\x.js\\_\\.js" ∧
      [] ∉ Text.splitAt slash (normalize "/m.m\\_\\x.js\\_\\.js")) ∧
    ∃ selector, ofSettings .default = .ok selector ∧
      selector.identity? "/m.m\\_\\x.js\\_\\.js" = some ⟨"m.m", "x.js._."⟩ ∧
      selector.identity? "./m.m/_/A.js" = none := by
  have hplain : Path.IsPlain Settings.default.classHome := by decide
  obtain ⟨selector, hselector, hidentity⟩ := identity?_liesAt hplain rfl
  refine ⟨⟨hplain, by decide, by decide, by decide⟩, selector, hselector, ?_, ?_⟩
  · refine ((hidentity _ (by decide) (by decide) (by decide)).1 _).2 ?_
    exact ⟨by decide, by decide, by decide, "x.js/_/", by decide, by decide, by decide⟩
  · refine ((hidentity _ (by decide) (by decide) (by decide)).2).2 fun identity hlies ↦ ?_
    obtain ⟨hslash, -, hfirst, classPath, -, hpath, -⟩ := hlies
    have hdot : normalize "./m.m/_/A.js" =
        Text.ofString "." ++ slash :: Text.ofString "m.m/_/A.js" := by decide
    obtain ⟨hmodule, -⟩ := append_slash_inj (by decide) hslash (hdot.symm.trans hpath)
    exact hfirst (hmodule ▸ rfl)

end Selector

end ClassScript
