import ClassScript.JavaScript.Characters

/-!
# Automatic semicolons

Where the grammar wants a semicolon the text may leave it out before a closing brace, at the end, and
at a line break whose next line cannot go on with the statement. The decision looks at the characters
that follow the last token: blanks and comments are looked past, and the first other character after
a line break tells.
-/

namespace ClassScript.JavaScript.Semicolon

/-- What looking past blanks and comments found: a slash that starts no comment, a comment without a
line break, or anything else. -/
inductive Verdict where
  | reject | sameLine | accept
deriving DecidableEq, Repr

/-- What follows a block comment, whose opener has been read, and whether it is closed and holds a
line break. -/
def pastBlock (broken : Bool) : List Char → List Char × Bool × Bool
  | [] => ([], false, broken)
  | '*' :: '/' :: rest => (rest, true, broken)
  | c :: rest => pastBlock (broken || isLineEnd c) rest

theorem length_pastBlock (broken : Bool) (cs : List Char) :
    (pastBlock broken cs).1.length ≤ cs.length := by
  fun_induction pastBlock broken cs <;> simp_all <;> omega

theorem length_dropWhile (p : Char → Bool) (cs : List Char) :
    (cs.dropWhile p).length ≤ cs.length := (List.dropWhile_sublist p).length_le

/-- Looks past blanks and comments. With `through` it goes past all of them, otherwise it stops after
the first block comment that no further slash follows. -/
def pastComments (through broken : Bool) (cs : List Char) : Verdict × List Char :=
  match _h : cs.dropWhile isBreakable with
  | '/' :: '/' :: rest => pastComments through broken (rest.dropWhile fun c ↦ !isLineEnd c)
  | '/' :: '*' :: rest =>
    let past := pastBlock broken rest
    if past.2.1 && !through && past.1.head? != some '/' then
      (if past.2.2 then .accept else .sameLine, past.1)
    else pastComments through past.2.2 past.1
  | '/' :: rest => (.reject, rest)
  | rest => (.accept, rest)
termination_by cs.length
decreasing_by
  · have h1 := length_dropWhile isBreakable cs
    have h2 := length_dropWhile (fun c ↦ !isLineEnd c) rest
    rw [_h] at h1
    simp only [List.length_cons] at h1
    omega
  · have h1 := length_dropWhile isBreakable cs
    have h2 := length_pastBlock broken rest
    rw [_h] at h1
    simp only [List.length_cons] at h1
    omega

theorem length_pastComments (through broken : Bool) (cs : List Char) :
    (pastComments through broken cs).2.length ≤ cs.length := by
  fun_induction pastComments through broken cs with
  | case1 broken cs rest h ih =>
    have h1 := length_dropWhile isBreakable cs
    have h2 := length_dropWhile (fun c ↦ !isLineEnd c) rest
    rw [h] at h1
    simp only [List.length_cons] at h1
    omega
  | case2 broken cs rest h past _ =>
    have h1 := length_dropWhile isBreakable cs
    have h2 := length_pastBlock broken rest
    rw [h] at h1
    simp only [List.length_cons] at h1
    show (pastBlock broken rest).1.length ≤ _
    omega
  | case3 broken cs rest h past _ ih =>
    have h1 := length_dropWhile isBreakable cs
    have h2 := length_pastBlock broken rest
    rw [h] at h1
    simp only [List.length_cons] at h1
    have h3 : past.1.length ≤ rest.length := h2
    omega
  | case4 broken cs rest _ _ h =>
    have h1 := length_dropWhile isBreakable cs
    rw [h] at h1
    simp only [List.length_cons] at h1
    show rest.length ≤ _
    omega
  | case5 broken cs _ _ _ => exact length_dropWhile isBreakable cs

/-- Whether a letter follows, as it does after a longer word that starts like a keyword. -/
def letterFollows : List Char → Bool
  | [] => false
  | c :: _ => c.isAlpha || (c.toNat ≥ 0x80 && !isSpace c)

/-- Whether a statement may end at a line break before these characters. -/
def mayEndBefore : List Char → Bool
  | '.' :: rest => match rest with
    | c :: _ => isDigit c
    | [] => false
  | '+' :: rest => rest.head? == some '+'
  | '-' :: rest => rest.head? == some '-'
  | '!' :: rest => rest.head? != some '='
  | 'i' :: 'n' :: rest =>
    if !letterFollows rest then false
    else if "stanceof".toList.isPrefixOf rest then letterFollows (rest.drop 8)
    else true
  | c :: _ => !"`,:;*%><=[(?^|&/".toList.contains c
  | [] => true

/-- Whether a statement may end at a line break that the given characters follow. -/
def mayEndAtBreak (cs : List Char) : Bool :=
  match pastComments true false cs with
  | (.reject, _) => false
  | (_, next) => mayEndBefore next

/-- What an automatic semicolon is decided by: the characters themselves, or what follows the comments
that they start with. -/
def inSight (cs : List Char) : Verdict × List Char :=
  if cs.head? = some '/' then pastComments false false cs else (.sameLine, cs)

theorem length_inSight (cs : List Char) : (inSight cs).2.length ≤ cs.length := by
  unfold inSight
  split
  · exact length_pastComments _ _ _
  · exact Nat.le_refl _

/-- Whether a semicolon may be left out before the given characters. `settled` says that no operator
could follow the last token, so that a comment with a line break decides at once. -/
def mayOmit (settled : Bool) (cs : List Char) : Bool :=
  if cs.isEmpty then true
  else if (inSight cs).1 = .reject then false
  else if (inSight cs).1 = .accept && settled && (inSight cs).2.head? != some ',' &&
      (inSight cs).2.head? != some '=' then true
  else
    match _h : (inSight cs).2 with
    | [] => false
    | c :: rest =>
      if c = '}' then true
      else if isLineEnd c then mayEndAtBreak rest
      else if isBreakable c then mayOmit settled rest
      else false
termination_by cs.length
decreasing_by
  have h1 := length_inSight cs
  rw [_h, List.length_cons] at h1
  omega

end ClassScript.JavaScript.Semicolon
