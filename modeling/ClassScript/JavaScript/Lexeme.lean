import ClassScript.JavaScript.Characters

/-!
# Lexemes

Each function splits the characters it is given into a lexeme of one class and what follows it, and
answers `none` when no lexeme of that class starts there. Names, numbers, regular expressions, escape
sequences and punctuation are all as long as they can be.
-/

namespace ClassScript.JavaScript.Lexeme

/-- A lexeme and what follows it. -/
abbrev Split := List Char × List Char

/-- Puts characters in front of a lexeme. -/
def Split.cons (taken : List Char) (split : Split) : Split := (taken ++ split.1, split.2)

/-- The escape of one character in a name: `\u` and four hexadecimal digits or some in braces. -/
def nameEscape? : List Char → Option Split
  | '\\' :: 'u' :: '\x7b' :: rest =>
    match rest.takeWhile isHex, rest.dropWhile isHex with
    | d :: ds, '\x7d' :: after => some ('\\' :: 'u' :: '\x7b' :: (d :: ds) ++ ['\x7d'], after)
    | _, _ => none
  | '\\' :: 'u' :: a :: b :: c :: d :: rest =>
    if isHex a && isHex b && isHex c && isHex d then some (['\\', 'u', a, b, c, d], rest) else none
  | _ => none

theorem length_nameEscape {cs : List Char} {split : Split} (h : nameEscape? cs = some split) :
    split.2.length < cs.length := by
  unfold nameEscape? at h
  split at h
  · next rest =>
    split at h
    · next d ds after _ hdrop =>
      have := (List.dropWhile_sublist (l := rest) isHex).length_le
      rw [hdrop] at this
      simp only [Option.some.injEq] at h
      subst h
      simp only [List.length_cons] at *
      omega
    · simp at h
  · split at h
    · simp only [Option.some.injEq] at h
      subst h
      simp only [List.length_cons]
      omega
    · simp at h
  · simp at h

/-- The rest of a name after its first character. -/
def nameTail (cs : List Char) : Split :=
  match cs with
  | [] => ([], [])
  | c :: rest =>
    if isNamePart c then (nameTail rest).cons [c]
    else
      match _h : nameEscape? (c :: rest) with
      | some (escape, after) => (nameTail after).cons escape
      | none => ([], c :: rest)
termination_by cs.length
decreasing_by
  · simp
  · exact length_nameEscape _h

def name? : List Char → Option Split
  | [] => none
  | c :: rest =>
    if isNameStart c then some ((nameTail rest).cons [c])
    else (nameEscape? (c :: rest)).map fun split ↦ (nameTail split.2).cons split.1

/-- A name with the `#` of a private one. -/
def privateName? : List Char → Option Split
  | '#' :: rest => (name? rest).map (Split.cons ['#'])
  | _ => none

/-- Digits of a class, single underscores allowed between them. -/
def digits (isDigit : Char → Bool) : List Char → Split
  | '_' :: d :: rest =>
    if isDigit d then (digits isDigit rest).cons ['_', d] else ([], '_' :: d :: rest)
  | d :: rest => if isDigit d then (digits isDigit rest).cons [d] else ([], d :: rest)
  | [] => ([], [])

/-- Digits that start with a digit and not with an underscore. -/
def digits? (isDigit : Char → Bool) : List Char → Option Split
  | [] => none
  | d :: rest => if isDigit d then some ((digits isDigit rest).cons [d]) else none

/-- The exponent of a decimal number, if there is one. -/
def exponent (cs : List Char) : Split :=
  match cs with
  | e :: rest =>
    if e = 'e' ∨ e = 'E' then
      match rest with
      | sign :: more =>
        if sign = '+' ∨ sign = '-' then
          match digits? isDigit more with
          | some split => split.cons [e, sign]
          | none => ([], cs)
        else
          match digits? isDigit rest with
          | some split => split.cons [e]
          | none => ([], cs)
      | [] => ([], cs)
    else ([], cs)
  | [] => ([], [])

/-- Takes the `n` that marks a number without a fraction as a big one. -/
def bigMark : List Char → Split
  | 'n' :: rest => (['n'], rest)
  | rest => ([], rest)

/-- Appends what `next` takes from the rest of a lexeme. -/
def Split.andThen (split : Split) (next : List Char → Split) : Split := (next split.2).cons split.1

/-- The digits of the base that a letter after a leading zero names. -/
def radixDigit? (c : Char) : Option (Char → Bool) :=
  if c = 'x' ∨ c = 'X' then some isHex
  else if c = 'o' ∨ c = 'O' then some isOctal
  else if c = 'b' ∨ c = 'B' then some fun d ↦ d == '0' || d == '1'
  else none

def fraction (cs : List Char) : Split :=
  match digits? isDigit cs with
  | some split => split.andThen exponent
  | none => exponent cs

def decimal? (cs : List Char) : Option Split :=
  match digits? isDigit cs with
  | some (whole, '.' :: rest) => some ((fraction rest).cons (whole ++ ['.']))
  | some (whole, 'n' :: rest) => some (whole ++ ['n'], rest)
  | some (whole, rest) => some ((exponent rest).cons whole)
  | none =>
    match cs with
    | '.' :: rest => (digits? isDigit rest).map fun split ↦ (split.andThen exponent).cons ['.']
    | _ => none

def number? (cs : List Char) : Option Split :=
  match cs with
  | '0' :: letter :: rest =>
    match radixDigit? letter with
    | some isRadixDigit =>
      match digits? isRadixDigit rest with
      | some split => some ((split.andThen bigMark).cons ['0', letter])
      | none => decimal? cs
    | none => decimal? cs
  | _ => decimal? cs

/-- The body of a regular expression up to and with the closing slash. A slash inside a bracketed
class does not close it. -/
def regexBody? : (inClass : Bool) → List Char → Option Split
  | _, [] => none
  | inClass, '\\' :: c :: rest =>
    if c = '\n' then none else (regexBody? inClass rest).map (Split.cons ['\\', c])
  | inClass, c :: rest =>
    if c = '\n' ∨ c = '\\' then none
    else if inClass then (regexBody? (c != ']') rest).map (Split.cons [c])
    else if c = '/' then some (['/'], rest)
    else (regexBody? (c == '[') rest).map (Split.cons [c])

/-- A regular expression with its flags. -/
def regex? : List Char → Option Split
  | '/' :: rest =>
    (regexBody? false rest).map fun split ↦
      ('/' :: split.1 ++ split.2.takeWhile fun c ↦ 'a' ≤ c && c ≤ 'z',
        split.2.dropWhile fun c ↦ 'a' ≤ c && c ≤ 'z')
  | _ => none

/-- One escape sequence of a string: two hexadecimal digits after `x`, four or some in braces after
`u`, up to three octal digits, a line break of two characters, or any one other character. -/
def escape? : List Char → Option Split
  | '\\' :: 'x' :: rest =>
    match rest with
    | a :: b :: after => if isHex a && isHex b then some (['\\', 'x', a, b], after) else none
    | _ => none
  | '\\' :: 'u' :: rest => nameEscape? ('\\' :: 'u' :: rest)
  | '\\' :: c :: rest =>
    if isOctal c then
      let more := (rest.take 2).takeWhile isOctal
      some ('\\' :: c :: more, rest.drop more.length)
    else if c = '\r' ∨ c = '?' then
      match rest with
      | d :: after => if isLineEnd d then some (['\\', c, d], after) else some (['\\', c], rest)
      | [] => some (['\\', c], [])
    else some (['\\', c], rest)
  | _ => none

/-- The text of an escape sequence as the lexer splits it off. -/
structure EscapeToken where
  text : List Char
  spelled : ∃ cs rest, escape? cs = some (text, rest)
deriving DecidableEq, Repr

/-- The characters of a string up to its quote, an escape or the end of the line. -/
def fragment (quote : Char) (cs : List Char) : Split :=
  let inside := fun c ↦ c != quote && c != '\\' && c != '\n' && c != '\r'
  (cs.takeWhile inside, cs.dropWhile inside)

/-- The characters of a template up to its end, an escape or a substitution. -/
def templateFragment : List Char → Split
  | '$' :: '\x7b' :: rest => ([], '$' :: '\x7b' :: rest)
  | c :: rest =>
    if c = '\x60' ∨ c = '\\' then ([], c :: rest) else (templateFragment rest).cons [c]
  | [] => ([], [])

/-- Everything up to and with a closing star and slash. -/
def closed? : List Char → Option Split
  | '*' :: '/' :: rest => some (['*', '/'], rest)
  | c :: rest => (closed? rest).map (Split.cons [c])
  | [] => none

/-- A comment: the rest of the line after two slashes, or everything up to the closing star and
slash. -/
def comment? : List Char → Option Split
  | '/' :: '/' :: rest =>
    some ('/' :: '/' :: rest.takeWhile fun c ↦ !isLineEnd c && c != '\r',
      rest.dropWhile fun c ↦ !isLineEnd c && c != '\r')
  | '/' :: '*' :: rest => (closed? rest).map (Split.cons ['/', '*'])
  | _ => none

/-- The rest of a line that starts like an HTML comment. -/
def htmlComment? : List Char → Option Split
  | '<' :: '!' :: '-' :: '-' :: rest =>
    some ('<' :: '!' :: '-' :: '-' :: rest.takeWhile fun c ↦ !isLineEnd c,
      rest.dropWhile fun c ↦ !isLineEnd c)
  | '-' :: '-' :: '>' :: rest =>
    some ('-' :: '-' :: '>' :: rest.takeWhile fun c ↦ !isLineEnd c,
      rest.dropWhile fun c ↦ !isLineEnd c)
  | _ => none

theorem length_closed {cs : List Char} {split : Split} (h : closed? cs = some split) :
    split.2.length < cs.length := by
  fun_induction closed? cs generalizing split with
  | case1 rest =>
    simp only [Option.some.injEq] at h
    subst h
    simp only [List.length_cons]
    omega
  | case2 c rest _ ih =>
    obtain ⟨inner, hinner, rfl⟩ := Option.map_eq_some_iff.1 h
    have := ih hinner
    simp only [Split.cons, List.length_cons]
    omega
  | case3 => simp at h

theorem length_comment {cs : List Char} {split : Split} (h : comment? cs = some split) :
    split.2.length < cs.length := by
  unfold comment? at h
  split at h
  · next rest =>
    have := (List.dropWhile_sublist (l := rest) fun c ↦ !isLineEnd c && c != '\r').length_le
    simp only [Option.some.injEq] at h
    subst h
    simp only [List.length_cons]
    omega
  · obtain ⟨inner, hinner, rfl⟩ := Option.map_eq_some_iff.1 h
    have := length_closed hinner
    simp only [Split.cons, List.length_cons]
    omega
  · simp at h

theorem length_htmlComment {cs : List Char} {split : Split} (h : htmlComment? cs = some split) :
    split.2.length < cs.length := by
  unfold htmlComment? at h
  split at h
  · next rest =>
    have := (List.dropWhile_sublist (l := rest) fun c ↦ !isLineEnd c).length_le
    simp only [Option.some.injEq] at h
    subst h
    simp only [List.length_cons]
    omega
  · next rest =>
    have := (List.dropWhile_sublist (l := rest) fun c ↦ !isLineEnd c).length_le
    simp only [Option.some.injEq] at h
    subst h
    simp only [List.length_cons]
    omega
  · simp at h

/-- All operators and separators, longer ones before those they start with. -/
def punctuators : List String :=
  [">>>=", "...", "===", "!==", "**=", "<<=", ">>=", ">>>", "&&=", "||=", "??=", "=>", "==", "!=",
    "<=", ">=", "&&", "||", "??", "?.", "++", "--", "+=", "-=", "*=", "/=", "%=", "&=", "|=", "^=",
    "<<", ">>", "**", "\x7b", "\x7d", "(", ")", "[", "]", ".", ";", ",", "<", ">", "+", "-", "*",
    "/", "%", "&", "|", "^", "!", "~", "?", ":", "=", "@"]

/-- The longest punctuation that the characters start with. `?.` is none before a digit. -/
def punctuator? (cs : List Char) : Option String :=
  punctuators.find? fun p ↦
    p.toList.isPrefixOf cs &&
      !(p == "?." && match cs.drop 2 with
        | d :: _ => isDigit d
        | [] => false)

end ClassScript.JavaScript.Lexeme
