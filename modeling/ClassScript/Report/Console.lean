import ClassScript.Text

/-!
# Consoles

A console shows a text, but not always as it is. In the titles and cells of tables it takes what stands
between brackets for tags that open and close styles, and everywhere it takes names between colons for
emoji. A text with a tag that closes nothing is refused.

Which styles and emoji there are, and what else is refused, is up to the console. The simple one here
knows a style by its name alone and knows no emoji.
-/

namespace ClassScript

namespace Console

def colon : CodePoint := CodePoint.ofChar ':'

def opening : CodePoint := CodePoint.ofChar '['

def closing : CodePoint := CodePoint.ofChar ']'

def backslash : CodePoint := CodePoint.ofChar '\\'

/-- A tag that closes the style opened last. -/
def closeLast : Text := "[/]"

/-- Whether a text has a name between colons, which may be that of an emoji. -/
def HasCode (t : Text) : Prop :=
  ∃ before name after : Text, t = before ++ colon :: (name ++ colon :: after) ∧ name ≠ [] ∧
    ∀ c ∈ name, c.isBlank = false

end Console

open Console in
structure Console where
  /-- What is shown of a text with tags, or why the text is refused. -/
  read : Text → Except Text Text
  /-- What is shown of a text whose brackets are no tags. -/
  plain : Text → Text
  read_of_plain : ∀ t, opening ∉ t → ¬HasCode t → read t = .ok t
  /-- At the first tag, there is nothing to close. -/
  read_of_closeLast : ∀ before after, opening ∉ before → before.getLast? ≠ some backslash →
    ∃ message, read (before ++ closeLast ++ after) = .error message
  plain_of_plain : ∀ t, ¬HasCode t → plain t = t

namespace Console

/-! ## A simple console -/

/-- Whether a tag may start with a character. -/
def startsTag (c : CodePoint) : Bool :=
  (0x61 ≤ c.val && c.val ≤ 0x7A) || c = CodePoint.ofChar '#' || c = CodePoint.ofChar '/' ||
    c = CodePoint.ofChar '@'

/-- What a tag holds, given the text after its opening bracket. -/
def tag? (t : Text) : Option Text :=
  let held := t.takeWhile fun c ↦ c != opening && c != closing
  if held.head?.any startsTag && (t.drop held.length).head? == some closing then some held else none

/-- The name of a style, in small letters and without blanks around it. -/
def styleName (t : Text) : Text :=
  (Text.trim (t.takeWhile (· != CodePoint.ofChar '='))).map fun c ↦
    if h : 0x41 ≤ c.val ∧ c.val ≤ 0x5A then ⟨c.val + 0x20, by omega⟩ else c

/-- The open styles after a tag, the last one first; none if the tag closes nothing. -/
def turn (styles : List Text) (held : Text) : Option (List Text) :=
  if held.head? = some (CodePoint.ofChar '/') then
    match styleName (held.drop 1), styles with
    | [], [] => none
    | [], _ :: styles => some styles
    | name, styles => if name ∈ styles then some (styles.erase name) else none
  else some (styleName held :: styles)

/-- Why a tag is refused. -/
def refusal (held : Text) (position : Nat) : Text :=
  Text.ofString "closing tag '" ++ opening :: held ++ closing :: Text.ofString "' at position " ++
    Text.ofInt position ++ (if styleName (held.drop 1) = [] then Text.ofString " has nothing to close"
      else Text.ofString " doesn't match any open tag")

/-- Reads a text. Known are what is shown of it so far, the open styles, how many backslashes come just
before, the position, and how many characters belong to the last tag. Two backslashes before a tag stand
for one, and an odd one makes the tag part of the text; before any other opening bracket one backslash
is dropped. -/
def readFrom (seen : Text) (styles : List Text) (backslashes position skipped : Nat) :
    Text → Except Text Text
  | [] => .ok seen
  | c :: rest =>
    match skipped with
    | skipped + 1 => readFrom seen styles 0 (position + 1) skipped rest
    | 0 =>
      if c = backslash then readFrom (seen ++ [c]) styles (backslashes + 1) (position + 1) 0 rest
      else if c = opening then
        match tag? rest with
        | none =>
          let seen := if backslashes = 0 then seen else seen.dropLast
          readFrom (seen ++ [c]) styles 0 (position + 1) 0 rest
        | some held =>
          let seen := seen.take (seen.length - backslashes) ++
            List.replicate (backslashes / 2) backslash
          if backslashes % 2 = 1 then
            readFrom (seen ++ c :: held ++ [closing]) styles 0 (position + 1) (held.length + 1) rest
          else
            match turn styles held with
            | some styles => readFrom seen styles 0 (position + 1) (held.length + 1) rest
            | none => .error (refusal held position)
      else readFrom (seen ++ [c]) styles 0 (position + 1) 0 rest

theorem readFrom_of_plain {t : Text} (h : opening ∉ t) (seen : Text) (styles : List Text)
    (backslashes position : Nat) :
    readFrom seen styles backslashes position 0 t = .ok (seen ++ t) := by
  induction t generalizing seen backslashes position with
  | nil => rw [readFrom, List.append_nil]
  | cons c rest ih =>
    obtain ⟨hc, hrest⟩ := not_or.1 (mt List.mem_cons.2 h)
    rw [readFrom]
    dsimp only
    split
    · rw [ih hrest, List.append_assoc, List.singleton_append]
    · rw [if_neg (Ne.symm hc), ih hrest, List.append_assoc, List.singleton_append]

theorem exists_readFrom_eq_error {before : Text} (h : opening ∉ before)
    (hlast : before.getLast? ≠ some backslash) (after seen : Text) {backslashes : Nat}
    (hbackslashes : before = [] → backslashes = 0) (position : Nat) :
    ∃ message, readFrom seen [] backslashes position 0 (before ++ closeLast ++ after) =
      .error message := by
  induction before generalizing seen backslashes position with
  | nil =>
    have hclose : closeLast = [opening, CodePoint.ofChar '/', closing] := by decide
    have htag : tag? (CodePoint.ofChar '/' :: closing :: after) = some [CodePoint.ofChar '/'] := rfl
    obtain rfl := hbackslashes rfl
    refine ⟨refusal [CodePoint.ofChar '/'] position, ?_⟩
    rw [hclose]
    show readFrom seen [] 0 position 0 (opening :: CodePoint.ofChar '/' :: closing :: after) = _
    rw [readFrom]
    dsimp only
    rw [if_neg (by decide), if_pos rfl, htag]
    rfl
  | cons c rest ih =>
    obtain ⟨hc, hrest⟩ := not_or.1 (mt List.mem_cons.2 h)
    have hlast' : rest.getLast? ≠ some backslash := by
      cases rest with
      | nil => nofun
      | cons d rest => rwa [List.getLast?_cons_cons] at hlast
    show ∃ message, readFrom seen [] backslashes position 0
      (c :: (rest ++ closeLast ++ after)) = .error message
    rw [readFrom]
    dsimp only
    split
    · next hbackslash =>
      apply ih hrest hlast'
      rintro rfl
      exact absurd (congrArg some hbackslash) hlast
    · rw [if_neg (Ne.symm hc)]
      exact ih hrest hlast' _ (fun _ ↦ rfl) _

/-- A console that knows styles by their names alone, and no emoji. -/
def simple : Console where
  read t := readFrom [] [] 0 0 0 t
  plain t := t
  read_of_plain _ h _ := readFrom_of_plain h [] [] 0 0
  read_of_closeLast _ after h hlast := exists_readFrom_eq_error h hlast after [] (fun _ ↦ rfl) 0
  plain_of_plain _ _ := rfl

example : (simple.read "[b]a[/B] \\[i] [x").toOption = some (Text.ofString "a [i] [x") := by
  decide +kernel

end Console

end ClassScript
