import ClassScript.Proofs.Entries
import ClassScript.Proofs.Escape
import ClassScript.Proofs.Utf16
import Mathlib.Data.List.Basic
import Mathlib.Data.List.TakeWhile

/-!
# Values of string literals

A string literal is a sequence of fragments and escape sequences, each of which denotes a text of
its own; only a number in braces may be too large to denote one. The value of the literal has the
UTF-16 units of these texts one after the other, and no surrogates in it could be joined. As there
is just one such text, it does not matter how the units are spread over fragments and escape
sequences, and a Unicode string is the value of its units spelled one by one.
-/

namespace ClassScript.JavaScript

/-! ## What pieces denote -/

def codePoint? (n : Nat) : Option Text := if h : n < 0x110000 then some [⟨n, h⟩] else none

theorem codePoint?_of_lt {n : Nat} (h : n < 0x110000) : codePoint? n = some [⟨n, h⟩] := dif_pos h

def octalNumber (digits : List Char) : Nat :=
  digits.foldl (fun n c ↦ n * 8 + (c.toNat - 0x30)) 0

theorem octal_ofChars (digits : List Char) :
    Escape.octal (Text.ofChars digits) = octalNumber digits := by
  rw [Escape.octal, Text.ofChars, List.foldl_map]
  rfl

namespace Lexeme.EscapeForm

/-- What an escape sequence denotes: the code point with the number that its digits spell, or what
its character stands for. A line end after a carriage return is one line break with it and denotes
nothing. -/
def meaning? : EscapeForm → Option Text
  | byte digits _ _ => codePoint? (hexNumber 0 digits)
  | unit digits _ _ => codePoint? (hexNumber 0 digits)
  | braced digits _ _ => codePoint? (hexNumber 0 digits)
  | octal digits _ _ _ => codePoint? (octalNumber digits)
  | lineEnd first second _ _ => some (if first = '\r' then [] else Text.ofChars [first, second])
  | character c _ _ _ => some (Text.ofChars (Escape.standsFor c))

end Lexeme.EscapeForm

inductive Piece where
  | fragment (text : List Char)
  | escape (form : Lexeme.EscapeForm)

namespace Piece

def meaning? : Piece → Option Text
  | fragment text => some (Text.ofChars text)
  | escape form => form.meaning?

def units (piece : Piece) : List Nat := (piece.meaning?.getD []).units

/-- An escape sequence that gives a number beyond the last code point in braces. -/
def IsStray : Piece → Prop
  | escape (.braced digits _ _) => 0x10FFFF < hexNumber 0 digits
  | _ => False

/-- A piece without a meaning is a stray escape, and no other piece is. -/
theorem meaning?_eq_none_iff (piece : Piece) : piece.meaning? = none ↔ piece.IsStray := by
  have hdenotes {n : Nat} (h : n < 0x110000) : codePoint? n ≠ none := by
    rw [codePoint?_of_lt h]
    exact Option.some_ne_none _
  cases piece with
  | fragment text => exact iff_of_false (Option.some_ne_none _) id
  | escape form =>
    cases form with
    | byte digits hlength hdigits =>
      have hlt := hexNumber_lt hdigits
      rw [hlength] at hlt
      exact iff_of_false (hdenotes (by omega)) id
    | unit digits hlength hdigits =>
      have hlt := hexNumber_lt hdigits
      rw [hlength] at hlt
      exact iff_of_false (hdenotes (by omega)) id
    | braced digits hne hdigits =>
      show codePoint? (hexNumber 0 digits) = none ↔ 0x10FFFF < hexNumber 0 digits
      rw [codePoint?, dite_eq_right_iff]
      simp
      omega
    | octal digits hne hlength hdigits =>
      have hlt := Escape.octal_lt hlength hdigits
      rw [octal_ofChars] at hlt
      exact iff_of_false (hdenotes hlt) id
    | lineEnd first second hfirst hsecond => exact iff_of_false (Option.some_ne_none _) id
    | character c hx hu hoctal => exact iff_of_false (Option.some_ne_none _) id

end Piece

/-! ## Decoding pieces -/

theorem codePoint_eq_ok_iff {n : Nat} {t : Text} :
    Escape.codePoint n = .ok t ↔ codePoint? n = some t := by
  rw [Escape.codePoint_ofNat, codePoint?]
  split
  · simp
  · simp

/-- Decoding an escape gives its meaning. -/
theorem decode_spelling_eq_ok_iff {form : Lexeme.EscapeForm} {t : Text} :
    Escape.decode (Text.ofChars form.spelling) = .ok t ↔ form.meaning? = some t := by
  cases form with
  | byte digits hlength hdigits =>
    rw [Lexeme.EscapeForm.spelling, Escape.decode_byte hlength hdigits]
    exact codePoint_eq_ok_iff
  | unit digits hlength hdigits =>
    rw [Lexeme.EscapeForm.spelling, Escape.decode_unit hlength hdigits]
    exact codePoint_eq_ok_iff
  | braced digits hne hdigits =>
    rw [Lexeme.EscapeForm.spelling, Escape.decode_braced hne hdigits]
    exact codePoint_eq_ok_iff
  | octal digits hne hlength hdigits =>
    rw [Lexeme.EscapeForm.spelling, Escape.decode_octal hne hdigits, octal_ofChars]
    exact codePoint_eq_ok_iff
  | lineEnd first second hfirst hsecond =>
    rw [Lexeme.EscapeForm.spelling, Escape.decode_lineEnd hfirst, Except.ok.injEq,
      Lexeme.EscapeForm.meaning?, Option.some.injEq]
  | character c hx hu hoctal =>
    rw [Lexeme.EscapeForm.spelling, Escape.decode_character hoctal, Except.ok.injEq,
      Lexeme.EscapeForm.meaning?, Option.some.injEq]

namespace Node

/-- A node of a string literal is the given piece. -/
def IsPiece (node : Node) : Piece → Prop
  | .fragment text => node.kind = .stringFragment ∧ node.text = text
  | .escape form => ∃ token, node.kind = .escapeSequence token ∧ token.text = form.spelling

/-- A string literal consists of the given pieces. -/
def ConsistsOf (literal : Node) (pieces : List Piece) : Prop :=
  literal.children.Forall₂ IsPiece pieces

theorem pieceValue_eq_ok_iff {node : Node} {piece : Piece} (h : node.IsPiece piece) {t : Text} :
    node.pieceValue = .ok t ↔ piece.meaning? = some t := by
  cases piece with
  | fragment text =>
    obtain ⟨hkind, rfl⟩ := h
    rw [pieceValue, hkind]
    show Except.ok (Text.ofChars node.text) = .ok t ↔ some (Text.ofChars node.text) = some t
    rw [Except.ok.injEq, Option.some.injEq]
  | escape form =>
    obtain ⟨token, hkind, htext⟩ := h
    rw [pieceValue, hkind]
    show Escape.decode (Text.ofChars token.text) = .ok t ↔ form.meaning? = some t
    rw [htext]
    exact decode_spelling_eq_ok_iff

theorem mapM_pieceValue_eq_ok_iff {nodes : List Node} {pieces : List Piece}
    (h : nodes.Forall₂ IsPiece pieces) {texts : List Text} :
    nodes.mapM pieceValue = .ok texts ↔ pieces.map Piece.meaning? = texts.map some := by
  rw [Recognizer.mapM_eq_ok]
  induction h generalizing texts with
  | nil =>
    cases texts with
    | nil => simp
    | cons t rest => simp
  | cons hpiece _ ih =>
    cases texts with
    | nil => simp
    | cons t rest =>
      simp only [List.map_cons, List.cons.injEq, pieceValue_eq_ok_iff hpiece, ih]

/-- The value of a literal is made of the meanings of its pieces, with surrogates joined where they
meet. -/
theorem stringValue_eq_ok_iff {literal : Node} {pieces : List Piece}
    (h : literal.ConsistsOf pieces) {value : Text} :
    literal.stringValue = .ok value ↔
      ∃ texts : List Text, pieces.map Piece.meaning? = texts.map some ∧
        Text.joinPairs texts.flatten = value := by
  simp only [← mapM_pieceValue_eq_ok_iff h, stringValue]
  cases literal.children.mapM pieceValue with
  | error fault => simp [bind, Except.bind]
  | ok texts => simp [bind, Except.bind, pure, Except.pure]

end Node

/-! ## Units of the value -/

theorem flatMap_units {pieces : List Piece} {texts : List Text}
    (h : pieces.map Piece.meaning? = texts.map some) :
    pieces.flatMap Piece.units = Text.units texts.flatten := by
  calc pieces.flatMap Piece.units
      = (pieces.map Piece.meaning?).flatMap fun meaning? ↦ (meaning?.getD []).units := by
        rw [List.flatMap_map]
        rfl
    _ = texts.flatMap Text.units := by
        rw [h, List.flatMap_map]
        rfl
    _ = Text.units texts.flatten := by
        rw [Text.units, List.flatten_eq_flatMap, List.flatMap_assoc]
        rfl

theorem exists_texts {pieces : List Piece} (h : ∀ piece ∈ pieces, ¬piece.IsStray) :
    ∃ texts : List Text, pieces.map Piece.meaning? = texts.map some := by
  refine ⟨pieces.map fun piece ↦ piece.meaning?.getD [], ?_⟩
  rw [List.map_map]
  apply List.map_congr_left
  intro piece hpiece
  cases hstands : piece.meaning? with
  | none => exact absurd ((piece.meaning?_eq_none_iff).1 hstands) (h piece hpiece)
  | some t => simp [hstands]

namespace Node

/-- What the value of a string literal has to do with its pieces. -/
structure Decodes (literal : Node) (pieces : List Piece) : Prop where
  /-- There is no value just when a number in braces is beyond the last code point. -/
  fails : (∃ fault, literal.stringValue = .error fault) ↔ ∃ piece ∈ pieces, piece.IsStray
  /-- The value has the units of the pieces, and no surrogates in it could be joined. -/
  value : ∀ value, literal.stringValue = .ok value ↔
    (∀ piece ∈ pieces, ¬piece.IsStray) ∧ value.units = pieces.flatMap Piece.units ∧ value.Unpaired

/-- A literal has the value that has its code units, and it has one just when no piece is stray. -/
theorem stringValue_eq_ok_iff_units {literal : Node} {pieces : List Piece}
    (h : literal.ConsistsOf pieces) (value : Text) :
    literal.stringValue = .ok value ↔
      (∀ piece ∈ pieces, ¬piece.IsStray) ∧ value.units = pieces.flatMap Piece.units ∧
        value.Unpaired := by
  rw [stringValue_eq_ok_iff h]
  constructor
  · rintro ⟨texts, htexts, rfl⟩
    refine ⟨?_, ?_, Text.unpaired_joinPairs _⟩
    · intro piece hpiece hstray
      have hmem : piece.meaning? ∈ texts.map some := htexts ▸ List.mem_map_of_mem hpiece
      obtain ⟨t, -, ht⟩ := List.mem_map.1 hmem
      rw [(piece.meaning?_eq_none_iff).2 hstray] at ht
      cases ht
    · rw [Text.units_joinPairs, flatMap_units htexts]
  · rintro ⟨hstray, hunits, hunpaired⟩
    obtain ⟨texts, htexts⟩ := exists_texts hstray
    refine ⟨texts, htexts, (Text.unpaired_joinPairs _).eq_of_units_eq hunpaired ?_⟩
    rw [Text.units_joinPairs, hunits, flatMap_units htexts]

theorem decodes_of_consistsOf {literal : Node} {pieces : List Piece}
    (h : literal.ConsistsOf pieces) : literal.Decodes pieces := by
  refine ⟨?_, stringValue_eq_ok_iff_units h⟩
  constructor
  · rintro ⟨fault, hfault⟩
    by_contra hnone
    obtain ⟨texts, htexts⟩ := exists_texts fun piece hpiece hstray ↦ hnone ⟨piece, hpiece, hstray⟩
    rw [(stringValue_eq_ok_iff h).2 ⟨texts, htexts, rfl⟩] at hfault
    cases hfault
  · rintro ⟨piece, hpiece, hstray⟩
    cases hvalue : literal.stringValue with
    | error fault => exact ⟨fault, rfl⟩
    | ok value => exact absurd hstray (((stringValue_eq_ok_iff_units h value).1 hvalue).1 piece hpiece)

end Node

/-! ## Literals of given pieces -/

namespace Lexeme.EscapeForm

/-- The lexer splits off all of an escape sequence. -/
theorem escape?_spelling (form : EscapeForm) :
    escape? form.spelling = some (form.spelling, []) := by
  cases form with
  | byte digits hlength hdigits =>
    obtain ⟨a, b, rfl⟩ := List.length_eq_two.1 hlength
    rw [List.all_cons, List.all_cons, Bool.and_eq_true, Bool.and_eq_true] at hdigits
    simp [spelling, escape?, hdigits]
  | unit digits hlength hdigits =>
    obtain ⟨a, b, c, d, rfl⟩ := List.length_eq_four.1 hlength
    have hbrace : a ≠ '\x7b' := by
      rintro rfl
      simp [isHex, isDigit] at hdigits
    show nameEscape? ['\\', 'u', a, b, c, d] = _
    unfold nameEscape?
    split
    · next heq => simp [hbrace] at heq
    · next heq =>
      cases heq
      simp only [List.all_cons, List.all_nil, Bool.and_true, Bool.and_eq_true] at hdigits
      simp [spelling, hdigits]
    · next hno => exact absurd rfl (hno a b c d [])
  | braced digits hne hdigits =>
    show nameEscape? ('\\' :: 'u' :: '\x7b' :: (digits ++ ['\x7d'])) = _
    have htake : (digits ++ ['\x7d']).takeWhile isHex = digits := by
      rw [List.takeWhile_append_of_pos (List.all_eq_true.1 hdigits)]
      simp [isHex, isDigit]
    have hdrop : (digits ++ ['\x7d']).dropWhile isHex = ['\x7d'] := by
      rw [List.dropWhile_append_of_pos (List.all_eq_true.1 hdigits)]
      simp [isHex, isDigit]
    obtain ⟨d, ds, rfl⟩ := List.exists_cons_of_ne_nil hne
    rw [nameEscape?, htake, hdrop]
    rfl
  | octal digits hne hlength hdigits =>
    obtain ⟨c, rest, rfl⟩ := List.exists_cons_of_ne_nil hne
    rw [List.all_cons, Bool.and_eq_true] at hdigits
    have htake : (rest.take 2).takeWhile isOctal = rest := by
      rw [List.take_of_length_le (Nat.le_of_succ_le_succ hlength), List.takeWhile_eq_self_iff]
      exact List.all_eq_true.1 hdigits.2
    show escape? ('\\' :: c :: rest) = _
    unfold escape?
    split
    · next heq =>
      cases heq
      simp [isOctal] at hdigits
    · next heq =>
      cases heq
      simp [isOctal] at hdigits
    · next heq =>
      cases heq
      simp [hdigits.1, htake, spelling]
    · next hno => exact absurd rfl (hno c rest)
  | lineEnd first second hfirst hsecond =>
    rcases hfirst with rfl | rfl
    · simp [spelling, escape?, hsecond, isOctal]
    · simp [spelling, escape?, hsecond, isOctal]
  | character c hx hu hoctal =>
    show escape? ['\\', c] = _
    unfold escape?
    split
    · next heq => simp [hx] at heq
    · next heq => simp [hu] at heq
    · next heq =>
      cases heq
      simp [hoctal, spelling]
    · next hno => exact absurd rfl (hno c [])

def token (form : EscapeForm) : EscapeToken :=
  ⟨form.spelling, form.spelling, [], form.escape?_spelling⟩

end Lexeme.EscapeForm

def Piece.node : Piece → Node
  | fragment text => .mk .stringFragment none default text []
  | escape form => .mk (.escapeSequence form.token) none default form.spelling []

def Node.literal (pieces : List Piece) : Node :=
  .mk .string none default [] (pieces.map Piece.node)

theorem Piece.isPiece_node (piece : Piece) : piece.node.IsPiece piece := by
  cases piece with
  | fragment text => exact ⟨rfl, rfl⟩
  | escape form => exact ⟨form.token, rfl, rfl⟩

theorem Node.consistsOf_literal (pieces : List Piece) : (literal pieces).ConsistsOf pieces := by
  show (pieces.map Piece.node).Forall₂ IsPiece pieces
  rw [List.forall₂_map_left_iff, List.forall₂_same]
  exact fun piece _ ↦ piece.isPiece_node

/-! ## Units spelled one by one -/

/-- The pieces are escape sequences of four digits that spell the given units. -/
def SpellUnits (pieces : List Piece) (units : List Nat) : Prop :=
  pieces.Forall₂ (fun piece unit ↦ ∃ digits hlength hdigits,
    piece = .escape (.unit digits hlength hdigits) ∧ hexNumber 0 digits = unit) units

theorem isHex_digitChar :
    ∀ d < 16, isHex (Nat.digitChar d) = true ∧ hexDigit (Nat.digitChar d) = d := by
  decide

/-- Every code unit has four hexadecimal digits. -/
theorem exists_four_digits {n : Nat} (h : n < 0x10000) :
    ∃ digits : List Char, digits.length = 4 ∧ digits.all isHex ∧ hexNumber 0 digits = n := by
  have hfirst := isHex_digitChar (n / 0x1000) (by omega)
  have hsecond := isHex_digitChar (n / 0x100 % 16) (by omega)
  have hthird := isHex_digitChar (n / 0x10 % 16) (by omega)
  have hfourth := isHex_digitChar (n % 16) (by omega)
  refine ⟨[n / 0x1000, n / 0x100 % 16, n / 0x10 % 16, n % 16].map Nat.digitChar, rfl, ?_, ?_⟩
  · simp [hfirst.1, hsecond.1, hthird.1, hfourth.1]
  · simp only [hexNumber, List.map_cons, List.map_nil, List.foldl_cons, List.foldl_nil, hfirst.2,
      hsecond.2, hthird.2, hfourth.2]
    omega

/-- Every list of code units can be spelled with escapes alone. -/
theorem exists_spellUnits {units : List Nat} (h : ∀ unit ∈ units, unit < 0x10000) :
    ∃ pieces, SpellUnits pieces units := by
  induction units with
  | nil => exact ⟨[], .nil⟩
  | cons unit rest ih =>
    rw [List.forall_mem_cons] at h
    obtain ⟨digits, hlength, hdigits, hnumber⟩ := exists_four_digits h.1
    obtain ⟨pieces, hpieces⟩ := ih h.2
    exact ⟨.escape (.unit digits hlength hdigits) :: pieces,
      .cons ⟨digits, hlength, hdigits, rfl, hnumber⟩ hpieces⟩

theorem SpellUnits.not_isStray {pieces : List Piece} {units : List Nat} (h : SpellUnits pieces units) :
    ∀ piece ∈ pieces, ¬piece.IsStray := by
  induction h with
  | nil => exact List.forall_mem_nil _
  | cons hpiece _ ih =>
    obtain ⟨digits, hlength, hdigits, rfl, -⟩ := hpiece
    exact List.forall_mem_cons.2 ⟨id, ih⟩

theorem SpellUnits.flatMap_units {pieces : List Piece} {units : List Nat}
    (h : SpellUnits pieces units) : pieces.flatMap Piece.units = units := by
  induction h with
  | nil => rfl
  | cons hpiece _ ih =>
    obtain ⟨digits, hlength, hdigits, rfl, rfl⟩ := hpiece
    have hlt := hexNumber_lt hdigits
    rw [hlength] at hlt
    have hunits : (Piece.escape (.unit digits hlength hdigits)).units = [hexNumber 0 digits] := by
      show Text.units ((codePoint? (hexNumber 0 digits)).getD []) = _
      rw [codePoint?_of_lt (by omega)]
      show CodePoint.units _ ++ [] = _
      rw [CodePoint.units_of_lt (by simpa using hlt), List.append_nil]
    rw [List.flatMap_cons, hunits, ih, List.singleton_append]

/-- A literal that spells the units of a text has that text for its value. -/
theorem stringValue_of_spellUnits {pieces : List Piece} {s : List Char}
    (h : SpellUnits pieces (Text.ofChars s).units) {literal : Node}
    (hliteral : literal.ConsistsOf pieces) : literal.stringValue = .ok (Text.ofChars s) :=
  (Node.stringValue_eq_ok_iff_units hliteral _).2
    ⟨h.not_isStray, h.flatMap_units.symm, Text.unpaired_ofChars s⟩

/-- A literal of fragments and escape sequences only, as the reader makes them. -/
def Node.IsPlainLiteral (literal : Node) : Prop :=
  ∀ node ∈ literal.children, node.kind = .stringFragment ∨ ∃ token, node.kind = .escapeSequence token

theorem Node.IsPlainLiteral.exists_consistsOf {literal : Node} (h : literal.IsPlainLiteral) :
    ∃ pieces, literal.ConsistsOf pieces := by
  unfold IsPlainLiteral at h
  unfold ConsistsOf
  generalize literal.children = nodes at h
  induction nodes with
  | nil => exact ⟨[], .nil⟩
  | cons node rest ih =>
    rw [List.forall_mem_cons] at h
    obtain ⟨pieces, hpieces⟩ := ih h.2
    rcases h.1 with hkind | ⟨token, hkind⟩
    · exact ⟨.fragment node.text :: pieces, .cons ⟨hkind, rfl⟩ hpieces⟩
    · obtain ⟨form, hform⟩ := token.exists_form
      exact ⟨.escape form :: pieces, .cons ⟨token, hkind, hform.symm⟩ hpieces⟩

/-- String literals are decoded faithfully, whatever their pieces, and a Unicode string is the value
of its units spelled one by one. -/
theorem stringValue_decodes :
    (∀ literal : Node, literal.IsPlainLiteral → ∃ pieces, literal.ConsistsOf pieces) ∧
    (∀ pieces : List Piece, (∃ literal : Node, literal.kind = .string ∧ literal.ConsistsOf pieces) ∧
      ∀ literal : Node, literal.ConsistsOf pieces → literal.Decodes pieces) ∧
    ∀ s : List Char, (∃ pieces, SpellUnits pieces (Text.ofChars s).units) ∧
      ∀ pieces, SpellUnits pieces (Text.ofChars s).units →
        ∀ literal : Node, literal.ConsistsOf pieces → literal.stringValue = .ok (Text.ofChars s) := by
  refine ⟨fun _ h ↦ h.exists_consistsOf, ?_, ?_⟩
  · intro pieces
    refine ⟨⟨.literal pieces, rfl, Node.consistsOf_literal pieces⟩, ?_⟩
    exact fun _ ↦ Node.decodes_of_consistsOf
  · intro s
    refine ⟨exists_spellUnits ?_, fun _ hpieces _ ↦ stringValue_of_spellUnits hpieces⟩
    intro unit hunit
    obtain ⟨c, -, hc⟩ := List.mem_flatMap.1 hunit
    exact CodePoint.lt_of_mem_units hc

/-- The halves of a pair in two spellings, octal digits, a line break, a letter that stands for a
control character, and a high surrogate before a fragment. -/
def mixedPieces : List Piece :=
  [.fragment "x".toList, .escape (.unit "D83d".toList rfl rfl),
    .escape (.braced "0DE00".toList (by decide) rfl),
    .escape (.octal "101".toList (by decide) (by decide) rfl),
    .escape (.lineEnd '\r' '\n' (.inl rfl) rfl), .escape (.character 'n' (by decide) (by decide) rfl),
    .escape (.unit "d800".toList rfl rfl), .fragment "é".toList]

theorem stringValue_mixedPieces :
    (Node.literal mixedPieces).stringValue = .ok [0x78, 0x1F600, 0x41, 0x0A, 0xD800, 0xE9] ∧
      (∃ fault, (Node.literal (.escape (.braced "110000".toList (by decide) rfl) ::
        mixedPieces)).stringValue = .error fault) ∧
      ∃ pieces, (Node.literal pieces).stringValue = .ok (Text.ofChars [Char.ofNat 0x1F600, '!']) := by
  refine ⟨?_, ?_, ?_⟩
  · refine ((stringValue_decodes.2.1 _).2 _ (Node.consistsOf_literal _)).value _ |>.2 ⟨?_, ?_, ?_⟩
    · simp [mixedPieces, Piece.IsStray, hexNumber]
      decide
    · decide
    · simp [Text.Unpaired]
      decide
  · refine ((stringValue_decodes.2.1 _).2 _ (Node.consistsOf_literal _)).fails.2 ?_
    exact ⟨_, List.mem_cons_self, show 0x10FFFF < hexNumber 0 _ by decide⟩
  · obtain ⟨⟨pieces, hpieces⟩, hvalue⟩ := stringValue_decodes.2.2 [Char.ofNat 0x1F600, '!']
    exact ⟨pieces, hvalue pieces hpieces _ (Node.consistsOf_literal pieces)⟩

end ClassScript.JavaScript
