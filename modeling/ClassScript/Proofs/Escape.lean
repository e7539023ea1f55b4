import ClassScript.JavaScript.Escape
import Mathlib.Algebra.Ring.Nat

/-!
# Escape sequences that denote no text

An escape sequence of the grammar is spelled in one of six ways, and all but one of them can only name
code points. The exception is the number in braces, which may have any number of digits: such an escape
sequence denotes no text just when the number is beyond the last code point.
-/

namespace ClassScript.JavaScript

/-! ## Spellings -/

namespace Lexeme

inductive EscapeForm where
  /-- Two hexadecimal digits after an `x`. -/
  | byte (digits : List Char) (hlength : digits.length = 2) (hdigits : digits.all isHex)
  /-- Four hexadecimal digits after a `u`. -/
  | unit (digits : List Char) (hlength : digits.length = 4) (hdigits : digits.all isHex)
  /-- Hexadecimal digits in braces after a `u`. -/
  | braced (digits : List Char) (hne : digits ≠ []) (hdigits : digits.all isHex)
  /-- Up to three octal digits. -/
  | octal (digits : List Char) (hne : digits ≠ []) (hlength : digits.length ≤ 3)
    (hdigits : digits.all isOctal)
  /-- A line end after a carriage return or a question mark. -/
  | lineEnd (first second : Char) (hfirst : first = '\r' ∨ first = '?') (hsecond : isLineEnd second)
  /-- Any other character. -/
  | character (c : Char) (hx : c ≠ 'x') (hu : c ≠ 'u') (hoctal : isOctal c = false)

namespace EscapeForm

def spelling : EscapeForm → List Char
  | byte digits _ _ => '\\' :: 'x' :: digits
  | unit digits _ _ => '\\' :: 'u' :: digits
  | braced digits _ _ => '\\' :: 'u' :: '\x7b' :: digits ++ ['\x7d']
  | octal digits _ _ _ => '\\' :: digits
  | lineEnd first second _ _ => ['\\', first, second]
  | character c _ _ _ => ['\\', c]

end EscapeForm

theorem exists_form_of_nameEscape {cs : List Char} {split : Split} (h : nameEscape? cs = some split) :
    ∃ form : EscapeForm, form.spelling = split.1 := by
  unfold nameEscape? at h
  split at h
  · next rest =>
    split at h
    · next d ds after htake _ =>
      cases h
      have hdigits : (d :: ds).all isHex := by
        rw [← htake]
        exact List.all_takeWhile
      exact ⟨.braced (d :: ds) (List.cons_ne_nil d ds) hdigits, rfl⟩
    · simp at h
  · next a b c d rest _ =>
    split at h
    · next hdigits =>
      cases h
      simp only [Bool.and_eq_true] at hdigits
      exact ⟨.unit [a, b, c, d] rfl (by simp [hdigits]), rfl⟩
    · simp at h
  · simp at h

theorem exists_form_of_escape {cs : List Char} {split : Split} (h : escape? cs = some split) :
    ∃ form : EscapeForm, form.spelling = split.1 := by
  unfold escape? at h
  split at h
  · next rest =>
    split at h
    · next a b after =>
      split at h
      · next hdigits =>
        cases h
        simp only [Bool.and_eq_true] at hdigits
        exact ⟨.byte [a, b] rfl (by simp [hdigits]), rfl⟩
      · simp at h
    · simp at h
  · exact exists_form_of_nameEscape h
  · next c rest hx hu =>
    split at h
    · next hoctal =>
      cases h
      refine ⟨.octal (c :: (rest.take 2).takeWhile isOctal) (List.cons_ne_nil _ _) ?_ ?_, rfl⟩
      · have hle := (List.takeWhile_sublist (l := rest.take 2) isOctal).length_le
        have htake := List.length_take_le 2 rest
        simp only [List.length_cons]
        omega
      · rw [List.all_cons, hoctal, List.all_takeWhile]
        rfl
    · next hoctal =>
      have hsingle : ∃ form : EscapeForm, form.spelling = ['\\', c] :=
        ⟨.character c (by simpa using hx) (by simpa using hu) (by simpa using hoctal), rfl⟩
      split at h
      · next hpair =>
        split at h
        · next d after =>
          split at h
          · next hline =>
            cases h
            exact ⟨.lineEnd c d hpair hline, rfl⟩
          · cases h
            exact hsingle
        · cases h
          exact hsingle
      · cases h
        exact hsingle
  · simp at h

/-- Each escape that is read as a token has one of the forms. -/
theorem EscapeToken.exists_form (token : EscapeToken) :
    ∃ form : EscapeForm, form.spelling = token.text := by
  obtain ⟨cs, rest, h⟩ := token.spelled
  exact exists_form_of_escape h

end Lexeme

/-! ## Hexadecimal numbers -/

def hexDigit (c : Char) : Nat :=
  if c.toNat ≤ 0x39 then c.toNat - 0x30
  else if c.toNat ≤ 0x46 then c.toNat - 0x41 + 10
  else c.toNat - 0x61 + 10

/-- The number that hexadecimal digits spell, after those that spell the given number. -/
def hexNumber (value : Nat) (digits : List Char) : Nat :=
  digits.foldl (fun n c ↦ n * 16 + hexDigit c) value

theorem isHex_iff {c : Char} :
    isHex c ↔ (0x30 ≤ c.toNat ∧ c.toNat ≤ 0x39) ∨ (0x61 ≤ c.toNat ∧ c.toNat ≤ 0x66) ∨
      (0x41 ≤ c.toNat ∧ c.toNat ≤ 0x46) := by
  simp only [isHex, isDigit, Bool.or_eq_true, Bool.and_eq_true, decide_eq_true_eq, Char.le_def,
    UInt32.le_iff_toNat_le, or_assoc]
  rfl

theorem isOctal_iff {c : Char} : isOctal c ↔ 0x30 ≤ c.toNat ∧ c.toNat ≤ 0x37 := by
  simp only [isOctal, Bool.and_eq_true, decide_eq_true_eq, Char.le_def, UInt32.le_iff_toNat_le]
  rfl

theorem digitValue?_of_isHex {c : Char} (h : isHex c) :
    (CodePoint.ofChar c).digitValue? = some (hexDigit c) := by
  rw [isHex_iff, ← CodePoint.ofChar_val] at h
  rw [CodePoint.digitValue?, hexDigit, ← CodePoint.ofChar_val]
  rcases h with h | h | h
  · rw [if_neg (by omega), if_neg (by omega), if_pos h.2, CodePoint.decimalValue?, CodePoint.zeros,
      List.find?_cons_of_pos (by simpa using ⟨h.1, Nat.lt_succ_of_le h.2⟩)]
    rfl
  · rw [if_pos h, if_neg (by omega), if_neg (by omega)]
  · rw [if_neg (by omega), if_pos h, if_neg (by omega), if_pos h.2]

theorem hexDigit_lt {c : Char} (h : isHex c) : hexDigit c < 16 := by
  rw [isHex_iff] at h
  unfold hexDigit
  split
  · omega
  · split
    · omega
    · omega

/-- Hexadecimal digits are read as the number that they spell. -/
theorem digits?_of_isHex {digits : List Char} (h : digits.all isHex) (value : Nat) (afterDigit : Bool)
    (hne : digits ≠ [] ∨ afterDigit = true) :
    Numeral.digits? 16 value afterDigit (Text.ofChars digits) = some (hexNumber value digits) := by
  induction digits generalizing value afterDigit with
  | nil =>
    rcases hne with hne | rfl
    · exact absurd rfl hne
    · rfl
  | cons c rest ih =>
    rw [List.all_cons, Bool.and_eq_true] at h
    have hc := isHex_iff.1 h.1
    show Numeral.digits? 16 value afterDigit (CodePoint.ofChar c :: Text.ofChars rest) = _
    rw [Numeral.digits?, if_neg (by rw [CodePoint.ofChar_val]; omega), digitValue?_of_isHex h.1]
    dsimp only
    rw [if_pos (hexDigit_lt h.1)]
    exact ih h.2 _ true (.inr rfl)

theorem dropWhile_eq_self {p : CodePoint → Bool} {t : Text} (h : ∀ c ∈ t, p c = false) :
    t.dropWhile p = t := by
  cases t with
  | nil => rfl
  | cons c rest =>
    apply List.dropWhile_cons_of_neg
    rw [h c List.mem_cons_self]
    exact Bool.false_ne_true

theorem trim_eq_self {p : CodePoint → Bool} {t : Text} (h : ∀ c ∈ t, p c = false) :
    ((t.dropWhile p).reverse.dropWhile p).reverse = t := by
  rw [dropWhile_eq_self h, dropWhile_eq_self fun c hc ↦ h c (List.mem_reverse.1 hc),
    List.reverse_reverse]

/-- Dropping a class of code points at both ends of a text leaves what is enclosed by them. -/
theorem trim_eq {p : CodePoint → Bool} {before t after : Text} (hne : t ≠ [])
    (hbefore : ∀ c ∈ before, p c) (ht : ∀ c ∈ t, p c = false) (hafter : ∀ c ∈ after, p c) :
    (((before ++ t ++ after).dropWhile p).reverse.dropWhile p).reverse = t := by
  have hleft : (before ++ t ++ after).dropWhile p = t ++ after := by
    rw [List.append_assoc, List.dropWhile_append_of_pos hbefore]
    obtain ⟨c, rest, rfl⟩ := List.exists_cons_of_ne_nil hne
    apply List.dropWhile_cons_of_neg
    rw [ht c List.mem_cons_self]
    exact Bool.false_ne_true
  have hright : (t ++ after).reverse.dropWhile p = t.reverse := by
    rw [List.reverse_append,
      List.dropWhile_append_of_pos fun c hc ↦ hafter c (List.mem_reverse.1 hc)]
    exact dropWhile_eq_self fun c hc ↦ ht c (List.mem_reverse.1 hc)
  rw [hleft, hright, List.reverse_reverse]

theorem mem_ofChars {digits : List Char} {c : CodePoint} (hdigits : digits.all isHex)
    (hc : c ∈ Text.ofChars digits) :
    (0x30 ≤ c.val ∧ c.val ≤ 0x39) ∨ (0x61 ≤ c.val ∧ c.val ≤ 0x66) ∨
      (0x41 ≤ c.val ∧ c.val ≤ 0x46) := by
  obtain ⟨digit, hdigit, rfl⟩ := List.mem_map.1 hc
  exact isHex_iff.1 (List.all_eq_true.1 hdigits digit hdigit)

theorem dropRadix_of_isHex {digits : List Char} (h : digits.all isHex) :
    Numeral.dropRadix 16 (Text.ofChars digits) = Text.ofChars digits := by
  match digits with
  | [] => rfl
  | [_] => rfl
  | c :: d :: rest =>
    have hd := mem_ofChars h (c := CodePoint.ofChar d) (by simp [Text.ofChars])
    unfold Numeral.dropRadix
    exact if_neg (by omega)

/-- Hexadecimal digits are read as the number that they spell. -/
theorem read?_of_isHex {digits : List Char} (hne : digits ≠ []) (h : digits.all isHex) :
    Numeral.read? 16 (Text.ofChars digits) = some (hexNumber 0 digits : Int) := by
  have hblank : ∀ c ∈ Text.ofChars digits, Numeral.isBlank c = false := by
    intro c hc
    have := mem_ofChars h hc
    simp only [Numeral.isBlank, CodePoint.isBlank, Bool.and_eq_false_iff, Bool.or_eq_false_iff,
      decide_eq_false_iff_not, beq_eq_false_iff_ne]
    omega
  obtain ⟨digit, rest, rfl⟩ := List.exists_cons_of_ne_nil hne
  have hdigit := mem_ofChars h (c := CodePoint.ofChar digit) List.mem_cons_self
  unfold Numeral.read?
  rw [trim_eq_self hblank]
  show (if (CodePoint.ofChar digit).val = 0x2D then _ else _) = _
  rw [if_neg (by omega), if_neg (by omega), Numeral.natural?, dropRadix_of_isHex h,
    digits?_of_isHex h 0 false (.inl hne)]
  rfl

/-- Digits spell a number below the power of the base that their count gives. -/
theorem foldl_digits_lt {α : Type} (base : Nat) (value : α → Nat) {digits : List α}
    (h : ∀ c ∈ digits, value c < base) (n : Nat) :
    digits.foldl (fun n c ↦ n * base + value c) n < (n + 1) * base ^ digits.length := by
  induction digits generalizing n with
  | nil => simp
  | cons c rest ih =>
    have hc := h c List.mem_cons_self
    have hstep : n * base + value c + 1 ≤ (n + 1) * base := by
      rw [Nat.add_mul]
      omega
    calc rest.foldl (fun n c ↦ n * base + value c) (n * base + value c)
        < (n * base + value c + 1) * base ^ rest.length :=
          ih (fun d hd ↦ h d (List.mem_cons_of_mem c hd)) _
      _ ≤ (n + 1) * base * base ^ rest.length := Nat.mul_le_mul_right _ hstep
      _ = (n + 1) * base ^ (c :: rest).length := by
          rw [List.length_cons, Nat.pow_succ, Nat.mul_assoc, Nat.mul_comm base]

theorem hexNumber_lt {digits : List Char} (h : digits.all isHex) :
    hexNumber 0 digits < 16 ^ digits.length := by
  have hlt := foldl_digits_lt 16 hexDigit (fun c hc ↦ hexDigit_lt (List.all_eq_true.1 h c hc)) 0
  rwa [Nat.zero_add, Nat.one_mul] at hlt

/-! ## Decoding -/

namespace Escape

/-- A number is read as a code point just when there is one; which fault it is else depends on its
size. -/
theorem codePoint_ofNat (n : Nat) :
    codePoint n =
      if h : n < 0x110000 then .ok [⟨n, h⟩]
      else .error (if n ≤ 0x7FFFFFFF then .outOfRange else .tooLarge) := by
  unfold codePoint
  by_cases hlarge : 0x7FFFFFFF < n
  · rw [if_pos (.inr (by omega)), dif_neg (by omega), if_neg (by omega)]
  · rw [if_neg (by omega)]
    simp only [Int.toNat_natCast]
    split
    · next h => rw [if_neg (by omega)]
    · rw [if_pos (by omega)]

theorem codePoint_of_lt {n : Nat} (h : n < 0x110000) : codePoint n = .ok [⟨n, h⟩] := by
  rw [codePoint_ofNat, dif_pos h]

/-- Hexadecimal digits are decoded to the code point with their number. -/
theorem hexadecimal_of_isHex {digits : List Char} (hne : digits ≠ []) (h : digits.all isHex) :
    hexadecimal (Text.ofChars digits) = codePoint (hexNumber 0 digits) := by
  rw [hexadecimal, read?_of_isHex hne h]

theorem isBrace_of_isHex {digits : List Char} (h : digits.all isHex) :
    ∀ c ∈ Text.ofChars digits, isBrace c = false := by
  intro c hc
  have := mem_ofChars h hc
  simp only [isBrace, Bool.or_eq_false_iff, beq_eq_false_iff_ne]
  omega

theorem decode_byte {digits : List Char} (hlength : digits.length = 2) (h : digits.all isHex) :
    decode (Text.ofChars ('\\' :: 'x' :: digits)) = codePoint (hexNumber 0 digits) := by
  have hne : digits ≠ [] := List.ne_nil_of_length_eq_add_one hlength
  have htwo : ((Text.ofChars digits).length == 2) = true := by
    rw [Text.ofChars, List.length_map, hlength]
    rfl
  rw [← hexadecimal_of_isHex hne h]
  show decodeBody (CodePoint.ofChar 'x' :: Text.ofChars digits) = _
  simp only [decodeBody, htwo, show simple? (CodePoint.ofChar 'x') = none from rfl,
    show isLineEnd (CodePoint.ofChar 'x') = false from rfl]
  simp

/-- What comes after `u` is decoded as the number between the braces. -/
theorem decode_unicode {digits : List Char} (hne : digits ≠ []) :
    decode (Text.ofChars ('\\' :: 'u' :: digits)) =
      hexadecimal (((Text.ofChars digits).dropWhile isBrace).reverse.dropWhile isBrace).reverse := by
  obtain ⟨c, rest, rfl⟩ := List.exists_cons_of_ne_nil hne
  rfl

theorem decode_unit {digits : List Char} (hlength : digits.length = 4) (h : digits.all isHex) :
    decode (Text.ofChars ('\\' :: 'u' :: digits)) = codePoint (hexNumber 0 digits) := by
  have hne : digits ≠ [] := List.ne_nil_of_length_eq_add_one hlength
  rw [decode_unicode hne, trim_eq_self (isBrace_of_isHex h), hexadecimal_of_isHex hne h]

/-- An escape `\u` with digits in braces, however many. -/
theorem decode_braced {digits : List Char} (hne : digits ≠ []) (h : digits.all isHex) :
    decode (Text.ofChars ('\\' :: 'u' :: '\x7b' :: digits ++ ['\x7d'])) =
      codePoint (hexNumber 0 digits) := by
  have htext : Text.ofChars ('\x7b' :: digits ++ ['\x7d']) =
      [CodePoint.ofChar '\x7b'] ++ Text.ofChars digits ++ [CodePoint.ofChar '\x7d'] := by
    simp [Text.ofChars]
  have hinside : Text.ofChars digits ≠ [] := by simpa [Text.ofChars] using hne
  have hbraces : '\x7b' :: digits ++ ['\x7d'] ≠ [] := List.cons_ne_nil _ _
  calc decode (Text.ofChars ('\\' :: 'u' :: ('\x7b' :: digits ++ ['\x7d'])))
      = hexadecimal (Text.ofChars digits) := by
        rw [decode_unicode hbraces, htext,
          trim_eq hinside (List.forall_mem_singleton.2 rfl) (isBrace_of_isHex h)
            (List.forall_mem_singleton.2 rfl)]
    _ = codePoint (hexNumber 0 digits) := hexadecimal_of_isHex hne h

/-- A character without a meaning of its own starts octal digits or stands for itself. -/
theorem decodeBody_plain {c : CodePoint} (rest : Text) (hsimple : simple? c = none)
    (hline : isLineEnd c = false) (hx : c ≠ CodePoint.ofChar 'x') (hu : c ≠ CodePoint.ofChar 'u') :
    decodeBody (c :: rest) =
      if (c :: rest).all isOctal then codePoint (octal (c :: rest)) else .ok (c :: rest) := by
  simp [decodeBody, hsimple, hline, hx, hu]

theorem isOctal_ofChar (c : Char) : isOctal (CodePoint.ofChar c) = JavaScript.isOctal c := by
  rw [Bool.eq_iff_iff, isOctal_iff, ← CodePoint.ofChar_val]
  simp only [isOctal, Bool.and_eq_true, decide_eq_true_eq]

theorem val_of_mem_octal {digits : List Char} (h : digits.all JavaScript.isOctal) {c : CodePoint}
    (hc : c ∈ Text.ofChars digits) : 0x30 ≤ c.val ∧ c.val ≤ 0x37 := by
  obtain ⟨digit, hdigit, rfl⟩ := List.mem_map.1 hc
  exact isOctal_iff.1 (List.all_eq_true.1 h digit hdigit)

theorem octal_lt {digits : List Char} (hlength : digits.length ≤ 3)
    (h : digits.all JavaScript.isOctal) : octal (Text.ofChars digits) < 0x110000 := by
  have hbound := foldl_digits_lt 8 (fun c : CodePoint ↦ c.val - 0x30)
    (fun c hc ↦ by have := val_of_mem_octal h hc; omega) 0
  have hpow : 8 ^ (Text.ofChars digits).length ≤ 8 ^ 3 :=
    Nat.pow_le_pow_right (by decide) (by rwa [Text.ofChars, List.length_map])
  rw [octal]
  omega

theorem decode_octal {digits : List Char} (hne : digits ≠ []) (h : digits.all JavaScript.isOctal) :
    decode (Text.ofChars ('\\' :: digits)) = codePoint (octal (Text.ofChars digits)) := by
  obtain ⟨c, rest, rfl⟩ := List.exists_cons_of_ne_nil hne
  have hc := val_of_mem_octal h (c := CodePoint.ofChar c) List.mem_cons_self
  have hall : (Text.ofChars (c :: rest)).all isOctal := by
    rwa [Text.ofChars, List.all_map, Function.comp_def, funext isOctal_ofChar]
  have hne : ∀ d : Char, 0x37 < d.toNat → CodePoint.ofChar c ≠ CodePoint.ofChar d := by
    intro d hd heq
    rw [heq, CodePoint.ofChar_val] at hc
    omega
  have hsimple : simple? (CodePoint.ofChar c) = none := by
    simp [simple?, hne]
  have hline : isLineEnd (CodePoint.ofChar c) = false := by
    simp only [isLineEnd, Bool.or_eq_false_iff, beq_eq_false_iff_ne]
    omega
  show decodeBody (CodePoint.ofChar c :: Text.ofChars rest) = _
  rw [decodeBody_plain _ hsimple hline (hne 'x' (by decide)) (hne 'u' (by decide))]
  exact if_pos hall

/-- An escaped carriage return stands for nothing, with the line end behind it; an escaped question mark
keeps both. -/
theorem decode_lineEnd {first second : Char} (hfirst : first = '\r' ∨ first = '?') :
    decode (Text.ofChars ['\\', first, second]) =
      .ok (if first = '\r' then [] else Text.ofChars [first, second]) := by
  rcases hfirst with rfl | rfl
  · rfl
  · rfl

def controls : List (Char × Char) :=
  [('b', '\x08'), ('f', '\x0c'), ('n', '\n'), ('r', '\r'), ('t', '\t'), ('v', '\x0b')]

/-- What a character stands for after a backslash, if it starts no number: a control character, nothing
if it ends a line, or itself. -/
def standsFor (c : Char) : List Char :=
  match controls.lookup c with
  | some control => [control]
  | none => if c = '\r' ∨ JavaScript.isLineEnd c then [] else [c]

theorem simple?_ofChar (c : Char) :
    simple? (CodePoint.ofChar c) = (controls.lookup c).map CodePoint.ofChar := by
  have hlookup (letter control : Char) (rest : List (Char × Char)) :
      ((letter, control) :: rest).lookup c = if c = letter then some control else rest.lookup c := by
    by_cases h : c = letter
    · simp [h]
    · rw [if_neg h, List.lookup_cons, beq_eq_false_iff_ne.2 h]
  simp only [simple?, controls, hlookup, List.lookup_nil, CodePoint.ofChar_inj,
    apply_ite (Option.map CodePoint.ofChar), Option.map_some, Option.map_none]

theorem isLineEnd_ofChar (c : Char) :
    isLineEnd (CodePoint.ofChar c) = true ↔ c = '\r' ∨ JavaScript.isLineEnd c := by
  simp only [isLineEnd, JavaScript.isLineEnd, CodePoint.ofChar_val, Bool.or_eq_true, beq_iff_eq,
    ← Char.toNat_inj]
  show ((c.toNat = 0x0A ∨ c.toNat = 0x0D) ∨ c.toNat = 0x2028) ∨ c.toNat = 0x2029 ↔
    c.toNat = 0x0D ∨ (c.toNat = 0x0A ∨ c.toNat = 0x2028) ∨ c.toNat = 0x2029
  omega

/-- An escaped character stands for a control character, for nothing or for itself. -/
theorem decode_character {c : Char} (hoctal : JavaScript.isOctal c = false) :
    decode (Text.ofChars ['\\', c]) = .ok (Text.ofChars (standsFor c)) := by
  have hall : [CodePoint.ofChar c].all isOctal = false := by
    simp [isOctal_ofChar, hoctal]
  show decodeBody [CodePoint.ofChar c] = _
  rw [decodeBody, simple?_ofChar, standsFor]
  simp only [List.isEmpty_nil, Bool.true_and, Bool.not_true, Bool.and_false, hall]
  cases controls.lookup c with
  | some control => rfl
  | none =>
    by_cases hline : c = '\r' ∨ JavaScript.isLineEnd c
    · simp [hline, (isLineEnd_ofChar c).2 hline, Text.ofChars]
    · simp [hline, mt (isLineEnd_ofChar c).1 hline, Text.ofChars]

end Escape

/-- The number that an escape sequence gives in braces. -/
def bracedNumber? : List Char → Option Nat
  | '\\' :: 'u' :: '\x7b' :: rest => some (hexNumber 0 rest.dropLast)
  | _ => none

theorem bracedNumber?_braced (digits : List Char) :
    bracedNumber? ('\\' :: 'u' :: '\x7b' :: digits ++ ['\x7d']) = some (hexNumber 0 digits) := by
  show some (hexNumber 0 (digits ++ ['\x7d']).dropLast) = _
  rw [List.dropLast_concat]

theorem bracedNumber?_unit {digits : List Char} (h : digits.all isHex) :
    bracedNumber? ('\\' :: 'u' :: digits) = none := by
  unfold bracedNumber?
  split
  · next rest heq =>
    -- The brace would be one of the digits.
    cases heq
    simp [isHex, isDigit] at h
  · rfl

theorem bracedNumber?_octal {digits : List Char} (h : digits.all isOctal) :
    bracedNumber? ('\\' :: digits) = none := by
  unfold bracedNumber?
  split
  · next rest heq =>
    cases heq
    simp [isOctal] at h
  · rfl

/-- Why an escape sequence denotes no text: the number in braces is beyond the last code point. -/
def Lexeme.EscapeToken.fault? (token : EscapeToken) : Option EscapeFault :=
  (bracedNumber? token.text).bind fun n ↦
    if n ≤ 0x10FFFF then none else some (if n ≤ 0x7FFFFFFF then .outOfRange else .tooLarge)

/-- An escape sequence gives no number in braces and denotes some text, or it denotes what its number
does. -/
theorem decode_spelling (form : Lexeme.EscapeForm) :
    (bracedNumber? form.spelling = none ∧
        ∃ t, Escape.decode (Text.ofChars form.spelling) = .ok t) ∨
      ∃ n : Nat, bracedNumber? form.spelling = some n ∧
        Escape.decode (Text.ofChars form.spelling) = Escape.codePoint n := by
  cases form with
  | byte digits hlength hdigits =>
    have hlt := hexNumber_lt hdigits
    rw [hlength] at hlt
    refine .inl ⟨rfl, _, (Escape.decode_byte hlength hdigits).trans (Escape.codePoint_of_lt ?_)⟩
    omega
  | unit digits hlength hdigits =>
    have hlt := hexNumber_lt hdigits
    rw [hlength] at hlt
    refine .inl ⟨bracedNumber?_unit hdigits, _,
      (Escape.decode_unit hlength hdigits).trans (Escape.codePoint_of_lt ?_)⟩
    omega
  | braced digits hne hdigits =>
    exact .inr ⟨_, bracedNumber?_braced digits, Escape.decode_braced hne hdigits⟩
  | octal digits hne hlength hdigits =>
    exact .inl ⟨bracedNumber?_octal hdigits, _, (Escape.decode_octal hne hdigits).trans
      (Escape.codePoint_of_lt (Escape.octal_lt hlength hdigits))⟩
  | lineEnd first second hfirst hsecond =>
    refine .inl ⟨?_, _, Escape.decode_lineEnd hfirst⟩
    rcases hfirst with rfl | rfl
    · rfl
    · rfl
  | character c hx hu hoctal =>
    refine .inl ⟨?_, _, Escape.decode_character hoctal⟩
    unfold bracedNumber?
    split
    · next heq => cases heq
    · rfl

/-- Decoding an escape sequence fails just when it gives a number in braces that is beyond the last code
point. -/
theorem decode_eq_error_iff {token : Lexeme.EscapeToken} {fault : EscapeFault} :
    Escape.decode (Text.ofChars token.text) = .error fault ↔ token.fault? = some fault := by
  obtain ⟨form, hform⟩ := token.exists_form
  unfold Lexeme.EscapeToken.fault?
  rw [← hform]
  rcases decode_spelling form with ⟨hnone, t, hdecode⟩ | ⟨n, hsome, hdecode⟩
  · rw [hnone, hdecode]
    simp
  · rw [hsome, hdecode, Escape.codePoint_ofNat]
    by_cases hn : n < 0x110000
    · rw [dif_pos hn, Option.bind_some, if_pos (by omega)]
      simp
    · rw [dif_neg hn, Option.bind_some, if_neg (show ¬n ≤ 0x10FFFF by omega)]
      simp

/-! ## String literals -/

/-- A computation on each element of a list fails with the fault of the first element that has one. -/
theorem mapM_eq_error_iff {α β ε : Type} {f : α → Except ε β} {fault? : α → Option ε} {xs : List α}
    {fault : ε} (h : ∀ x ∈ xs, ∀ fault, f x = .error fault ↔ fault? x = some fault) :
    xs.mapM f = .error fault ↔ xs.findSome? fault? = some fault := by
  induction xs with
  | nil => simp [pure, Except.pure]
  | cons x xs ih =>
    rw [List.mapM_cons, List.findSome?_cons]
    cases hx : f x with
    | error first =>
      rw [(h x List.mem_cons_self first).1 hx]
      simp [bind, Except.bind]
    | ok value =>
      have hnone : fault? x = none := by
        rw [Option.eq_none_iff_forall_ne_some]
        intro first hfirst
        rw [← h x List.mem_cons_self, hx] at hfirst
        cases hfirst
      rw [hnone]
      dsimp only
      rw [← ih fun y hy ↦ h y (List.mem_cons_of_mem x hy)]
      cases xs.mapM f with
      | error first => rfl
      | ok values => simp [bind, Except.bind, pure, Except.pure]

namespace Node

def escape? (piece : Node) : Option Lexeme.EscapeToken :=
  match piece.kind with
  | .escapeSequence token => some token
  | _ => none

def literalFaults (literal : Node) : List EscapeFault :=
  literal.children.filterMap fun piece ↦ piece.escape?.bind Lexeme.EscapeToken.fault?

/-- A string literal has a stray escape: one that gives a number beyond the last code point. -/
def HasStrayEscape (literal : Node) : Prop :=
  ∃ piece ∈ literal.children, ∃ token, piece.kind = .escapeSequence token ∧
    ∃ n, bracedNumber? token.text = some n ∧ 0x10FFFF < n

theorem hasStrayEscape_of_mem {literal : Node} {fault : EscapeFault}
    (h : fault ∈ literal.literalFaults) : literal.HasStrayEscape := by
  obtain ⟨piece, hpiece, hfault⟩ := List.mem_filterMap.1 h
  obtain ⟨token, htoken, hfault⟩ := Option.bind_eq_some_iff.1 hfault
  obtain ⟨n, hn, hfault⟩ := Option.bind_eq_some_iff.1 hfault
  have hkind : piece.kind = .escapeSequence token := by
    unfold escape? at htoken
    split at htoken
    · next hkind =>
      cases htoken
      exact hkind
    · cases htoken
  refine ⟨piece, hpiece, token, hkind, n, hn, Nat.lt_of_not_le fun hle ↦ ?_⟩
  rw [if_pos hle] at hfault
  cases hfault

/-- The only pieces without a value are escapes with a fault. -/
theorem pieceValue_eq_error_iff {piece : Node} {fault : EscapeFault} :
    piece.pieceValue = .error fault ↔
      piece.escape?.bind Lexeme.EscapeToken.fault? = some fault := by
  unfold pieceValue escape?
  split
  · next token hkind =>
    rw [hkind]
    exact decode_eq_error_iff
  · next hkind =>
    rw [hkind]
    simp
  · next hescape _ =>
    split
    · next token hkind => exact absurd hkind (hescape token)
    · simp

/-- A string literal has a value unless one of its escape sequences has a fault. -/
theorem stringValue_eq_error_iff {literal : Node} {fault : EscapeFault} :
    literal.stringValue = .error fault ↔ literal.literalFaults.head? = some fault := by
  have hpieces : literal.stringValue = .error fault ↔
      literal.children.mapM pieceValue = .error fault := by
    unfold stringValue
    cases literal.children.mapM pieceValue with
    | error first => simp [bind, Except.bind]
    | ok pieces => simp [bind, Except.bind, pure, Except.pure]
  rw [hpieces, mapM_eq_error_iff fun _ _ _ ↦ pieceValue_eq_error_iff, literalFaults,
    List.head?_filterMap]

end Node

end ClassScript.JavaScript
