import ClassScript.Point
import ClassScript.Proofs.Position
import Mathlib.Data.List.DropRight
import Mathlib.Data.List.Forall2

/-!
# Positions of points

An offset into a source, counted in characters, has a point in the encoded source, and the position
of that point is the one that walking over the characters gives. So nothing malformed is ever
decoded for it, its line is one more than the line feeds before the offset, and its column is the
number of UTF-16 units after the last of them. Positions are in the order of the offsets.
-/

namespace ClassScript

/-! ## Decoding what was encoded -/

namespace Utf8

def InRange (range : Nat × Nat) (b : UInt8) : Prop := range.1 ≤ b.toNat ∧ b.toNat ≤ range.2

theorem fitting_append {ranges : List (Nat × Nat)} {tail : List UInt8}
    (h : ranges.Forall₂ InRange tail) (rest : List UInt8) :
    fitting ranges (tail ++ rest) = ranges.length := by
  induction h with
  | nil => cases rest <;> rfl
  | cons hb _ ih =>
    rw [List.cons_append, fitting, ih, List.length_cons]
    exact if_pos hb

/-- A first byte and bytes that may follow it are decoded to one code point. -/
theorem decode_cons_append {first : UInt8} {tail : List UInt8} (hfirst : 0x80 ≤ first.toNat)
    (hne : tail ≠ []) (h : (followers first.toNat).Forall₂ InRange tail) (rest : List UInt8) :
    decode (first :: (tail ++ rest)) =
      some (Fin.ofNat 0x110000 (number first.toNat tail)) :: decode rest := by
  have hlength := h.length_eq
  have hranges : followers first.toNat ≠ [] := by
    intro hnil
    rw [hnil] at hlength
    exact hne (List.length_eq_zero_iff.1 hlength.symm)
  rw [decode, if_neg (by omega)]
  simp only [fitting_append h, hlength, List.take_left, List.drop_left]
  simp [hranges]

/-- A first byte and those that follow it are decoded to the number that they encode, if they are in
range. -/
theorem decode_sequence {first v : Nat} (tail : List Nat) (hne : tail ≠ [])
    (hfirst : 0x80 ≤ first ∧ first < 0x100)
    (hrange : (followers first).Forall₂ (fun range b ↦ range.1 ≤ b ∧ b ≤ range.2 ∧ b < 0x100) tail)
    (hnumber : tail.foldl (fun n b ↦ n * 64 + b % 64) (first % Nat.pow 2 (6 - tail.length)) = v)
    (rest : List UInt8) :
    decode (UInt8.ofNat first :: (tail.map UInt8.ofNat ++ rest)) =
      some (Fin.ofNat 0x110000 v) :: decode rest := by
  have htoNat {n : Nat} (h : n < 0x100) : (UInt8.ofNat n).toNat = n := Nat.mod_eq_of_lt h
  have hfollowers : (followers (UInt8.ofNat first).toNat).Forall₂ InRange (tail.map UInt8.ofNat) := by
    rw [htoNat hfirst.2, List.forall₂_map_right_iff]
    refine hrange.imp fun range b hb ↦ ?_
    rw [InRange, htoNat hb.2.2]
    exact ⟨hb.1, hb.2.1⟩
  have hvalue : number (UInt8.ofNat first).toNat (tail.map UInt8.ofNat) = v := by
    have hdigit (b : Nat) : (UInt8.ofNat b).toNat % 64 = b % 64 :=
      Nat.mod_mod_of_dvd b (by decide)
    rw [← hnumber, number, htoNat hfirst.2, List.length_map, List.foldl_map]
    simp only [hdigit]
  rw [← hvalue]
  apply decode_cons_append _ _ hfollowers
  · rw [htoNat hfirst.2]
    exact hfirst.1
  · simpa using hne

/-- A character is decoded from its own bytes, whatever follows. -/
theorem decode_encodeChar (c : Char) (rest : List UInt8) :
    decode (String.utf8EncodeChar c ++ rest) = some (CodePoint.ofChar c) :: decode rest := by
  have hvalid := c.valid
  simp only [UInt32.isValidChar, Nat.isValidChar] at hvalid
  have hpoint : CodePoint.ofChar c = Fin.ofNat 0x110000 c.val.toNat := by
    apply Fin.ext
    exact (Nat.mod_eq_of_lt (CodePoint.ofChar c).isLt).symm
  rw [hpoint]
  unfold String.utf8EncodeChar
  generalize c.val.toNat = v at hvalid
  dsimp only
  split
  · have htoNat : (UInt8.ofNat v).toNat = v := Nat.mod_eq_of_lt (show v < 256 by omega)
    rw [List.singleton_append, decode, htoNat, if_pos (by omega)]
  · split
    · apply decode_sequence [_]
      · exact List.cons_ne_nil _ _
      · omega
      · rw [followers, if_neg (by omega), if_pos (by omega)]
        simp
        omega
      · simp
        omega
    · split
      · apply decode_sequence [_, _]
        · exact List.cons_ne_nil _ _
        · omega
        · unfold followers
          split_ifs <;> simp <;> omega
        · simp
          omega
      · apply decode_sequence [_, _, _]
        · exact List.cons_ne_nil _ _
        · omega
        · unfold followers
          split_ifs <;> simp <;> omega
        · simp
          omega

theorem decode_encode (cs : List Char) :
    decode (encode cs) = cs.map fun c ↦ some (CodePoint.ofChar c) := by
  induction cs with
  | nil => simp [encode, decode]
  | cons c rest ih => rw [encode, List.flatMap_cons, decode_encodeChar, ← encode, ih, List.map_cons]

/-- Nothing is replaced in bytes that encode a text. -/
theorem decodeReplacing_encode (cs : List Char) : decodeReplacing (encode cs) = Text.ofChars cs := by
  rw [decodeReplacing, decode_encode, List.map_map]
  rfl

theorem encode_append (a b : List Char) : encode (a ++ b) = encode a ++ encode b :=
  List.flatMap_append

/-- Lines can be split before bytes are decoded: no other character has the byte of a line feed. -/
theorem lineFeed_not_mem_encodeChar {c : Char} (h : c ≠ '\n') : 0x0A ∉ String.utf8EncodeChar c := by
  have hval : c.val.toNat ≠ 0x0A := fun heq ↦ h (Char.ext (UInt32.toNat_inj.1 heq))
  have hbyte {n : Nat} (hn : n % 0x100 ≠ 0x0A) : 0x0A ≠ UInt8.ofNat n := fun heq ↦
    hn (congrArg UInt8.toNat heq).symm
  unfold String.utf8EncodeChar
  generalize c.val.toNat = v at hval
  dsimp only
  split
  · exact List.not_mem_cons_of_ne_of_not_mem (hbyte (by omega)) List.not_mem_nil
  · split
    · simp only [List.mem_cons, List.not_mem_nil, or_false, not_or]
      exact ⟨hbyte (by omega), hbyte (by omega)⟩
    · split
      · simp only [List.mem_cons, List.not_mem_nil, or_false, not_or]
        exact ⟨hbyte (by omega), hbyte (by omega), hbyte (by omega)⟩
      · simp only [List.mem_cons, List.not_mem_nil, or_false, not_or]
        exact ⟨hbyte (by omega), hbyte (by omega), hbyte (by omega), hbyte (by omega)⟩

end Utf8

/-! ## Lines -/

def lastLine (cs : List Char) : List Char := cs.rtakeWhile (· != '\n')

theorem lastLine_concat_lineFeed (cs : List Char) : lastLine (cs ++ ['\n']) = [] := by
  simp [lastLine]

theorem lastLine_concat {c : Char} (h : c ≠ '\n') (cs : List Char) :
    lastLine (cs ++ [c]) = lastLine cs ++ [c] := by
  simp [lastLine, h]

namespace Point

theorem exists_splitLines (bytes : List UInt8) : ∃ line more, splitLines bytes = line :: more := by
  cases bytes with
  | nil => exact ⟨_, _, rfl⟩
  | cons b rest =>
    rw [splitLines]
    split
    · exact ⟨_, _, rfl⟩
    · split
      · exact ⟨_, _, rfl⟩
      · exact ⟨_, _, rfl⟩

theorem splitLines_append {bytes rest line : List UInt8} {more : List (List UInt8)}
    (h : 0x0A ∉ bytes) (hrest : splitLines rest = line :: more) :
    splitLines (bytes ++ rest) = (bytes ++ line) :: more := by
  induction bytes with
  | nil => exact hrest
  | cons b bytes ih =>
    rw [List.mem_cons, not_or] at h
    rw [List.cons_append, splitLines, if_neg (Ne.symm h.1), ih h.2, List.cons_append]

/-- The lines of encoded characters and what follows them, from the line of the last character on. -/
theorem drop_splitLines (cs : List Char) {rest line : List UInt8} {more : List (List UInt8)}
    (hrest : splitLines rest = line :: more) :
    (splitLines (Utf8.encode cs ++ rest)).drop (cs.count '\n') =
      (Utf8.encode (lastLine cs) ++ line) :: more := by
  induction cs using List.reverseRecOn generalizing rest line more with
  | nil => exact hrest
  | append_singleton cs c ih =>
    rw [Utf8.encode_append, List.append_assoc]
    by_cases hc : c = '\n'
    · subst hc
      have hfeed : splitLines (Utf8.encode ['\n'] ++ rest) = [] :: line :: more := by
        show splitLines (0x0A :: rest) = _
        rw [splitLines, if_pos rfl, hrest]
      rw [lastLine_concat_lineFeed, List.count_append, List.count_singleton_self, ← List.drop_drop,
        ih hfeed]
      rfl
    · have hchar : splitLines (Utf8.encode [c] ++ rest) = (Utf8.encode [c] ++ line) :: more := by
        apply splitLines_append _ hrest
        simpa [Utf8.encode] using Utf8.lineFeed_not_mem_encodeChar hc
      rw [lastLine_concat hc, Utf8.encode_append, List.append_assoc, List.count_append,
        List.count_singleton, beq_eq_false_iff_ne.2 hc]
      exact ih hchar

/-- The point of an offset: the number of line feeds before it, and the number of bytes after the
last of them. -/
def ofOffset (source : List Char) (offset : Nat) : Point :=
  ⟨(source.take offset).count '\n', (Utf8.encode (lastLine (source.take offset))).length⟩

/-- The bytes before a point on its line encode the characters there. -/
theorem before_ofOffset (source : List Char) (offset : Nat) :
    (ofOffset source offset).before (lines source) = Utf8.encode (lastLine (source.take offset)) := by
  obtain ⟨line, more, hrest⟩ := exists_splitLines (Utf8.encode (source.drop offset))
  have hdrop := drop_splitLines (source.take offset) hrest
  rw [← Utf8.encode_append, List.take_append_drop] at hdrop
  have hline : (lines source)[(source.take offset).count '\n']? =
      some (Utf8.encode (lastLine (source.take offset)) ++ line) := by
    rw [lines, ← List.head?_drop, hdrop]
    rfl
  rw [before, ofOffset, hline]
  exact List.take_left

end Point

/-! ## Walking over the characters -/

namespace Position

theorem width_eq (c : Char) : width c = ((CodePoint.ofChar c).units.length : Int) := by
  rw [width, CodePoint.units, CodePoint.ofChar_val]
  split
  · rfl
  · rfl

theorem after_concat (p : Position) (cs : List Char) (c : Char) :
    p.after (cs ++ [c]) = (p.after cs).advance c := by
  rw [after, List.foldl_concat, after]

/-- Reading on counts the lines, and the code units of the last one. -/
theorem after_origin (cs : List Char) :
    origin.after cs = ⟨cs.count '\n' + 1, (Text.ofChars (lastLine cs)).units.length⟩ := by
  induction cs using List.reverseRecOn with
  | nil => rfl
  | append_singleton cs c ih =>
    rw [after_concat, ih, advance]
    by_cases hc : c = '\n'
    · subst hc
      rw [if_pos rfl, lastLine_concat_lineFeed, List.count_append, List.count_singleton_self]
      simp [Text.ofChars, Text.units]
    · rw [if_neg hc, lastLine_concat hc, List.count_append, width_eq]
      simp [Text.ofChars, Text.units, hc]

theorem lt_advance (p : Position) (c : Char) : p < p.advance c := by
  rw [advance, lt_def]
  split
  · left
    show p.line < p.line + 1
    omega
  · right
    have hwidth : 0 < width c := by
      rw [width]
      split
      · decide
      · decide
    exact ⟨rfl, by show p.column < p.column + width c; omega⟩

theorem le_after (p : Position) (cs : List Char) : p ≤ p.after cs := by
  induction cs using List.reverseRecOn with
  | nil => exact le_refl p
  | append_singleton cs c ih => exact after_concat p cs c ▸ ih.trans (lt_advance _ c).le

theorem ofOffset_lt {source : List Char} {a b : Nat} (hab : a < b) (hb : b ≤ source.length) :
    ofOffset source a < ofOffset source b := by
  have hstep : ofOffset source a < ofOffset source (a + 1) := by
    rw [ofOffset, ofOffset, List.take_succ_eq_append_getElem (by omega), after_concat]
    exact lt_advance _ _
  have hrest : ofOffset source (a + 1) ≤ ofOffset source b := by
    have htake : source.take b = source.take (a + 1) ++ (source.drop (a + 1)).take (b - (a + 1)) := by
      rw [← List.take_add, Nat.add_sub_cancel' hab]
    rw [ofOffset, ofOffset, htake, after, after, List.foldl_append]
    exact le_after _ _
  exact hstep.trans_le hrest

theorem compare_eq_gt {a b : Position} : a.compare b = .gt ↔ b < a := by
  simp only [compare, lt_def]
  grind

theorem compare_self (a : Position) : a.compare a = .eq := by
  simp [compare]

/-- Positions are compared as the offsets are. -/
theorem compare_ofOffset {source : List Char} {a b : Nat} (ha : a ≤ source.length)
    (hb : b ≤ source.length) :
    (ofOffset source a).compare (ofOffset source b) = Ord.compare a b := by
  rcases Nat.lt_trichotomy a b with hab | rfl | hba
  · rw [compare_eq_lt.2 (ofOffset_lt hab hb), Nat.compare_eq_lt.2 hab]
  · rw [compare_self, Nat.compare_eq_eq.2 rfl]
  · rw [compare_eq_gt.2 (ofOffset_lt hba ha), Nat.compare_eq_gt.2 hba]

end Position

namespace Point

/-- What the position of the point of an offset is. -/
structure Converts (source : List Char) (offset : Nat) : Prop where
  /-- Nothing that is decoded for it is malformed. -/
  wellFormed : none ∉ Utf8.decode ((ofOffset source offset).before (lines source))
  line : ((ofOffset source offset).position (lines source)).line =
    (source.take offset).count '\n' + 1
  column : ((ofOffset source offset).position (lines source)).column =
    (Text.ofChars (lastLine (source.take offset))).units.length
  /-- It is the position that walking over the characters gives. -/
  walked : (ofOffset source offset).position (lines source) = Position.ofOffset source offset

/-- A point is at the line and the code unit at which its offset is. -/
theorem position_ofOffset (source : List Char) (offset : Nat) :
    (ofOffset source offset).position (lines source) =
      ⟨(source.take offset).count '\n' + 1,
        (Text.ofChars (lastLine (source.take offset))).units.length⟩ := by
  rw [position, before_ofOffset, Utf8.decodeReplacing_encode]
  rfl

theorem converts (source : List Char) (offset : Nat) : Converts source offset := by
  refine ⟨?_, ?_, ?_, ?_⟩
  · rw [before_ofOffset, Utf8.decode_encode]
    simp
  · rw [position_ofOffset]
  · rw [position_ofOffset]
  · rw [position_ofOffset, Position.ofOffset, Position.after_origin]

/-- The points of all offsets into a source are converted exactly, and the order of the positions is
the order of the source. -/
theorem position_embedding (source : List Char) :
    (∀ offset ≤ source.length, Converts source offset) ∧
      ∀ a ≤ source.length, ∀ b ≤ source.length,
        ((ofOffset source a).position (lines source)).compare
          ((ofOffset source b).position (lines source)) = Ord.compare a b := by
  refine ⟨fun offset _ ↦ converts source offset, ?_⟩
  intro a ha b hb
  rw [(converts source a).walked, (converts source b).walked, Position.compare_ofOffset ha hb]

/-- A byte order mark, a carriage return and characters of one to four bytes on two lines. -/
def markedSource : List Char := [Char.ofNat 0xFEFF, 'ä', '\r', '\n', '€', Char.ofNat 0x1F600, 'x']

theorem position_markedSource :
    position (lines markedSource) ⟨0, 5⟩ = ⟨1, 2⟩ ∧ position (lines markedSource) ⟨1, 7⟩ = ⟨2, 3⟩ ∧
      (position (lines markedSource) ⟨0, 5⟩).compare (position (lines markedSource) ⟨1, 7⟩) = .lt := by
  have hfirst : ofOffset markedSource 2 = ⟨0, 5⟩ := by decide
  have hsecond : ofOffset markedSource 6 = ⟨1, 7⟩ := by decide
  have hmarked := position_embedding markedSource
  rw [← hfirst, ← hsecond]
  refine ⟨?_, ?_, hmarked.2 2 (by decide) 6 (by decide)⟩
  · rw [(hmarked.1 2 (by decide)).walked]
    decide
  · rw [(hmarked.1 6 (by decide)).walked]
    decide

end Point

end ClassScript
