import LayoutDesigner.Text.Utf8
import Mathlib.Data.List.Basic
import Mathlib.Tactic.SplitIfs

/-!
# UTF-8 is read back

Bytes are read as a text exactly where they are the encoding of that text. So no text has two
encodings, and what is no encoding is not read.
-/

namespace LayoutDesigner.Text

variable {c : CodePoint} {n low high : Nat} {a b d e : UInt8} {bytes : List UInt8} {t : Text}

/-- A code point is known by its number. -/
theorem ofNat_val (c : CodePoint) : CodePoint.ofNat c.val = c := dif_pos c.isLt

/-- A number in the range of code points is that of one. -/
theorem val_ofNat (bound : n < 0x110000) : (CodePoint.ofNat n).val = n := by
  rw [CodePoint.ofNat, dif_pos bound]

/-- What is no surrogate is below or above their range. -/
theorem isSurrogate_eq_false : c.isSurrogate = false ↔ c.val < 0xD800 ∨ 0xDFFF < c.val := by
  simp only [CodePoint.isSurrogate, Bool.and_eq_false_iff, decide_eq_false_iff_not]
  omega

/-- A tail is between its bounds. -/
theorem isTail_eq_true : isTail low high b = true ↔ low ≤ b.toNat ∧ b.toNat ≤ high := by
  simp only [isTail, Bool.and_eq_true, decide_eq_true_eq]

/-- A small number is that of its byte. -/
theorem toNat_byte (small : n < 256) : (UInt8.ofNat n).toNat = n := by
  simpa using Nat.mod_eq_of_lt small

/-- A byte with six bits of a number continues a code point. -/
theorem isTail_byte (n : Nat) : isTail 0x80 0xBF (UInt8.ofNat (0x80 + n % 64)) = true := by
  rw [isTail_eq_true, toNat_byte (by omega)]
  omega

/-- A tail has the six low bits of its number. -/
theorem tailBits_byte (n : Nat) : tailBits (UInt8.ofNat (0x80 + n % 64)) = n % 64 := by
  rw [tailBits, toNat_byte (by omega)]
  omega

/-- A point of two bytes begins with one that asks for one tail. -/
theorem begins_two (least : 0x80 ≤ n) (bound : n < 0x800) :
    sequenceOf (UInt8.ofNat (0xC0 + n / 64)) = some (0x80, 0xBF, 1) := by
  unfold sequenceOf
  rw [toNat_byte (by omega)]
  exact if_pos (by omega)

/-- The first two of three bytes: no shorter encoding would do, and there is none of a surrogate. -/
theorem begins_three (least : 0x800 ≤ n) (bound : n < 0x10000) (plain : n < 0xD800 ∨ 0xDFFF < n) :
    ∃ low high, sequenceOf (UInt8.ofNat (0xE0 + n / 4096)) = some (low, high, 2) ∧
      isTail low high (UInt8.ofNat (0x80 + n / 64 % 64)) = true := by
  simp only [isTail_eq_true, sequenceOf, toNat_byte (show 0xE0 + n / 4096 < 256 by omega),
    toNat_byte (show 0x80 + n / 64 % 64 < 256 by omega)]
  rw [if_neg (by omega)]
  split_ifs
  · exact ⟨_, _, rfl, by omega⟩
  · exact ⟨_, _, rfl, by omega⟩
  · exact ⟨_, _, rfl, by omega⟩
  all_goals omega

/-- The first two of four bytes: no shorter encoding would do, and the last code point is the greatest. -/
theorem begins_four (least : 0x10000 ≤ n) (bound : n < 0x110000) :
    ∃ low high, sequenceOf (UInt8.ofNat (0xF0 + n / 262144)) = some (low, high, 3) ∧
      isTail low high (UInt8.ofNat (0x80 + n / 4096 % 64)) = true := by
  simp only [isTail_eq_true, sequenceOf, toNat_byte (show 0xF0 + n / 262144 < 256 by omega),
    toNat_byte (show 0x80 + n / 4096 % 64 < 256 by omega)]
  rw [if_neg (by omega), if_neg (by omega), if_neg (by omega), if_neg (by omega)]
  split_ifs
  · exact ⟨_, _, rfl, by omega⟩
  · exact ⟨_, _, rfl, by omega⟩
  · exact ⟨_, _, rfl, by omega⟩
  · omega

/-- Reading takes one encoded code point at a time. -/
theorem decodeBytes_encodePoint (plain : c.isSurrogate = false) (rest : List UInt8) :
    decodeBytes (encodePoint c ++ rest) = (c :: (decodeBytes rest).1, (decodeBytes rest).2) := by
  have bound := c.isLt
  have same : ∀ {n : Nat}, n = c.val → CodePoint.ofNat n = c := fun isValue => isValue ▸ ofNat_val c
  unfold encodePoint
  dsimp only
  split
  · next one =>
      rw [List.singleton_append, decodeBytes, toNat_byte (by omega), if_pos one, ofNat_val]
  · next one =>
      split
      · next two =>
          have lead : (UInt8.ofNat (0xC0 + c.val / 64)).toNat = 0xC0 + c.val / 64 := toNat_byte (by omega)
          simp only [List.cons_append, List.nil_append]
          rw [decodeBytes, lead, if_neg (by omega), begins_two (by omega) two]
          simp only [isTail_byte, tailBits_byte, Bool.not_true, Bool.false_eq_true, if_false, if_true]
          rw [same (by omega)]
      · next two =>
          split
          · next three =>
              have lead : (UInt8.ofNat (0xE0 + c.val / 4096)).toNat = 0xE0 + c.val / 4096 := toNat_byte (by omega)
              obtain ⟨low, high, begins, continues⟩ :=
                begins_three (by omega) three (isSurrogate_eq_false.mp plain)
              simp only [List.cons_append, List.nil_append]
              rw [decodeBytes, lead, if_neg (by omega), begins]
              simp only [continues, isTail_byte, tailBits_byte, Bool.not_true, Bool.false_eq_true, if_false,
                if_true, show (2 : Nat) ≠ 1 by decide]
              rw [same (by omega)]
          · next three =>
              have lead : (UInt8.ofNat (0xF0 + c.val / 262144)).toNat = 0xF0 + c.val / 262144 := toNat_byte (by omega)
              obtain ⟨low, high, begins, continues⟩ := begins_four (n := c.val) (by omega) bound
              simp only [List.cons_append, List.nil_append]
              rw [decodeBytes, lead, if_neg (by omega), begins]
              simp only [continues, isTail_byte, tailBits_byte, Bool.not_true, Bool.false_eq_true, if_false,
                show (3 : Nat) ≠ 1 by decide, show (3 : Nat) ≠ 2 by decide]
              rw [same (by omega)]

/-- A byte is known by its number. -/
theorem byte_eq (isValue : n = a.toNat) : UInt8.ofNat n = a := by
  rw [isValue, UInt8.ofNat_toNat]

/-- The bytes are the encoding of a code point that has one. -/
def Encodes (bytes : List UInt8) (c : CodePoint) : Prop := c.isSurrogate = false ∧ encodePoint c = bytes

/-- A small byte encodes the point of its number. -/
theorem encodes_one (small : a.toNat < 0x80) : Encodes [a] (CodePoint.ofNat a.toNat) := by
  have value := val_ofNat (n := a.toNat) (by omega)
  refine ⟨isSurrogate_eq_false.mpr (by omega), ?_⟩
  rw [encodePoint, value, if_pos small]
  exact congrArg (· :: []) (byte_eq rfl)

/-- What a first byte says of the second byte and of how many follow. -/
theorem sequenceOf_eq_some (begins : sequenceOf a = some (low, high, n)) :
    (n = 1 ∧ 0xC2 ≤ a.toNat ∧ a.toNat ≤ 0xDF ∧ low = 0x80 ∧ high = 0xBF) ∨
    (n = 2 ∧ 0xE0 ≤ a.toNat ∧ a.toNat ≤ 0xEF ∧ 0x80 ≤ low ∧ high ≤ 0xBF ∧
      (a.toNat = 0xE0 → low = 0xA0) ∧ (a.toNat = 0xED → high = 0x9F)) ∨
    (n = 3 ∧ 0xF0 ≤ a.toNat ∧ a.toNat ≤ 0xF4 ∧ 0x80 ≤ low ∧ high ≤ 0xBF ∧
      (a.toNat = 0xF0 → low = 0x90) ∧ (a.toNat = 0xF4 → high = 0x8F)) := by
  unfold sequenceOf at begins
  dsimp only at begins
  split_ifs at begins <;> cases begins
  · exact .inl (by omega)
  · exact .inr (.inl (by omega))
  · exact .inr (.inl (by omega))
  · exact .inr (.inl (by omega))
  · exact .inr (.inr (by omega))
  · exact .inr (.inr (by omega))
  · exact .inr (.inr (by omega))

/-- A continuing byte is known by its six low bits. -/
theorem toNat_tail (continues : isTail low high b = true) (least : 0x80 ≤ low) (greatest : high ≤ 0xBF) :
    b.toNat = 0x80 + tailBits b ∧ tailBits b < 64 := by
  rw [isTail_eq_true] at continues
  unfold tailBits
  omega

/-- A byte that asks for one tail encodes a point with it. -/
theorem encodes_two (begins : sequenceOf a = some (low, high, 1)) (second : isTail low high b = true) :
    Encodes [a, b] (CodePoint.ofNat (a.toNat % 32 * 64 + tailBits b)) := by
  obtain ⟨-, least, most, rfl, rfl⟩ := (sequenceOf_eq_some begins).resolve_right (by simp)
  obtain ⟨isB, smallB⟩ := toNat_tail second (by omega) (by omega)
  obtain ⟨x, isA⟩ : ∃ x, a.toNat = 0xC0 + x := ⟨_, (Nat.add_sub_cancel' (by omega)).symm⟩
  rw [show a.toNat % 32 = x by omega]
  have value := val_ofNat (n := x * 64 + tailBits b) (by omega)
  refine ⟨isSurrogate_eq_false.mpr (by omega), ?_⟩
  rw [encodePoint, value, if_neg (by omega), if_pos (by omega)]
  simp only [List.cons.injEq, and_true]
  exact ⟨byte_eq (by omega), byte_eq (by omega)⟩

/-- A byte that asks for two tails encodes a point with them. -/
theorem encodes_three (begins : sequenceOf a = some (low, high, 2)) (second : isTail low high b = true)
    (third : isTail 0x80 0xBF d = true) :
    Encodes [a, b, d] (CodePoint.ofNat (a.toNat % 16 * 4096 + tailBits b * 64 + tailBits d)) := by
  obtain ⟨-, least, most, isLow, isHigh, shortest, plain⟩ :=
    ((sequenceOf_eq_some begins).resolve_left (by simp)).resolve_right (by simp)
  obtain ⟨isB, smallB⟩ := toNat_tail second isLow isHigh
  obtain ⟨isD, smallD⟩ := toNat_tail third (Nat.le_refl _) (Nat.le_refl _)
  obtain ⟨x, isA⟩ : ∃ x, a.toNat = 0xE0 + x := ⟨_, (Nat.add_sub_cancel' least).symm⟩
  rw [isTail_eq_true] at second
  rw [show a.toNat % 16 = x by omega]
  have value := val_ofNat (n := x * 4096 + tailBits b * 64 + tailBits d) (by omega)
  refine ⟨isSurrogate_eq_false.mpr (by omega), ?_⟩
  rw [encodePoint, value, if_neg (by omega), if_neg (by omega), if_pos (by omega)]
  simp only [List.cons.injEq, and_true]
  exact ⟨byte_eq (by omega), byte_eq (by omega), byte_eq (by omega)⟩

/-- A byte that asks for three tails encodes a point with them. -/
theorem encodes_four (begins : sequenceOf a = some (low, high, 3)) (second : isTail low high b = true)
    (third : isTail 0x80 0xBF d = true) (fourth : isTail 0x80 0xBF e = true) :
    Encodes [a, b, d, e]
      (CodePoint.ofNat (a.toNat % 8 * 262144 + tailBits b * 4096 + tailBits d * 64 + tailBits e)) := by
  obtain ⟨-, least, most, isLow, isHigh, shortest, greatest⟩ :=
    ((sequenceOf_eq_some begins).resolve_left (by simp)).resolve_left (by simp)
  obtain ⟨isB, smallB⟩ := toNat_tail second isLow isHigh
  obtain ⟨isD, smallD⟩ := toNat_tail third (Nat.le_refl _) (Nat.le_refl _)
  obtain ⟨isE, smallE⟩ := toNat_tail fourth (Nat.le_refl _) (Nat.le_refl _)
  obtain ⟨x, isA⟩ : ∃ x, a.toNat = 0xF0 + x := ⟨_, (Nat.add_sub_cancel' least).symm⟩
  rw [isTail_eq_true] at second
  rw [show a.toNat % 8 = x by omega]
  have value := val_ofNat (n := x * 262144 + tailBits b * 4096 + tailBits d * 64 + tailBits e) (by omega)
  refine ⟨isSurrogate_eq_false.mpr (by omega), ?_⟩
  rw [encodePoint, value, if_neg (by omega), if_neg (by omega), if_neg (by omega)]
  simp only [List.cons.injEq, and_true]
  exact ⟨byte_eq (by omega), byte_eq (by omega), byte_eq (by omega), byte_eq (by omega)⟩

/-- A text without surrogates is encoded point by point, and no other one is encoded. -/
theorem encode?_eq_some : encode? t = some bytes ↔ t.any CodePoint.isSurrogate = false ∧ t.flatMap encodePoint = bytes := by
  unfold encode?
  cases t.any CodePoint.isSurrogate <;> simp

/-- Exactly a text with a surrogate cannot be encoded. -/
theorem encode?_eq_none : encode? t = none ↔ t.any CodePoint.isSurrogate = true := by
  unfold encode?
  cases t.any CodePoint.isSurrogate <;> simp

/-- A text is encoded from its first point on. -/
theorem encode?_cons (encodes : Encodes bytes c) {rest : List UInt8} (isRest : encode? t = some rest) :
    encode? (c :: t) = some (bytes ++ rest) := by
  rw [encode?_eq_some] at isRest ⊢
  rw [List.any_cons, encodes.1, Bool.false_or, List.flatMap_cons, encodes.2, isRest.2]
  exact ⟨isRest.1, rfl⟩

/-- Two texts are encoded one after the other. -/
theorem encode?_append {u : Text} {rest : List UInt8} (first : encode? t = some bytes) (second : encode? u = some rest) :
    encode? (t ++ u) = some (bytes ++ rest) := by
  rw [encode?_eq_some] at first second ⊢
  rw [List.any_append, first.1, second.1, List.flatMap_append, first.2, second.2]
  exact ⟨rfl, rfl⟩

/-- What is read without a replacement was written. -/
theorem encode?_of_decodeBytes (read : decodeBytes bytes = (t, false)) : encode? t = some bytes := by
  fun_induction decodeBytes bytes generalizing t with
  | case1 =>
      obtain rfl := congrArg Prod.fst read
      rfl
  | case2 a rest small text bad isText ih =>
      obtain ⟨rfl, rfl⟩ := Prod.mk.inj read
      exact encode?_cons (encodes_one small) (ih isText)
  | case6 a _ low high b rest second text bad isText begins ih =>
      obtain ⟨rfl, rfl⟩ := Prod.mk.inj read
      rw [Bool.not_eq_true', Bool.not_eq_false] at second
      exact encode?_cons (encodes_two begins second) (ih isText)
  | case9 a _ low high b second d rest third text bad isText begins _ ih =>
      obtain ⟨rfl, rfl⟩ := Prod.mk.inj read
      rw [Bool.not_eq_true', Bool.not_eq_false] at second third
      exact encode?_cons (encodes_three begins second third) (ih isText)
  | case12 a _ low high count begins b second notTwo d third notThree e rest fourth text bad isText ih =>
      obtain ⟨rfl, rfl⟩ := Prod.mk.inj read
      rw [Bool.not_eq_true', Bool.not_eq_false] at second third fourth
      obtain rfl : count = 3 := by have := sequenceOf_eq_some begins; omega
      exact encode?_cons (encodes_four begins second third fourth) (ih isText)
  | _ => simp at read

/-- What was written is read, whatever follows it. -/
theorem decodeBytes_append (written : encode? t = some bytes) (rest : List UInt8) :
    decodeBytes (bytes ++ rest) = (t ++ (decodeBytes rest).1, (decodeBytes rest).2) := by
  obtain ⟨plain, rfl⟩ := encode?_eq_some.mp written
  induction t with
  | nil => rfl
  | cons c t ih =>
      rw [List.any_cons, Bool.or_eq_false_iff] at plain
      rw [List.flatMap_cons, List.append_assoc, decodeBytes_encodePoint plain.1,
        ih plain.2 (encode?_eq_some.mpr ⟨plain.2, rfl⟩)]
      rfl

/-- **UTF-8 is read back.** Bytes are read as a text exactly where they are its encoding. -/
theorem decode?_eq_some : decode? bytes = some t ↔ encode? t = some bytes := by
  constructor
  · intro read
    unfold decode? at read
    split at read
    · next text isText => exact Option.some.inj read ▸ encode?_of_decodeBytes isText
    · cases read
  · intro written
    have read := decodeBytes_append written []
    rw [List.append_nil, decodeBytes, List.append_nil] at read
    rw [decode?, read]

/-- A text whose encoding begins with that of another text begins with that text. -/
theorem exists_append_of_encode {u : Text} {rest : List UInt8} (part : encode? t = some bytes)
    (whole : encode? u = some (bytes ++ rest)) : ∃ v, t ++ v = u := by
  have read := decode?_eq_some.mpr whole
  rw [decode?, decodeBytes_append part] at read
  split at read
  · next text isText => exact ⟨_, (congrArg Prod.fst isText).trans (Option.some.inj read)⟩
  · cases read

/-- Bytes are not read exactly where they encode no text. -/
theorem decode?_eq_none : decode? bytes = none ↔ ∀ t, encode? t ≠ some bytes := by
  rw [Option.eq_none_iff_forall_ne_some]
  exact forall_congr' fun t => not_congr decode?_eq_some

end LayoutDesigner.Text
