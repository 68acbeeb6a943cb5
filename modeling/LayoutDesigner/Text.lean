/-!
# Text

A text is a list of Unicode code points. Lone surrogates are code points too, because a saved
design may spell them with escapes; they matter only where a text is encoded as bytes.

The module holds the operations the designer needs on texts: stripping blanks, splitting,
replacing, numerals of integers, and the order by code point.
-/

namespace LayoutDesigner

/-- A Unicode code point, surrogates included. -/
abbrev CodePoint := Fin 0x110000

namespace CodePoint

/-- The code point of a character. -/
def ofChar (c : Char) : CodePoint :=
  ⟨c.toNat, by
    have h := c.valid
    simp only [UInt32.isValidChar, Nat.isValidChar] at h
    simp only [Char.toNat]
    omega⟩

instance : Coe Char CodePoint := ⟨ofChar⟩

/-- The character of a code point; a surrogate, which is no character, gives the null
character. -/
def toChar (c : CodePoint) : Char := Char.ofNat c.val

/-- The code point with this number, or the null code point if there is none. -/
def ofNat (n : Nat) : CodePoint := if h : n < 0x110000 then ⟨n, h⟩ else 0

/-- Surrogates are halves of a pair and stand for no character. -/
def isSurrogate (c : CodePoint) : Bool := 0xD800 ≤ c.val && c.val ≤ 0xDFFF

/-- One of the ten ASCII digits. -/
def isAsciiDigit (c : CodePoint) : Bool := 0x30 ≤ c.val && c.val ≤ 0x39

/-- An ASCII letter, an ASCII digit or the underscore. -/
def isAsciiWord (c : CodePoint) : Bool :=
  c.isAsciiDigit || (0x41 ≤ c.val && c.val ≤ 0x5A) || (0x61 ≤ c.val && c.val ≤ 0x7A) || c.val == 0x5F

/-- An ASCII capital becomes small; every other code point stays. -/
def lowerAscii (c : CodePoint) : CodePoint :=
  if h : 0x41 ≤ c.val ∧ c.val ≤ 0x5A then ⟨c.val + 32, by omega⟩ else c

/-- A small ASCII letter becomes a capital; every other code point stays. -/
def upperAscii (c : CodePoint) : CodePoint :=
  if 0x61 ≤ c.val ∧ c.val ≤ 0x7A then ⟨c.val - 32, by omega⟩ else c

/-- The value of a hexadecimal digit. -/
def hexValue? (c : CodePoint) : Option Nat :=
  if 0x30 ≤ c.val ∧ c.val ≤ 0x39 then some (c.val - 0x30)
  else if 0x41 ≤ c.val ∧ c.val ≤ 0x46 then some (c.val - 0x41 + 10)
  else if 0x61 ≤ c.val ∧ c.val ≤ 0x66 then some (c.val - 0x61 + 10)
  else none

/-- The code points of blanks: the separators and the control characters that count as space. -/
def isBlank (c : CodePoint) : Bool :=
  (0x09 ≤ c.val && c.val ≤ 0x0D) || (0x1C ≤ c.val && c.val ≤ 0x20) || c.val == 0x85 ||
  c.val == 0xA0 || c.val == 0x1680 || (0x2000 ≤ c.val && c.val ≤ 0x200A) || c.val == 0x2028 ||
  c.val == 0x2029 || c.val == 0x202F || c.val == 0x205F || c.val == 0x3000

end CodePoint

/-- A text: its code points from first to last. -/
abbrev Text := List CodePoint

/-- Texts are the same where they are found to be. The instance has a name of its own, so that no
search goes through the order of code points. -/
instance (priority := high) : LawfulBEq Text := inferInstance

namespace Text

/-- The text of a string. -/
def ofString (s : String) : Text := s.toList.map CodePoint.ofChar

instance : Coe String Text := ⟨ofString⟩

/-- Whether the text has no code point at all. -/
abbrev isEmpty (t : Text) : Bool := List.isEmpty t

/-- The text without the blanks at its start. -/
def stripLeft (t : Text) : Text := t.dropWhile CodePoint.isBlank

/-- The text without the blanks at its end. -/
def stripRight (t : Text) : Text := (t.reverse.dropWhile CodePoint.isBlank).reverse

/-- The text without the blanks at either end. -/
def strip (t : Text) : Text := stripRight (stripLeft t)

/-- Every ASCII capital becomes small. -/
def lowerAscii (t : Text) : Text := t.map CodePoint.lowerAscii

/-- The first of two texts, or the second where the first is empty. -/
def orElse (t other : Text) : Text := if t.isEmpty then other else t

/-- The pieces of the text between the occurrences of `separator`; there is always one more piece
than occurrences. -/
def splitOn (separator : CodePoint) : Text → List Text
  | [] => [[]]
  | c :: rest =>
    if c = separator then [] :: splitOn separator rest
    else
      match splitOn separator rest with
      | [] => [[c]]
      | piece :: pieces => (c :: piece) :: pieces

/-- The texts one after the other with `separator` between neighbours. -/
def join (separator : Text) : List Text → Text
  | [] => []
  | [t] => t
  | t :: rest => t ++ separator ++ join separator rest

/-- `some rest` when the text is `start` followed by `rest`. -/
def after? (start : Text) (t : Text) : Option Text :=
  match start, t with
  | [], t => some t
  | _ :: _, [] => none
  | a :: start, b :: t => if a = b then after? start t else none

/-- Whether the text begins with `start`. -/
def startsWith (t start : Text) : Bool := (after? start t).isSome

/-- Whether the text ends with `ending`. -/
def endsWith (t ending : Text) : Bool := startsWith t.reverse ending.reverse

/-- Scan for `old` from the left, `skip` code points of the present occurrence being already
replaced. -/
private def replaceFrom (old new : Text) : Nat → Text → Text
  | _, [] => []
  | skip + 1, _ :: rest => replaceFrom old new skip rest
  | 0, c :: rest =>
    if startsWith (c :: rest) old then new ++ replaceFrom old new (old.length - 1) rest
    else c :: replaceFrom old new 0 rest

/-- Every occurrence of `old`, found from the left without overlaps, becomes `new`. An empty `old`
occurs nowhere. -/
def replace (old new t : Text) : Text :=
  if old.isEmpty then t else replaceFrom old new 0 t

/-- A single code point is replaced wherever it stands. -/
theorem replace_singleton (c : CodePoint) (new t : Text) :
    replace [c] new t = t.flatMap fun d => if d = c then new else [d] := by
  change replaceFrom [c] new 0 t = _
  induction t with
  | nil => rfl
  | cons d rest ih =>
      have starts : startsWith (d :: rest) [c] = decide (c = d) := by
        by_cases same : c = d <;> simp [startsWith, after?, same]
      rw [replaceFrom, starts, List.flatMap_cons]
      by_cases same : d = c
      · simp [same, ih]
      · simp [same, Ne.symm same, ih]

/-- Whether `part` occurs in the text; the empty text occurs everywhere. -/
def contains (part : Text) : Text → Bool
  | [] => part.isEmpty
  | c :: rest => startsWith (c :: rest) part || contains part rest

/-- The decimal numeral of a natural number. -/
def ofNat (n : Nat) : Text := ofString (toString n)

/-- The decimal numeral of an integer, with a minus sign where it is negative. -/
def ofInt : Int → Text
  | .ofNat n => ofNat n
  | .negSucc n => "-" ++ ofNat (n + 1)

/-- The digits of `n` in base 16, small letters, at least `width` of them. -/
def hex (n width : Nat) : Text :=
  let digits := (Nat.toDigits 16 n).map CodePoint.ofChar
  List.replicate (width - digits.length) ('0' : CodePoint) ++ digits

/-- The comparison of texts by their first differing code point, a shorter text before its
extensions. -/
def before (a b : Text) : Bool := decide (a < b)

/-- The number of 16-bit units of a text: two for each code point above the basic plane. -/
def units (t : Text) : Nat := t.length + t.countP fun c => 0x10000 ≤ c.val

end Text

end LayoutDesigner
