import LayoutDesigner.Fault

/-!
# Numbers that layouts are measured in

Everything that measures, compares or rounds is written once over this interface. Editing runs on
integers mixed with binary floats; reasoning may use any other numbers that provide it.
-/

namespace LayoutDesigner

/-- The arithmetic that layouts need. An operation fails where its operands cannot be combined. -/
class Arith (α : Type) where
  /-- An integer. -/
  ofInt : Int → α
  /-- The real constant `digits / 10 ^ places`. -/
  ofDecimal : (digits : Int) → (places : Nat) → α
  add : α → α → Except Fault α
  sub : α → α → Except Fault α
  mul : α → α → Except Fault α
  div : α → α → Except Fault α
  /-- Strictly less; never where an operand is no number. -/
  lt : α → α → Bool
  /-- Less or equal; never where an operand is no number. -/
  le : α → α → Bool
  /-- Equal in value. -/
  same : α → α → Bool
  /-- The number as a real. -/
  toReal : α → Except Fault α
  /-- Whether a real is finite. -/
  isFinite : α → Bool
  /-- Whether the value is an integer. -/
  isWhole : α → Bool
  /-- The greatest integer that is not above a finite real plus one half. -/
  floorHalf : α → Int
  /-- The number with its fraction cut off. -/
  truncate : α → Except Fault Int
  /-- The real that a numeral stands for. -/
  ofNumeral? : Text → Option α
  /-- The shortest numeral that reads back as the number. -/
  numeral : α → Text
  /-- The numeral of a finite real in a script: without a point where it is a short integer. -/
  scriptNumeral : α → Text
  /-- The numeral with exactly two places. -/
  twoPlaces : α → Text

namespace Arith

variable {α : Type} [Arith α]

/-- The greater of two numbers, the first where neither is greater. -/
def max (a b : α) : α := if lt a b then b else a

/-- The lesser of two numbers, the first where neither is less. -/
def min (a b : α) : α := if lt b a then b else a

/-- The number of `[low, high]` nearest to `v`; an empty range gives `low`. -/
def clamp (v low high : α) : α := max low (min high v)

/-- The real zero. -/
def zero : α := ofDecimal 0 0

/-- The real one. -/
def one : α := ofDecimal 1 0

/-- The real half. -/
def half : α := ofDecimal 5 1

/-- A truth value as a real. -/
def ofBool (b : Bool) : α := if b then one else zero

end Arith

end LayoutDesigner
