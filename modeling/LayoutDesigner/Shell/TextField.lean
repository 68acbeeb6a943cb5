import LayoutDesigner.Color
import LayoutDesigner.Number

/-!
# Text fields

A text field shows a text that can be typed over. While it has the keyboard, what is typed stays:
nothing that is shown replaces it.
-/

namespace LayoutDesigner.Shell

/-- A text field. -/
structure TextField where
  text : Value Number := .str []
  /-- Whether the keyboard types into the field. -/
  focused : Bool := false

namespace TextField

/-- Show a text, unless something is being typed. -/
def display (f : TextField) (text : Value Number) : TextField :=
  if f.focused then f else { f with text }

/-- Show nothing, whatever is being typed. -/
def clear (f : TextField) : TextField := { f with text := .str [] }

/-- Type a text. The field keeps the keyboard or gives it back. -/
def typed (text : Text) (focused : Bool) : TextField := ⟨.str text, focused⟩

end TextField

/-- How a field shows the value of a property: colours as digits, numbers as in a script. -/
def fieldText {α : Type} [Arith α] (v : Value α) : Except Fault Text :=
  match v with
  | .obj members =>
    if v.isColorRecord then
      Rgb.hexOfValues (Value.field "r" members) (Value.field "g" members) (Value.field "b" members)
    else .ok v.shown
  | .bool b => .ok (if b then "true" else "false")
  | .num n => (Value.num n).scriptNumeral
  | v => .ok v.shown

/-- A number rounded to two places. -/
def hundredths (x : Number) : Number := (Arith.ofNumeral? (Arith.twoPlaces x)).getD x

end LayoutDesigner.Shell
