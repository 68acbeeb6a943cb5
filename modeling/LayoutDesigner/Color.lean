import LayoutDesigner.Value
import LayoutDesigner.Number.Numeral

/-!
# Colours

A colour has three channels. It is read from an object with the members `r`, `g` and `b`, from a
list of three, or from six hexadecimal digits; it is written as an object or as digits.
-/

namespace LayoutDesigner

/-- The channels of a colour. -/
structure Rgb where
  r : Int
  g : Int
  b : Int
  deriving DecidableEq, Repr

namespace Rgb

/-- White. -/
def white : Rgb := ⟨255, 255, 255⟩

/-- Two hexadecimal digits as a number. -/
def hexPair? (a b : CodePoint) : Option Int := do
  let high ← a.hexValue?
  let low ← b.hexValue?
  return 16 * high + low

/-- The colour of six hexadecimal digits, which may follow a `#`. -/
def ofDigits? (t : Text) : Option Rgb :=
  let digits := match t with
    | c :: rest => if c = '#' then rest else t
    | [] => []
  match digits with
  | [a, b, c, d, e, f] => do
    return ⟨← hexPair? a b, ← hexPair? c d, ← hexPair? e f⟩
  | _ => none

/-- The colour of six hexadecimal digits with blanks around them. -/
def ofHex? (t : Text) : Option Rgb := ofDigits? t.strip

/-- A channel kept between 0 and 255. -/
def channel (n : Int) : Int := max 0 (min 255 n)

/-- A channel as two hexadecimal digits. -/
def channelHex (n : Int) : Text := Text.hex (channel n).toNat 2

/-- The colour as `#` and six small hexadecimal digits. -/
def toHex (c : Rgb) : Text := ("#" : Text) ++ channelHex c.r ++ channelHex c.g ++ channelHex c.b

variable {α : Type} [Arith α]

/-- The colour of a value that is read as digits: nothing where the value counts as false, and a
value that is no text is refused. -/
def ofHexValue? (v : Value α) : Except Fault (Option Rgb) :=
  if !v.truthy then .ok none
  else
    match v with
    | .str t => .ok (ofHex? t)
    | _ => .error .wrongMember

/-- Unchecked channels as `#` and six digits; what is no number counts as zero. -/
def hexOfValues (r g b : Value α) : Except Fault Text := do
  let r ← r.roundHalfUp
  let g ← g.roundHalfUp
  let b ← b.roundHalfUp
  return toHex ⟨r, g, b⟩

/-- An unchecked list of channels as `#` and six digits. There have to be three of them. -/
def hexOfItems (v : Value α) : Except Fault Text :=
  match v with
  | .arr [r, g, b] => hexOfValues r g b
  | .str [r, g, b] => hexOfValues (.str [r] : Value α) (.str [g]) (.str [b])
  | .obj [(r, _), (g, _), (b, _)] => hexOfValues (.str r : Value α) (.str g) (.str b)
  | _ => .error .wrongType

/-- One channel of a record: rounded and kept in range; `default` where it is no number. -/
def readChannel (v default : Value α) : Except Fault Int := do
  let x ← v.toNumber default
  return channel (Arith.floorHalf x)

/-- The colour that a record, a list of three or a text of digits stands for; `none` where the
value is none of these. A channel that is no number is taken from `fallback`. -/
def ofValue? (v : Value α) (fallback : List (Value α)) : Except Fault (Option Rgb) :=
  match v with
  | .str t => .ok (ofHex? t)
  | .obj members => ofChannels [Value.field "r" members, Value.field "g" members, Value.field "b" members]
  | .arr [r, g, b] => ofChannels [r, g, b]
  | _ => .ok none
where
  /-- The channels of `values` as far as `fallback` reaches; a colour needs three. -/
  ofChannels (values : List (Value α)) : Except Fault (Option Rgb) := do
    let channels ← (values.zip fallback).mapM fun (v, d) => readChannel v d
    match channels with
    | [r, g, b] => return some ⟨r, g, b⟩
    | _ => throw .outOfRange

/-- The channels as values. -/
def channels (c : Rgb) : List (Value α) := [.int c.r, .int c.g, .int c.b]

/-- The colour that a value stands for, with `fallback` for what cannot be read. -/
def ofValue (v : Value α) (fallback : Rgb) : Except Fault Rgb := do
  return (← ofValue? v fallback.channels).getD fallback

/-- The record of a colour. -/
def toRecord (c : Rgb) : Value α := .obj [("r", .int c.r), ("g", .int c.g), ("b", .int c.b)]

/-- The colour of three unchecked channels, each made an integer. -/
def ofItems (v : Value α) : Except Fault Rgb := do
  let r ← (← v.itemAt 0).asInteger Number.readInt?
  let g ← (← v.itemAt 1).asInteger Number.readInt?
  let b ← (← v.itemAt 2).asInteger Number.readInt?
  return ⟨r, g, b⟩

end Rgb

end LayoutDesigner
