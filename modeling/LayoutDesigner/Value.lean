import LayoutDesigner.Arith

/-!
# Unchecked values

Commands, settings files and saved designs hand over values of any type. A value is null, a truth
value, a number, a text, a list, or an object whose members keep their order. This module tells
what is common to all of them: truth, equality, order, how they are shown, how they are copied, and
how they are read as numbers.
-/

namespace LayoutDesigner

/-- How many calls may be nested inside one another where nothing else is said. Reading a document
takes one call a level and copying a part of it two; what was read can also be shown, for that takes
one call a level again. -/
def usualDepth : Nat := 980

/-- A value of any type, its numbers taken from `α`. -/
inductive Value (α : Type) where
  | null
  | bool (b : Bool)
  | num (n : α)
  | str (t : Text)
  | arr (items : List (Value α))
  | obj (members : List (Text × Value α))
  deriving Inhabited

namespace Value

variable {α : Type}

/-- Whether the value is a number. -/
def isNumber : Value α → Bool
  | .num _ => true
  | _ => false

/-- The first member with the given key. -/
def member? (key : Text) : List (Text × Value α) → Option (Value α)
  | [] => none
  | (k, v) :: rest => if k = key then some v else member? key rest

/-- The members with the value at `key` replaced in place, or added at the end. -/
def setMember (key : Text) (value : Value α) : List (Text × Value α) → List (Text × Value α)
  | [] => [(key, value)]
  | (k, v) :: rest => if k = key then (k, value) :: rest else (k, v) :: setMember key value rest

/-- The members in the order in which their keys first come, each with the last value given. -/
def gather (members : List (Text × Value α)) : List (Text × Value α) :=
  members.foldl (fun soFar (k, v) => setMember k v soFar) []

/-- The member of an object; other values have none. -/
def get? (key : Text) : Value α → Option (Value α)
  | .obj members => member? key members
  | _ => none

/-- The member of an object, null where it is missing. -/
def field (key : Text) (members : List (Text × Value α)) : Value α :=
  (member? key members).getD .null

/-- Whether the value is an object with members for red, green and blue. -/
def isColorRecord : Value α → Bool
  | .obj members =>
    (member? "r" members).isSome && (member? "g" members).isSome && (member? "b" members).isSome
  | _ => false

/-- The calls that may still be nested inside the copy of a value in another one, which itself takes two. -/
def insideCopy (depth : Nat) : Except Fault Nat :=
  if depth < 2 then .error .tooDeep else .ok (depth - 2)

mutual

/-- A copy of a value and of everything inside it; `depth` is how many calls may be nested for what is
inside. -/
def copy (depth : Nat) : Value α → Except Fault (Value α)
  | .arr items => do return .arr (← copyItems depth items)
  | .obj members => do return .obj (← copyMembers depth members)
  | v => .ok v

/-- Copies of the items of a list, first to last. -/
def copyItems (depth : Nat) : List (Value α) → Except Fault (List (Value α))
  | [] => .ok []
  | v :: rest => do return (← copy (← insideCopy depth) v) :: (← copyItems depth rest)

/-- Copies of the members of an object, first to last. -/
def copyMembers (depth : Nat) : List (Text × Value α) → Except Fault (List (Text × Value α))
  | [] => .ok []
  | (k, v) :: rest => do return (k, ← copy (← insideCopy depth) v) :: (← copyMembers depth rest)

end

variable [Arith α]

/-- Null, false, zero and everything empty count as false. -/
def truthy : Value α → Bool
  | .null => false
  | .bool b => b
  | .num n => !Arith.same n (Arith.ofInt 0)
  | .str t => !t.isEmpty
  | .arr items => !items.isEmpty
  | .obj members => !members.isEmpty

mutual

/-- The value as it is shown inside a list, an object or a message: texts are quoted. -/
def quoted : Value α → Text
  | .null => "None"
  | .bool b => if b then "True" else "False"
  | .num n => Arith.numeral n
  | .str t => t.quoted
  | .arr items => ("[" : Text) ++ quotedItems items ++ ("]" : Text)
  | .obj members => ("\x7b" : Text) ++ quotedMembers members ++ ("\x7d" : Text)

/-- The items of a list with commas between them. -/
def quotedItems : List (Value α) → Text
  | [] => []
  | [v] => quoted v
  | v :: w :: rest => quoted v ++ (", " : Text) ++ quotedItems (w :: rest)

/-- The members of an object with commas between them. -/
def quotedMembers : List (Text × Value α) → Text
  | [] => []
  | [(k, v)] => k.quoted ++ (": " : Text) ++ quoted v
  | (k, v) :: w :: rest =>
    k.quoted ++ (": " : Text) ++ quoted v ++ (", " : Text) ++ quotedMembers (w :: rest)

end

/-- The value as text of its own: a text is itself. -/
def shown : Value α → Text
  | .str t => t
  | v => quoted v

/-- The number that a number or truth value is. -/
def number? : Value α → Option α
  | .num n => some n
  | .bool b => some (Arith.ofInt (if b then 1 else 0))
  | _ => none

mutual

/-- Equality in value: truth values count as numbers, and the order of members is no matter. -/
def same : Value α → Value α → Bool
  | .null, .null => true
  | .bool a, .bool b => a == b
  | .bool a, .num n => Arith.same (Arith.ofInt (if a then 1 else 0)) n
  | .num n, .bool a => Arith.same n (Arith.ofInt (if a then 1 else 0))
  | .num m, .num n => Arith.same m n
  | .str s, .str t => s == t
  | .arr xs, .arr ys => sameItems xs ys
  | .obj xs, .obj ys => xs.length == ys.length && sameMembers xs ys
  | _, _ => false

/-- Lists of equal length with equal items. -/
def sameItems : List (Value α) → List (Value α) → Bool
  | [], [] => true
  | x :: xs, y :: ys => same x y && sameItems xs ys
  | _, _ => false

/-- Every member of the first list has an equal one under its key in the second. -/
def sameMembers : List (Text × Value α) → List (Text × Value α) → Bool
  | [], _ => true
  | (k, v) :: rest, ys =>
    (match member? k ys with
      | some w => same v w
      | none => false) && sameMembers rest ys

end

/-- The order of values that can be ordered: numbers, texts, and lists item by item. -/
def less (a b : Value α) : Except Fault Bool :=
  match a, b with
  | .str s, .str t => .ok (s.before t)
  | .arr xs, .arr ys => lessItems xs ys
  | a, b =>
    match a.number?, b.number? with
    | some m, some n => .ok (Arith.lt m n)
    | _, _ => .error .wrongType
where
  /-- The first differing items decide; a list comes before its extensions. -/
  lessItems : List (Value α) → List (Value α) → Except Fault Bool
    | [], [] => .ok false
    | [], _ :: _ => .ok true
    | _ :: _, [] => .ok false
    | x :: xs, y :: ys => if same x y then lessItems xs ys else less x y

/-- Whether a value comes before another one; where they have no order it does not. -/
def isLess (a b : Value α) : Bool :=
  match less a b with
  | .ok answer => answer
  | .error _ => false

/-- The value of `[low, high]` nearest to `v`, one of the three as it is. -/
def clamp (v low high : Value α) : Except Fault (Value α) := do
  let lesser := if ← less v high then v else high
  return if ← less low lesser then lesser else low

/-- What the texts start with that stand for ids of other types. -/
def idMark : Text := [CodePoint.ofNat 0xDFFF, CodePoint.ofNat 0]

/-- A text that stands for a value as an id: a text for itself, and what is no text for how it is
shown after the mark. -/
def idText : Value α → Text
  | .str t => t
  | v => idMark ++ v.shown

/-- The id that a value names: null names nothing, and lists and objects are refused. -/
def asId : Value α → Except Fault (Option Text)
  | .null => .ok none
  | .arr _ => .error .wrongType
  | .obj _ => .error .wrongType
  | v => .ok (some v.idText)

/-- The item at a place of an unchecked value. -/
def itemAt (v : Value α) (i : Nat) : Except Fault (Value α) :=
  match v with
  | .arr items =>
    match items[i]? with
    | some item => .ok item
    | none => .error .outOfRange
  | .str t =>
    match t[i]? with
    | some c => .ok (.str [c])
    | none => .error .outOfRange
  | .obj _ => .error (.missingKey (Text.ofNat i))
  | _ => .error .wrongType

/-- The two items of a pair. -/
def asPair (v : Value α) : Except Fault (Value α × Value α) := do
  return (← v.itemAt 0, ← v.itemAt 1)

/-- The items of a value that has to have exactly two. -/
def asTwo (v : Value α) : Except Fault (Value α × Value α) := do
  let items : List (Value α) ← match v with
    | .arr items => pure items
    | .str t => pure (t.map fun c => .str [c])
    | .obj members => pure (members.map fun (key, _) => .str key)
    | _ => throw .wrongType
  match items with
  | [a, b] => return (a, b)
  | _ :: _ :: _ :: _ => throw (.raised "too many values to unpack (expected 2)")
  | items =>
    throw (.raised (("not enough values to unpack (expected 2, got " : Text) ++
      Text.ofNat items.length ++ (")" : Text)))

/-- The real that a value stands for. A text has to be a numeral. -/
def asReal : Value α → Except Fault α
  | .bool b => .ok (Arith.ofBool b)
  | .num n => Arith.toReal n
  | .str t =>
    match Arith.ofNumeral? t with
    | some x => .ok x
    | none => .error (.notReal t)
  | _ => .error .wrongType

/-- A number as an operand: truth values count as numbers, nothing else does. -/
def asOperand (v : Value α) : Except Fault α :=
  match v.number? with
  | some n => .ok n
  | none => .error .wrongType

/-- The finite real that a value stands for, or that of `default` where the value is none. -/
def toNumber (v default : Value α) : Except Fault α :=
  match v with
  | .bool b => .ok (Arith.ofBool b)
  | v =>
    match v.asReal with
    | .ok x => if Arith.isFinite x then .ok x else default.asReal
    | .error .wrongType => default.asReal
    | .error (.notReal _) => default.asReal
    | .error fault => .error fault

/-- The finite real that a value stands for, zero where it is none. -/
def toNumberOrZero (v : Value α) : Except Fault α := v.toNumber (.num Arith.zero)

/-- The number that a value is; what is none comes to what it is read as, or to zero. -/
def measure (v : Value α) : Except Fault α :=
  match v.number? with
  | some n => .ok n
  | none => v.toNumberOrZero

/-- The nearest integer, a half going up; what is no number counts as zero. -/
def roundHalfUp (v : Value α) : Except Fault Int := v.toNumberOrZero.map Arith.floorHalf

/-- A truth value: of texts only four words are true, in any case and with blanks around them. -/
def toBool : Value α → Bool
  | .str t =>
    let word := t.strip.lowerAscii
    word == ("true" : Text) || word == ("1" : Text) || word == ("yes" : Text) || word == ("on" : Text)
  | v => v.truthy

/-- The numeral of a value in a script. -/
def scriptNumeral (v : Value α) : Except Fault Text := v.toNumberOrZero.map Arith.scriptNumeral

/-- The integer that a value stands for: the integer part of a number, or a text that is an integer
numeral as read by `readInt?`. -/
def asInteger (readInt? : Text → Option Int) : Value α → Except Fault Int
  | .bool b => .ok (if b then 1 else 0)
  | .num n => Arith.truncate n
  | .str t =>
    match readInt? t with
    | some n => .ok n
    | none => .error (.notInteger t)
  | _ => .error .wrongType

/-- Whether an integer comes of a number: the same number, or `none` for what is no number. -/
def int (n : Int) : Value α := .num (Arith.ofInt n)

end Value

/-- The nearest integer to a number, a half going up; what is not finite counts as zero. -/
def roundHalfUp {α : Type} [Arith α] (x : α) : Except Fault Int := (Value.num x).roundHalfUp

end LayoutDesigner
