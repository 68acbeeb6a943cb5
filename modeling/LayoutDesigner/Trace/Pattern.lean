import LayoutDesigner.Number
import LayoutDesigner.Number.Precise
import LayoutDesigner.Value

/-!
# Patterns of records

A record has a pattern with places for arguments. A place begins with a percent sign and ends with a
letter that tells how its argument is shown; between them may stand, in this order, a key in
parentheses, flags, a width, a precision and a length, which means nothing. Two percent signs side by
side stand for one.
-/

namespace LayoutDesigner.Trace

/-- A width or a precision, as it is written in a place. -/
inductive Measure where
  | missing
  | fixed (n : Nat)
  /-- The next argument is the measure. -/
  | fromArgument
  | tooGreat
  deriving DecidableEq, Repr

/-- The flags of a place. -/
structure Flags where
  /-- Blanks fill the width on the right. -/
  left : Bool := false
  /-- Numbers that are not negative have a plus sign. -/
  plus : Bool := false
  /-- Numbers that are not negative have a blank in the place of a sign. -/
  blank : Bool := false
  /-- A base is told, a point is kept. -/
  marked : Bool := false
  /-- Zeros fill the width of numbers. -/
  zeros : Bool := false
  deriving DecidableEq, Repr

/-- A place for an argument. -/
structure Place where
  /-- The key in parentheses, where there is one; the key itself is missing where the parentheses are
  not closed. -/
  key : Option (Option Text)
  flags : Flags
  width : Measure
  precision : Measure
  /-- The letter at the end, where the pattern goes on so far. -/
  letter : Option CodePoint
  /-- Where the letter stands in the pattern. -/
  index : Nat

/-- A piece of a pattern. -/
inductive Piece where
  | plain (c : CodePoint)
  | place (p : Place)

/-- The greatest width. -/
def widthLimit : Nat := 0x7FFFFFFFFFFFFFFF

/-- The greatest precision. -/
def precisionLimit : Nat := 0x7FFFFFFF

/-- A key up to the parenthesis that closes it, `depth` others being open. -/
def readKey : (depth : Nat) → Text → Option (Text × Text)
  | _, [] => none
  | depth, c :: rest =>
    if c = ')' then
      match depth with
      | 0 => some ([], rest)
      | depth + 1 => (readKey depth rest).map fun (key, after) => (c :: key, after)
    else
      (readKey (if c = '(' then depth + 1 else depth) rest).map fun (key, after) => (c :: key, after)

/-- The flags at the start of a text, and what follows. -/
def readFlags (flags : Flags) : Text → Flags × Text
  | [] => (flags, [])
  | c :: rest =>
    if c = '-' then readFlags { flags with left := true } rest
    else if c = '+' then readFlags { flags with plus := true } rest
    else if c = ' ' then readFlags { flags with blank := true } rest
    else if c = '#' then readFlags { flags with marked := true } rest
    else if c = '0' then readFlags { flags with zeros := true } rest
    else (flags, c :: rest)

/-- A measure at the start of a text, and what follows. -/
def readMeasure (limit : Nat) (t : Text) : Measure × Text :=
  match t with
  | [] => (.missing, [])
  | c :: rest =>
    if c = '*' then (.fromArgument, rest)
    else if c.isAsciiDigit then
      let n := (t.takeWhile CodePoint.isAsciiDigit).foldl (fun n d => 10 * n + (d.val - 0x30)) 0
      (if n ≤ limit then .fixed n else .tooGreat, t.dropWhile CodePoint.isAsciiDigit)
    else (.missing, t)

/-- A precision after its point, and what follows; a point alone is the precision zero. -/
def readPrecision (t : Text) : Measure × Text :=
  match Text.after? "." t with
  | none => (.missing, t)
  | some rest =>
    match readMeasure precisionLimit rest with
    | (.missing, rest) => (.fixed 0, rest)
    | found => found

/-- What follows a length. -/
def skipLength (t : Text) : Text :=
  match t with
  | [] => []
  | c :: rest => if c = 'h' ∨ c = 'l' ∨ c = 'L' then rest else t

/-- A place after its percent sign, and what follows; the pattern has `size` code points. -/
def readPlace (size : Nat) (t : Text) : Place × Text :=
  let (key, t) : Option (Option Text) × Text :=
    match Text.after? "(" t with
    | none => (none, t)
    | some inside =>
      match readKey 0 inside with
      | some (key, rest) => (some (some key), rest)
      | none => (some none, [])
  let (flags, t) := readFlags {} t
  let (width, t) := readMeasure widthLimit t
  let (precision, t) := readPrecision t
  let t := skipLength t
  ({ key, flags, width, precision, letter := t.head?, index := size - t.length }, t.tail)

/-- The pieces of the rest of a pattern of `size` code points. `bound` limits their number. -/
def readPieces (size : Nat) : (bound : Nat) → Text → List Piece
  | 0, _ => []
  | _, [] => []
  | bound + 1, c :: rest =>
    if c ≠ '%' then .plain c :: readPieces size bound rest
    else
      match Text.after? "%" rest with
      | some rest => .plain c :: readPieces size bound rest
      | none =>
        let (place, rest) := readPlace size rest
        .place place :: readPieces size bound rest

/-- The pieces of a pattern. -/
def piecesOf (pattern : Text) : List Piece := readPieces pattern.length pattern.length pattern

/-- The arguments that are left: those to come, and the table that keys are looked up in. -/
structure Arguments where
  next : List (Value Number)
  table : Option (List (Text × Value Number)) := none

/-- The arguments of a record. A single object with members is a table, and its own only argument. -/
def Arguments.ofList : List (Value Number) → Arguments
  | [.obj (member :: members)] =>
    { next := [.obj (member :: members)], table := some (member :: members) }
  | args => { next := args }

/-- The next argument. -/
def takeArgument : StateT Arguments (Except Fault) (Value Number) := do
  let args ← get
  match args.next with
  | [] => throw .wrongType
  | a :: rest =>
    set { args with next := rest }
    return a

/-- Make the member under the key of a place the only argument. -/
def enterKey (key : Option Text) : StateT Arguments (Except Fault) Unit := do
  let args ← get
  match args.table, key with
  | none, _ => throw .wrongType
  | some _, none => throw (.raised "incomplete format key")
  | some members, some key =>
    match Value.member? key members with
    | none => throw (.missingKey key.quoted)
    | some v => set { args with next := [v] }

/-- The integer that an argument is; truth values count as integers. -/
def integerOf : Value Number → Except Fault Int
  | .bool b => .ok (if b then 1 else 0)
  | .num (.int n) => .ok n
  | _ => .error .wrongType

/-- What a width or a precision comes to; `wide` tells where an argument is beyond the limit. -/
def takeMeasure (limit : Nat) (tooGreat wide : Text) :
    Measure → StateT Arguments (Except Fault) (Option Int)
  | .missing => return none
  | .fixed n => return some n
  | .tooGreat => throw (.raised tooGreat)
  | .fromArgument => do
    let n ← integerOf (← takeArgument)
    if n < -(limit : Int) - 1 ∨ (limit : Int) < n then throw (.beyondRange wide)
    return some n

/-- An argument as it is shown, before it is put into its width. -/
structure Shown where
  sign : Text := []
  base : Text := []
  body : Text
  /-- Whether zeros may fill the width. -/
  numeral : Bool := false

/-- The sign of a number. -/
def signOf (flags : Flags) (negative : Bool) : Text :=
  if negative then "-" else if flags.plus then "+" else if flags.blank then " " else []

/-- A text in a place. -/
def showText (precision : Option Nat) (t : Text) : Shown :=
  { body := match precision with
      | some n => t.take n
      | none => t }

/-- The digits of a natural number in a base up to sixteen. -/
def digitsIn (base n : Nat) : Text := (Nat.toDigits base n).map CodePoint.ofChar

/-- An integer in a place, in base ten, eight or sixteen. -/
def showInteger (flags : Flags) (precision : Option Nat) (letter : CodePoint) (n : Int) : Shown :=
  let base : Nat := if letter = 'o' then 8 else if letter = 'x' ∨ letter = 'X' then 16 else 10
  let digits := digitsIn base n.natAbs
  let digits := if letter = 'X' then digits.map CodePoint.upperAscii else digits
  { sign := signOf flags (n < 0), base := if flags.marked ∧ base ≠ 10 then ['0', letter] else []
    body := List.replicate (precision.getD 0 - digits.length) ('0' : CodePoint) ++ digits
    numeral := true }

/-- The form of the numerals that a letter stands for. -/
def formOf? (letter : CodePoint) : Option Number.NumeralForm :=
  let c := letter.lowerAscii
  if c = 'e' then some .scientific
  else if c = 'f' then some .places
  else if c = 'g' then some .general
  else none

/-- The number of digits of a numeral where none is given. -/
def usualPrecision : Nat := 6

/-- A real in a place. -/
def showReal (flags : Flags) (precision : Option Nat) (letter : CodePoint)
    (form : Number.NumeralForm) (x : Float) : Shown :=
  let (negative, body) :=
    Number.preciseText form x (precision.getD usualPrecision) flags.marked
  { sign := signOf flags negative
    body := if letter = letter.lowerAscii then body else body.map CodePoint.upperAscii
    numeral := true }

/-- A single code point in a place, given as a text or by its number. -/
def showPoint (v : Value Number) : Except Fault Shown :=
  match v with
  | .str [c] => .ok { body := [c] }
  | .str _ => .error .wrongType
  | v => do
    let n ← integerOf v
    if n < 0 ∨ 0x110000 ≤ n then throw (.beyondRange "%c arg not in range(0x110000)")
    return { body := [CodePoint.ofNat n.toNat] }

/-- The text with escapes for everything but ASCII. -/
def escapeToAscii (t : Text) : Text :=
  t.flatMap fun c => if c.val < 0x80 then [c] else Text.codeEscape c

/-- An argument in a place with a letter. -/
def showArgument (flags : Flags) (precision : Option Nat) (letter : CodePoint) (index : Nat)
    (v : Value Number) : Except Fault Shown :=
  match formOf? letter with
  | some form => do
    match ← Arith.toReal (← v.asOperand) with
    | .real x => return showReal flags precision letter form x
    | .int _ => throw .wrongType
  | none =>
    if letter = 's' then .ok (showText precision v.shown)
    else if letter = 'r' then .ok (showText precision v.quoted)
    else if letter = 'a' then .ok (showText precision (escapeToAscii v.quoted))
    else if letter = 'c' then showPoint v
    else if letter = 'd' ∨ letter = 'i' ∨ letter = 'u' then do
      return showInteger flags precision letter (← Arith.truncate (← v.asOperand))
    else if letter = 'o' ∨ letter = 'x' ∨ letter = 'X' then do
      return showInteger flags precision letter (← integerOf v)
    else
      let glyph : CodePoint := if 31 ≤ letter.val ∧ letter.val ≤ 126 then letter else '?'
      .error (.raised (("unsupported format character '" : Text) ++ [glyph] ++ ("' (0x" : Text) ++
        Text.hex letter.val 1 ++ (") at index " : Text) ++ Text.ofNat index))

/-- What is shown, in its width: zeros go between the base and the digits, blanks to either end. -/
def Shown.fit (s : Shown) (width : Nat) (left zeros : Bool) : Text :=
  let lead := s.sign ++ s.base
  let free := width - (lead.length + s.body.length)
  let fill (c : CodePoint) : Text := List.replicate free c
  if left then lead ++ s.body ++ fill ' '
  else if zeros && s.numeral then lead ++ fill '0' ++ s.body
  else fill ' ' ++ lead ++ s.body

/-- The text of a place. -/
def fillPlace (p : Place) : StateT Arguments (Except Fault) Text := do
  if let some key := p.key then enterKey key
  let width ← takeMeasure widthLimit "width too big"
    "Python int too large to convert to C ssize_t" p.width
  let precision ← takeMeasure precisionLimit "precision too big"
    "Python int too large to convert to C int" p.precision
  let some letter := p.letter | throw (.raised "incomplete format")
  let v ← takeArgument
  let shown ← showArgument p.flags (precision.map Int.toNat) letter p.index v
  let width := width.getD 0
  return shown.fit width.natAbs (p.flags.left || width < 0) p.flags.zeros

/-- The text of the pieces, one after the other. -/
def fillPieces : List Piece → StateT Arguments (Except Fault) Text
  | [] => return []
  | .plain c :: rest => do return c :: (← fillPieces rest)
  | .place p :: rest => do
    let shown ← fillPlace p
    return shown ++ (← fillPieces rest)

/-- Fill a pattern. Arguments that are left over are a fault, unless they are a table. -/
def fill (pattern : Text) (args : List (Value Number)) : Except Fault Text := do
  let (t, rest) ← (fillPieces (piecesOf pattern)).run (Arguments.ofList args)
  if rest.table.isNone && !rest.next.isEmpty then throw .wrongType
  return t

end LayoutDesigner.Trace
