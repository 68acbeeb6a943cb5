import LayoutDesigner.Settings

/-!
# Highlighted scripts

A line of a script is highlighted in five passes: keywords, built-in names, numbers, strings and
comments. Each pass marks its own stretches from left to right without overlaps; where the
stretches of two passes overlap, the later pass wins. Stretches are counted in 16-bit units.
-/

namespace LayoutDesigner.Script

/-- What a stretch of a line is. -/
inductive Token where
  | keyword | builtin | number | string | comment
  deriving DecidableEq, Repr

/-- A stretch of a line. -/
structure Span where
  token : Token
  start : Nat
  length : Nat
  deriving DecidableEq, Repr

namespace Token

/-- The passes in their order. -/
def all : List Token := [.keyword, .builtin, .number, .string, .comment]

/-- The words of the script language. -/
def keywords : List Text :=
  ["and", "break", "do", "else", "elseif", "end", "false", "for", "function", "if", "in", "local",
    "nil", "not", "or", "repeat", "return", "then", "true", "until", "while"]

/-- The built-in names that generated scripts use. -/
def builtins : List Text :=
  ["game", "Instance", "UDim2", "UDim", "Vector2", "Color3", "Enum"]

/-- Whether a word ends or begins between two neighbours. -/
def isBoundary (before after : Option CodePoint) : Bool :=
  before.any CodePoint.isAsciiWord != after.any CodePoint.isAsciiWord

/-- The length of the whole word that begins here, if it is one of `words`. -/
def wordAt? (words : List Text) (before : Option CodePoint) (t : Text) : Option Nat :=
  let word := t.takeWhile CodePoint.isAsciiWord
  if !before.any CodePoint.isAsciiWord && words.elem word then some word.length else none

/-- The number of digits that the text begins with. -/
def digitCount (t : Text) : Nat := (t.takeWhile CodePoint.isAsciiDigit).length

/-- The length of a point with digits after it, zero where there is none. -/
def fractionLength : Text → Nat
  | [] => 0
  | c :: rest => if c = ('.' : CodePoint) ∧ 0 < digitCount rest then 1 + digitCount rest else 0

/-- The length of a sign, zero where there is none. -/
def signLength : Text → Nat
  | [] => 0
  | c :: _ => if c = ('+' : CodePoint) ∨ c = ('-' : CodePoint) then 1 else 0

/-- The length of an exponent, zero where there is none. -/
def exponentLength : Text → Nat
  | [] => 0
  | c :: rest =>
    let sign := signLength rest
    let digits := digitCount (rest.drop sign)
    if (c = ('e' : CodePoint) ∨ c = ('E' : CodePoint)) ∧ 0 < digits then 1 + sign + digits else 0

/-- The length of the numeral without a sign that the text begins with: the longest that ends with
its word, the fraction and the exponent each counted in or left out. -/
def unsignedAt? (t : Text) : Option Nat :=
  let digits := digitCount t
  if digits = 0 then none
  else
    let fraction := digits + fractionLength (t.drop digits)
    let ends : List Nat :=
      [fraction + exponentLength (t.drop fraction), fraction,
        digits + exponentLength (t.drop digits), digits]
    ends.find? fun stop => isBoundary t[stop - 1]? t[stop]?

/-- The length of the numeral that begins here. A minus sign belongs to it only after a word. -/
def numberAt? (before : Option CodePoint) (t : Text) : Option Nat :=
  if !isBoundary before t.head? then none
  else
    match t with
    | c :: rest => if c = ('-' : CodePoint) then (unsignedAt? rest).map (· + 1) else unsignedAt? t
    | [] => none

/-- The length up to the end of the string whose opening quote was just passed. A backslash takes
the next code point with it. -/
def closing? : Text → Option Nat
  | [] => none
  | c :: rest =>
    if c = ('"' : CodePoint) then some 1
    else if c = ('\\' : CodePoint) then
      match rest with
      | [] => none
      | _ :: rest => (closing? rest).map (· + 2)
    else (closing? rest).map (· + 1)

/-- The length of the string that begins here, if it is closed. -/
def stringAt? : Text → Option Nat
  | [] => none
  | c :: rest => if c = ('"' : CodePoint) then (closing? rest).map (· + 1) else none

/-- The length of the comment that begins here: two minus signs and the rest of the line. -/
def commentAt? (t : Text) : Option Nat := if t.startsWith "--" then some t.length else none

/-- The length of a stretch that begins here, after `before`. -/
def at? (token : Token) (before : Option CodePoint) (t : Text) : Option Nat :=
  match token with
  | .keyword => wordAt? keywords before t
  | .builtin => wordAt? builtins before t
  | .number => numberAt? before t
  | .string => stringAt? t
  | .comment => commentAt? t

/-- The stretches of one pass, `skip` code points of the present one being passed already. -/
def spansFrom (token : Token) :
    (skip : Nat) → (before : Option CodePoint) → (start : Nat) → Text → List Span
  | _, _, _, [] => []
  | skip + 1, _, start, c :: rest => spansFrom token skip (some c) (start + Text.units [c]) rest
  | 0, before, start, c :: rest =>
    let others (skip : Nat) := spansFrom token skip (some c) (start + Text.units [c]) rest
    match token.at? before (c :: rest) with
    | none => others 0
    | some length => ⟨token, start, Text.units ((c :: rest).take length)⟩ :: others (length - 1)

/-- The stretches of one pass over a line. -/
def spans (token : Token) (line : Text) : List Span := spansFrom token 0 none 0 line

/-- The colour of a pass. -/
def color (s : Settings) : Token → Document
  | .keyword => s.value .keywordColor
  | .builtin => s.value .builtinColor
  | .number => s.value .numberColor
  | .string => s.value .stringColor
  | .comment => s.value .commentColor

/-- The weight of bold letters. -/
def boldWeight : Int := 700

/-- How the stretches of a pass look; keywords may be bold. -/
def format (s : Settings) (token : Token) : Document :=
  let bold := token = .keyword ∧ (s.value .keywordBold).truthy
  .obj (("color", token.color s) :: if bold then [("weight", .int boldWeight)] else [])

end Token

/-- The stretches of a line, pass by pass. -/
def highlightLine (line : Text) : List Span := Token.all.flatMap fun token => token.spans line

/-- The stretches of every line of a text. -/
def highlight (t : Text) : List (List Span) := (Text.splitOn '\n' t).map highlightLine

/-- A stretch with its look. -/
def Span.toDocument (s : Settings) (span : Span) : Document :=
  .arr [.int span.start, .int span.length, span.token.format s]

/-- The highlighted text with the looks of the settings. -/
def highlighted (s : Settings) (t : Text) : Document :=
  .arr ((highlight t).map fun spans => .arr (spans.map (Span.toDocument s)))

end LayoutDesigner.Script
