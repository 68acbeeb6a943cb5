import LayoutDesigner.Toml.Date
import LayoutDesigner.Toml.Table

/-!
# Reading settings files

A settings file is a sequence of lines: a header opens a table, a key with a value fills it, and a
comment runs from `#` to the end of its line.
-/

namespace LayoutDesigner.Toml

open Json (Failure)

/-- A blank inside a line. -/
def isInlineSpace (c : CodePoint) : Bool := c = ' ' || c = '\t'

/-- A blank inside a list. -/
def isListSpace (c : CodePoint) : Bool := isInlineSpace c || c = '\n'

/-- The text without the blanks of its line at its start. -/
def skipInline (t : Text) : Text := t.dropWhile isInlineSpace

/-- A code point that a key needs no quotes for. -/
def isBareKey (c : CodePoint) : Bool := c.isAsciiWord || c = '-'

/-- A control character that is not allowed in comments and in texts of one line. -/
def isControl (c : CodePoint) : Bool := (c.val < 0x20 && c ≠ '\t') || c.val == 0x7F

/-- A control character that is not allowed in a text of several lines. -/
def isControlInBlock (c : CodePoint) : Bool := isControl c && c ≠ '\n'

/-- Every code point but the line feed. -/
def isInLine (c : CodePoint) : Bool := c ≠ '\n'

/-- What follows a comment, the text itself where there is none. -/
def skipComment (t : Text) : Except Failure Text :=
  match Text.after? "#" t with
  | none => .ok t
  | some rest =>
    if (rest.takeWhile isInLine).any isControl then .error .malformed
    else .ok (rest.dropWhile isInLine)

/-- What follows blanks, line ends and comments. `fuel` bounds the number of comments. -/
def skipListSpace : (fuel : Nat) → Text → Except Failure Text
  | 0, t => .ok t
  | fuel + 1, t => do
    let after ← skipComment (t.dropWhile isListSpace)
    if after.length = t.length then return t else skipListSpace fuel after

/-- The code point that a number of an escape stands for; surrogates are none. -/
def scalar? (n : Nat) : Option CodePoint :=
  if h : n < 0x110000 then
    if 0xD800 ≤ n ∧ n ≤ 0xDFFF then none else some ⟨n, h⟩
  else none

/-- An escape of a number with `count` hexadecimal digits. -/
def readHexEscape (count : Nat) (t : Text) : Option (Text × Text) := do
  let values := (t.take count).map CodePoint.hexValue?
  if values.length ≠ count then none
  let digits ← values.mapM id
  let c ← scalar? (digits.foldl (fun n d => 16 * n + d) 0)
  return ([c], t.drop count)

/-- An escape after its backslash: what it stands for, and what follows. In a block a backslash at
the end of a line takes the line end and all blanks after it. -/
def readEscape (block : Bool) (t : Text) : Option (Text × Text) :=
  match t with
  | [] => none
  | c :: rest =>
    if block && isListSpace c then
      if c = '\n' then some ([], rest.dropWhile isListSpace)
      else
        match skipInline rest with
        | [] => some ([], [])
        | d :: after => if d = '\n' then some ([], after.dropWhile isListSpace) else none
    else
      match c.toChar with
      | 'u' => readHexEscape 4 rest
      | 'U' => readHexEscape 8 rest
      | 'b' => some ([CodePoint.ofNat 8], rest)
      | 't' => some ([CodePoint.ofNat 9], rest)
      | 'n' => some ([CodePoint.ofNat 10], rest)
      | 'f' => some ([CodePoint.ofNat 12], rest)
      | 'r' => some ([CodePoint.ofNat 13], rest)
      | '"' => some ([c], rest)
      | '\\' => some ([c], rest)
      | _ => none

/-- A text between double quotes after its opening: the text and what follows its closing. A block
closes with three quotes. -/
def readQuoted (block : Bool) : (fuel : Nat) → Text → Option (Text × Text)
  | 0, _ => none
  | _, [] => none
  | fuel + 1, c :: rest =>
    let continued (found : Text) (rest : Text) : Option (Text × Text) :=
      (readQuoted block fuel rest).map fun (t, after) => (found ++ t, after)
    if c = '"' then
      if !block then some ([], rest)
      else
        match Text.after? "\"\"" rest with
        | some after => some ([], after)
        | none => continued [c] rest
    else if c = '\\' then (readEscape block rest).bind fun (found, rest) => continued found rest
    else if (if block then isControlInBlock c else isControl c) then none
    else continued [c] rest

/-- A literal text after its opening, up to `closing`. -/
def readLiteral (bad : CodePoint → Bool) (closing : Text) : Text → Option (Text × Text)
  | [] => none
  | c :: rest =>
    match Text.after? closing (c :: rest) with
    | some after => some ([], after)
    | none => if bad c then none else (readLiteral bad closing rest).map fun (t, after) => (c :: t, after)

/-- Up to two quotes directly after the closing of a block belong to its text. -/
def readExtraQuotes (quote : CodePoint) (found rest : Text) : Text × Text :=
  let extra := (rest.take 2).takeWhile (· = quote)
  (found ++ extra, rest.drop extra.length)

/-- A text of any of the four forms, at the start of `t`. -/
def readText (t : Text) : Option (Text × Text) :=
  let afterBreak (t : Text) : Text := (Text.after? "\n" t).getD t
  match Text.after? "\"\"\"" t, Text.after? "'''" t, Text.after? "\"" t, Text.after? "'" t with
  | some rest, _, _, _ =>
    (readQuoted true (t.length + 1) (afterBreak rest)).map fun (found, rest) =>
      readExtraQuotes '"' found rest
  | _, some rest, _, _ =>
    (readLiteral isControlInBlock "'''" (afterBreak rest)).map fun (found, rest) =>
      readExtraQuotes '\'' found rest
  | _, _, some rest, _ => readQuoted false (t.length + 1) rest
  | _, _, _, some rest => readLiteral isControl "'" rest
  | _, _, _, _ => none

/-- One key of a path. -/
def readKeyPart (t : Text) : Option (Text × Text) :=
  match t with
  | [] => none
  | c :: rest =>
    if isBareKey c then some (t.takeWhile isBareKey, t.dropWhile isBareKey)
    else if c = '\'' then readLiteral isControl "'" rest
    else if c = '"' then readQuoted false (t.length + 1) rest
    else none

/-- A path of keys with dots between them, and what follows it and its blanks. -/
def readPath : (fuel : Nat) → Text → Option (Path × Text)
  | 0, _ => none
  | fuel + 1, t => do
    let (key, rest) ← readKeyPart t
    let rest := skipInline rest
    match Text.after? "." rest with
    | none => return ([key], rest)
    | some rest =>
      let (path, after) ← readPath fuel (skipInline rest)
      return (key :: path, after)

/-- The digits at the start of a text, single underscores allowed before each, and what follows. -/
def takeGrouped (isDigit : CodePoint → Bool) : Text → Text × Text
  | [] => ([], [])
  | c :: rest =>
    if isDigit c then
      let (digits, after) := takeGrouped isDigit rest
      (c :: digits, after)
    else if c = '_' && (rest.head?.any isDigit) then takeGrouped isDigit rest
    else ([], c :: rest)

/-- Digits with single underscores allowed between them, and what follows; at least one digit is
needed. -/
def readGrouped (isDigit : CodePoint → Bool) (t : Text) : Option (Text × Text) :=
  if t.head?.any isDigit then some (takeGrouped isDigit t) else none

/-- The number that digits of a base stand for. -/
def valueOf (base : Nat) (digits : Text) : Nat :=
  digits.foldl (fun n c => base * n + (c.hexValue?.getD 0)) 0

/-- An integer of base 16, 2 or 8, after its mark. -/
def readBased (t : Text) : Option (Int × Text) :=
  let below (bound : Nat) (c : CodePoint) : Bool := c.hexValue?.any fun n => n < bound
  let read (base : Nat) (rest : Text) : Option (Int × Text) :=
    (readGrouped (below base) rest).map fun (digits, after) => ((valueOf base digits : Int), after)
  match Text.after? "0x" t, Text.after? "0b" t, Text.after? "0o" t with
  | some rest, _, _ => read 16 rest
  | _, some rest, _ => read 2 rest
  | _, _, some rest => read 8 rest
  | _, _, _ => none

/-- The whole part of a decimal numeral, which does not begin with a zero that is not alone. -/
def readWholePart (t : Text) : Option (Text × Text) :=
  match Text.after? "0" t with
  | some rest => some ("0", rest)
  | none => readGrouped CodePoint.isAsciiDigit t

/-- An optional sign, and what follows. -/
def readSign (t : Text) : Text × Text :=
  match t with
  | [] => ([], [])
  | c :: rest => if c = '+' ∨ c = '-' then ([c], rest) else ([], t)

/-- The fraction of a numeral with its point, empty where there is none. -/
def readFractionPart (t : Text) : Text × Text :=
  match (Text.after? "." t).bind (readGrouped CodePoint.isAsciiDigit) with
  | some (digits, rest) => ('.' :: digits, rest)
  | none => ([], t)

/-- The exponent of a numeral with its mark, empty where there is none. -/
def readExponentPart (t : Text) : Text × Text :=
  match t with
  | [] => ([], [])
  | c :: rest =>
    if c = 'e' ∨ c = 'E' then
      let (sign, rest) := readSign rest
      match readGrouped CodePoint.isAsciiDigit rest with
      | some (digits, after) => (c :: (sign ++ digits), after)
      | none => ([], t)
    else ([], t)

/-- A decimal numeral, and what follows. -/
def readDecimal (t : Text) : Except Failure (Option (Number × Text)) :=
  let (sign, rest) := readSign t
  match readWholePart rest with
  | none => .ok none
  | some (whole, rest) =>
    let (fraction, rest) := readFractionPart rest
    let (exponent, rest) := readExponentPart rest
    if fraction.isEmpty && exponent.isEmpty then
      if whole.length > Fault.digitLimit then .error (.numeralTooLong whole.length)
      else
        let n : Int := valueOf 10 whole
        .ok (some (.int (if sign = ("-" : Text) then -n else n), rest))
    else
      .ok ((Number.readReal? (sign ++ whole ++ fraction ++ exponent)).map fun r => (.real r.toFloat, rest))

/-- A word for what is no finite number, with an optional sign. -/
def readNonFinite (t : Text) : Option (Number × Text) :=
  let (sign, rest) := readSign t
  match Text.after? "inf" rest, Text.after? "nan" rest with
  | some after, _ =>
    some (.real (if sign = ("-" : Text) then -Number.infinity else Number.infinity), after)
  | _, some after => some (.real Number.nan, after)
  | _, _ => none

/-- A value that is no text, list or table: a word, a date, a time or a number. Dates and times are
no settings; their place is taken by null. -/
def readScalar (t : Text) : Except Failure (Document × Text) :=
  match Text.after? "true" t, Text.after? "false" t, afterDate? t, afterTime? t with
  | some rest, _, _, _ => .ok (.bool true, rest)
  | _, some rest, _, _ => .ok (.bool false, rest)
  | _, _, some (real, rest), _ =>
    let rest := skipTimeOfDate rest
    if real then .ok (.null, rest) else .error .malformed
  | _, _, _, some rest => .ok (.null, rest)
  | _, _, _, _ =>
    match readBased t with
    | some (n, rest) => .ok (.num (.int n), rest)
    | none => do
      match ← readDecimal t with
      | some (n, rest) => return (.num n, rest)
      | none =>
        match readNonFinite t with
        | some (n, rest) => return (.num n, rest)
        | none => throw .malformed

/-- The result of a reader that only tells whether it succeeded. -/
def need {β : Type} (found : Option β) : Except Failure β :=
  match found with
  | some b => .ok b
  | none => .error .malformed

/-- Whether a value must not be changed once it is there: a list or a table written as a value. -/
def isCompound : Document → Bool
  | .arr _ => true
  | .obj _ => true
  | _ => false

/-- Put a value of a table written as a value under a path. -/
def putInline (tables : Tables) (path : Path) (value : Document) : Option Tables := do
  if tables.forbids .change path then none
  let members ← inTable false (addMember (path.getLastD []) value) path.dropLast tables.members
  let tables := { tables with members }
  return if isCompound value then tables.mark path .change true else tables

mutual

/-- Read a value. `fuel` bounds the number of values and keys. -/
def readValue : (fuel : Nat) → Text → Except Failure (Document × Text)
  | 0, _ => .error .malformed
  | fuel + 1, t =>
    match t with
    | [] => .error .malformed
    | c :: rest =>
      match c.toChar with
      | '"' => (need (readText t)).map fun (found, after) => (.str found, after)
      | '\'' => (need (readText t)).map fun (found, after) => (.str found, after)
      | '[' => do
        let rest ← skipListSpace (t.length + 1) rest
        match Text.after? "]" rest with
        | some after => return (.arr [], after)
        | none =>
          let (items, after) ← readItems fuel rest
          return (.arr items, after)
      | '\x7b' =>
        let rest := skipInline rest
        match Text.after? "\x7d" rest with
        | some after => .ok (.obj [], after)
        | none => readPairs fuel {} rest
      | _ => readScalar t

/-- The items of a list up to its closing. -/
def readItems : (fuel : Nat) → Text → Except Failure (List Document × Text)
  | 0, _ => .error .malformed
  | fuel + 1, t => do
    let (v, rest) ← readValue fuel t
    let rest ← skipListSpace (rest.length + 1) rest
    match Text.after? "]" rest with
    | some after => return ([v], after)
    | none =>
      let rest ← need (Text.after? "," rest)
      let rest ← skipListSpace (rest.length + 1) rest
      match Text.after? "]" rest with
      | some after => return ([v], after)
      | none =>
        let (items, after) ← readItems fuel rest
        return (v :: items, after)

/-- The pairs of a table written as a value, up to its closing. -/
def readPairs : (fuel : Nat) → Tables → Text → Except Failure (Document × Text)
  | 0, _, _ => .error .malformed
  | fuel + 1, tables, t => do
    let (path, rest) ← need (readPath (t.length + 1) t)
    let rest ← need (Text.after? "=" rest)
    let (v, rest) ← readValue fuel (skipInline rest)
    let tables ← need (putInline tables path v)
    let rest := skipInline rest
    match Text.after? "\x7d" rest with
    | some after => return (.obj tables.members, after)
    | none => readPairs fuel tables (skipInline (← need (Text.after? "," rest)))

end

/-- The beginnings of a path of keys, each longer than the one before, the path itself excluded. -/
def properStarts (path : Path) : List Path := (List.range (path.length - 1)).map fun i => path.take (i + 1)

/-- A key with its value, in the table that `header` opened. -/
def readPair (tables : Tables) (header : Path) (t : Text) : Except Failure (Tables × Text) := do
  let (path, rest) ← need (readPath (t.length + 1) t)
  let rest ← need (Text.after? "=" rest)
  let (v, rest) ← readValue (rest.length + 1) (skipInline rest)
  let starts := (properStarts path).map (header ++ ·)
  if starts.any (tables.forbids .reopening) then throw .malformed
  let tables := { tables with pending := starts ++ tables.pending }
  if tables.forbids .change (header ++ path.dropLast) then throw .malformed
  let members ← need
    (inTable true (addMember (path.getLastD []) v) (header ++ path.dropLast) tables.members)
  let tables := { tables with members }
  return (if isCompound v then tables.mark (header ++ path) .change true else tables, rest)

/-- A header of a table after its opening bracket. -/
def readTableHeader (tables : Tables) (t : Text) : Except Failure (Tables × Path × Text) := do
  let (path, rest) ← need (readPath (t.length + 1) (skipInline t))
  if tables.forbids .reopening path || tables.forbids .change path then throw .malformed
  let tables := tables.mark path .reopening false
  let members ← need (inTable true some path tables.members)
  return ({ tables with members }, path, ← need (Text.after? "]" rest))

/-- A header of a table in a list of tables, after its opening brackets. -/
def readListHeader (tables : Tables) (t : Text) : Except Failure (Tables × Path × Text) := do
  let (path, rest) ← need (readPath (t.length + 1) (skipInline t))
  if tables.forbids .change path then throw .malformed
  let tables := (tables.unmark path).mark path .reopening false
  let members ← need (inTable true (addTable (path.getLastD [])) path.dropLast tables.members)
  return ({ tables with members }, path, ← need (Text.after? "]]" rest))

/-- A line up to its comment or end: the tables, the header in force, and what follows. -/
def readStatement (tables : Tables) (header : Path) (t : Text) :
    Except Failure (Tables × Path × Text) :=
  match t with
  | [] => .ok (tables, header, t)
  | c :: rest =>
    if isBareKey c || c = '"' || c = '\'' then
      (readPair tables header t).map fun (tables, rest) => (tables, header, skipInline rest)
    else if c = '[' then
      let tables := tables.settle
      (match Text.after? "[" rest with
        | some rest => readListHeader tables rest
        | none => readTableHeader tables rest).map
        fun (tables, header, rest) => (tables, header, skipInline rest)
    else if c = '#' ∨ c = '\n' then .ok (tables, header, t)
    else .error .malformed

/-- Read lines to the end. `fuel` bounds the number of lines. -/
def readLines : (fuel : Nat) → Tables → Path → Text → Except Failure Tables
  | 0, tables, _, _ => .ok tables
  | fuel + 1, tables, header, t => do
    let (tables, header, rest) ← readStatement tables header (skipInline t)
    match ← skipComment rest with
    | [] => return tables
    | c :: rest => if c = '\n' then readLines fuel tables header rest else throw .malformed

/-- The text with a line feed at the end of every line that ended with two characters. -/
def joinLineEnds (t : Text) : Text := Text.replace "\r\n" "\n" t

/-- Read a settings file. -/
def read (t : Text) : Except Failure Document := do
  let t := joinLineEnds t
  return .obj (← readLines (t.length + 1) {} [] t).members

end LayoutDesigner.Toml
