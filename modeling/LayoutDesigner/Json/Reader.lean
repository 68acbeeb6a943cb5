import LayoutDesigner.Number
import LayoutDesigner.Value

/-!
# Reading documents

A document is read from text with the usual grammar of objects, lists, strings, numbers and the
three words. Besides, `NaN`, `Infinity` and `-Infinity` are numbers, escapes may spell lone
surrogates, and of members with one key the last counts.
-/

namespace LayoutDesigner

/-- A value whose numbers are integers and floats: what files hold and commands receive. -/
abbrev Document := Value Number

namespace Json

/-- Why a text is no document. -/
inductive Failure where
  | malformed
  | numeralTooLong (digits : Nat)
  | tooDeep
  deriving DecidableEq, Repr

/-- The blanks that may stand between the parts of a document. -/
def isSpace (c : CodePoint) : Bool := c = ' ' || c = '\t' || c = '\n' || c = '\r'

/-- The text without the blanks at its start. -/
def skipSpace (t : Text) : Text := t.dropWhile isSpace

/-- Four hexadecimal digits as a number. -/
def hexFour? (a b c d : CodePoint) : Option Nat := do
  return (((← a.hexValue?) * 16 + (← b.hexValue?)) * 16 + (← c.hexValue?)) * 16 + (← d.hexValue?)

/-- The code point of an escape of one letter. -/
def escapeLetter? (c : CodePoint) : Option CodePoint :=
  match c.toChar with
  | '"' => some c
  | '\\' => some c
  | '/' => some c
  | 'b' => some (CodePoint.ofNat 8)
  | 'f' => some (CodePoint.ofNat 12)
  | 'n' => some (CodePoint.ofNat 10)
  | 'r' => some (CodePoint.ofNat 13)
  | 't' => some (CodePoint.ofNat 9)
  | _ => none

/-- The second half of a surrogate pair, if the text goes on with its escape: its number and what
follows. -/
def lowHalf? (t : Text) : Option (Nat × Text) :=
  match t with
  | b :: u :: p :: q :: r :: s :: rest =>
    if b = '\\' ∧ u = 'u' then
      (hexFour? p q r s).bind fun n =>
        if 0xDC00 ≤ n ∧ n ≤ 0xDFFF then some (n, rest) else none
    else none
  | _ => none

/-- The second half of a pair of escapes is taken off the text, so what is left is shorter. -/
theorem lowHalf?_length {t rest : Text} {n : Nat} (h : lowHalf? t = some (n, rest)) :
    rest.length < t.length := by
  unfold lowHalf? at h
  split at h
  · split at h
    · obtain ⟨m, -, hm⟩ := Option.bind_eq_some_iff.1 h
      split at hm
      · simp only [Option.some.injEq, Prod.mk.injEq] at hm
        obtain ⟨-, rfl⟩ := hm
        simp only [List.length_cons]
        omega
      · cases hm
    · cases h
  · cases h

/-- Read a string after its opening quote: its text and what follows the closing quote. -/
def readString (t : Text) : Option (Text × Text) :=
  match t with
  | [] => none
  | c :: rest =>
    if c = '"' then some ([], rest)
    else if c.val < 0x20 then none
    else if c = '\\' then
      match rest with
      | [] => none
      | e :: rest₁ =>
        if e = 'u' then
          match rest₁ with
          | p :: q :: r :: s :: rest₂ =>
            match hexFour? p q r s with
            | none => none
            | some n =>
              if 0xD800 ≤ n ∧ n ≤ 0xDBFF then
                match _h : lowHalf? rest₂ with
                | some (low, rest₃) =>
                  (readString rest₃).map fun (text, after) =>
                    (CodePoint.ofNat (0x10000 + (n - 0xD800) * 1024 + (low - 0xDC00)) :: text, after)
                | none => (readString rest₂).map fun (text, after) => (CodePoint.ofNat n :: text, after)
              else (readString rest₂).map fun (text, after) => (CodePoint.ofNat n :: text, after)
          | _ => none
        else
          match escapeLetter? e with
          | none => none
          | some d => (readString rest₁).map fun (text, after) => (d :: text, after)
    else (readString rest).map fun (text, after) => (c :: text, after)
  termination_by t.length
  decreasing_by
    all_goals simp only [List.length_cons]
    · have := lowHalf?_length _h
      omega
    all_goals omega

/-- The fraction of a numeral, if it has one: its digits as a number, their count, what follows. -/
def readFraction (t : Text) : Option (Nat × Nat × Text) :=
  match t with
  | c :: rest =>
    if c = '.' then
      let (n, count, after) := Number.takeDigits rest
      if count = 0 then none else some (n, count, after)
    else none
  | [] => none

/-- The exponent of a numeral, if it has one, and what follows. -/
def readExponent (t : Text) : Option (Int × Text) :=
  match t with
  | c :: rest =>
    if c = 'e' ∨ c = 'E' then
      let (negative, rest) := Number.takeSign rest
      let (n, count, after) := Number.takeDigits rest
      if count = 0 then none else some (if negative then -(n : Int) else n, after)
    else none
  | [] => none

/-- The whole part of a numeral: its digits as a number, their count, what follows. A zero is not
followed by more digits. -/
def readWhole (t : Text) : Option (Nat × Nat × Text) :=
  match t with
  | c :: rest =>
    if c = '0' then some (0, 1, rest)
    else
      let (n, count, after) := Number.takeDigits t
      if count = 0 then none else some (n, count, after)
  | [] => none

/-- Read a number and what follows. A fraction or an exponent makes it a float. -/
def readNumber (t : Text) : Except Failure (Number × Text) :=
  let (negative, unsigned) := match t with
    | c :: rest => if c = '-' then (true, rest) else (false, t)
    | [] => (false, t)
  match readWhole unsigned with
  | none =>
    match Text.after? "Infinity" unsigned with
    | some rest => .ok (.real (if negative then -Number.infinity else Number.infinity), rest)
    | none => .error .malformed
  | some (whole, wholeCount, rest) =>
    let fraction := readFraction rest
    let rest₁ := (fraction.map fun f => f.2.2).getD rest
    let exponent := readExponent rest₁
    let rest₂ := (exponent.map Prod.snd).getD rest₁
    if fraction.isNone && exponent.isNone then
      if wholeCount > Fault.digitLimit then .error (.numeralTooLong wholeCount)
      else .ok (.int (if negative then -(whole : Int) else whole), rest₂)
    else
      let (digits, places) := match fraction with
        | some (f, count, _) => (whole * tenTo count + f, count)
        | none => (whole, 0)
      let e := (exponent.map Prod.fst).getD 0
      .ok (.real (Number.Real.decimal negative digits (e - (places : Int))).toFloat, rest₂)

mutual

/-- Read a value at the start of a text and what follows it. `fuel` bounds the number of values and
`depth` their nesting. -/
def readValue : (fuel depth : Nat) → Text → Except Failure (Document × Text)
  | 0, _, _ => .error .malformed
  | fuel + 1, depth, t =>
    match t with
    | [] => .error .malformed
    | c :: rest =>
      match c.toChar with
      | '"' =>
        match readString rest with
        | some (text, after) => .ok (.str text, after)
        | none => .error .malformed
      | '\x7b' =>
        match depth with
        | 0 => .error .tooDeep
        | depth + 1 =>
          let rest := skipSpace rest
          match Text.after? "\x7d" rest with
          | some after => .ok (.obj [], after)
          | none => (readMembers fuel depth rest).map fun (ms, after) => (.obj (Value.gather ms), after)
      | '[' =>
        match depth with
        | 0 => .error .tooDeep
        | depth + 1 =>
          let rest := skipSpace rest
          match Text.after? "]" rest with
          | some after => .ok (.arr [], after)
          | none => (readItems fuel depth rest).map fun (items, after) => (.arr items, after)
      | _ =>
        match Text.after? "null" t, Text.after? "true" t, Text.after? "false" t, Text.after? "NaN" t with
        | some after, _, _, _ => .ok (.null, after)
        | _, some after, _, _ => .ok (.bool true, after)
        | _, _, some after, _ => .ok (.bool false, after)
        | _, _, _, some after => .ok (.num (.real Number.nan), after)
        | _, _, _, _ => (readNumber t).map fun (n, after) => (.num n, after)

/-- Read the items of a list up to its closing bracket. -/
def readItems : (fuel depth : Nat) → Text → Except Failure (List Document × Text)
  | 0, _, _ => .error .malformed
  | fuel + 1, depth, t => do
    let (v, rest) ← readValue fuel depth t
    match skipSpace rest with
    | [] => throw .malformed
    | c :: rest =>
      if c = ']' then return ([v], rest)
      else if c = ',' then
        let (items, after) ← readItems fuel depth (skipSpace rest)
        return (v :: items, after)
      else throw .malformed

/-- Read the members of an object up to its closing brace. -/
def readMembers : (fuel depth : Nat) → Text → Except Failure (List (Text × Document) × Text)
  | 0, _, _ => .error .malformed
  | fuel + 1, depth, t => do
    let some inside := Text.after? "\"" t | throw .malformed
    let some (key, rest) := readString inside | throw .malformed
    let some rest := Text.after? ":" (skipSpace rest) | throw .malformed
    let (v, rest) ← readValue fuel depth (skipSpace rest)
    match skipSpace rest with
    | [] => throw .malformed
    | c :: rest =>
      if c = '\x7d' then return ([(key, v)], rest)
      else if c = ',' then
        let (members, after) ← readMembers fuel depth (skipSpace rest)
        return ((key, v) :: members, after)
      else throw .malformed

end

/-- Read a whole text as one document; `depth` is how many calls may be nested, one for each list and
each object inside another. -/
def read (t : Text) (depth : Nat := usualDepth) : Except Failure Document := do
  let (v, rest) ← readValue (t.length + 1) depth (skipSpace t)
  if (skipSpace rest).isEmpty then return v else throw .malformed

end Json

end LayoutDesigner
