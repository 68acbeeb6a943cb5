import LayoutDesigner.Text

/-!
# Dates and times of settings files

A date is `YYYY-MM-DD`; a time is `HH:MM:SS` with an optional fraction, and may follow a date with
an offset after it. Only what follows them is told: no setting is a date.
-/

namespace LayoutDesigner.Toml

/-- The first `count` code points as digits: their value and what follows. -/
def readDigits (count : Nat) (t : Text) : Option (Nat × Text) :=
  let digits := t.take count
  if digits.length = count ∧ digits.all CodePoint.isAsciiDigit then
    some (digits.foldl (fun n c => 10 * n + (c.val - 0x30)) 0, t.drop count)
  else none

/-- Exactly `count` digits whose value is in a range, and what follows. -/
def readBetween (count low high : Nat) (t : Text) : Option Text :=
  (readDigits count t).bind fun (n, rest) => if low ≤ n ∧ n ≤ high then some rest else none

/-- The fraction of a second, where there is one. -/
def skipFraction (t : Text) : Text :=
  match Text.after? "." t with
  | some rest =>
    let after := rest.dropWhile CodePoint.isAsciiDigit
    if after.length < rest.length then after else t
  | none => t

/-- What follows a time at the start of a text. -/
def afterTime? (t : Text) : Option Text := do
  let t ← readBetween 2 0 23 t
  let t ← Text.after? ":" t
  let t ← readBetween 2 0 59 t
  let t ← Text.after? ":" t
  let t ← readBetween 2 0 59 t
  return skipFraction t

/-- What follows the offset at the start of a text; the text itself where there is none. -/
def skipOffset (t : Text) : Text :=
  match t with
  | [] => t
  | c :: rest =>
    if c = 'Z' ∨ c = 'z' then rest
    else if c = '+' ∨ c = '-' then
      ((readBetween 2 0 23 rest).bind fun t => (Text.after? ":" t).bind (readBetween 2 0 59)).getD t
    else t

/-- The number of days of a month. -/
def daysOf (year month : Nat) : Nat :=
  if month = 2 then
    if year % 4 = 0 ∧ (year % 100 ≠ 0 ∨ year % 400 = 0) then 29 else 28
  else if month = 4 ∨ month = 6 ∨ month = 9 ∨ month = 11 then 30
  else 31

/-- A date at the start of a text: whether there is such a day, and what follows. -/
def afterDate? (t : Text) : Option (Bool × Text) := do
  let (year, t) ← readDigits 4 t
  let t ← Text.after? "-" t
  let (month, t) ← readDigits 2 t
  if !(1 ≤ month ∧ month ≤ 12) then none
  let t ← Text.after? "-" t
  let (day, t) ← readDigits 2 t
  if !(1 ≤ day ∧ day ≤ 31) then none
  return (1 ≤ year ∧ day ≤ daysOf year month, t)

/-- What follows the time after a date; the text itself where there is none. -/
def skipTimeOfDate (t : Text) : Text :=
  match t with
  | [] => t
  | c :: rest =>
    if c = 'T' ∨ c = 't' ∨ c = ' ' then ((afterTime? rest).map skipOffset).getD t else t

end LayoutDesigner.Toml
