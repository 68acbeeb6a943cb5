import LayoutDesigner.Json.Writer
import LayoutDesigner.Proofs.Edit
import LayoutDesigner.Proofs.NumeralText

/-!
# Unfinished documents

A scan of a document knows whether it stands in a string and how many lists and objects are open. What
is read as a document leaves nothing open. While an object is written, its brace stays open up to the
last code point, so no part of it that lacks its end is read as a document.
-/

namespace LayoutDesigner.Json

/-- Where a scan stands: outside of strings, in a string, or behind a backslash in a string. -/
inductive Place where
  | outside
  | inside
  | escaped

/-- The place of a scan and the number of lists and objects that are open there. -/
structure Scan where
  place : Place
  opened : Nat

namespace Scan

/-- A scan that stands outside of strings. -/
abbrev level (opened : Nat) : Scan := ⟨.outside, opened⟩

/-- The scan after one code point more. -/
def next (s : Scan) (c : CodePoint) : Scan :=
  match s.place with
  | .escaped => ⟨.inside, s.opened⟩
  | .inside =>
    if c = '"' then ⟨.outside, s.opened⟩
    else if c = '\\' then ⟨.escaped, s.opened⟩
    else s
  | .outside =>
    if c = '"' then ⟨.inside, s.opened⟩
    else if c = '[' ∨ c = '\x7b' then ⟨.outside, s.opened + 1⟩
    else if c = ']' ∨ c = '\x7d' then ⟨.outside, s.opened - 1⟩
    else s

/-- The scan after a text more. -/
def run (s : Scan) (t : Text) : Scan := t.foldl next s

variable {s : Scan} {t rest after : Text} {c : CodePoint} {n a b d : Nat}

@[simp] theorem run_nil : s.run [] = s := rfl

@[simp] theorem run_cons : s.run (c :: t) = (s.next c).run t := rfl

/-- A text is scanned part by part. -/
theorem run_append : s.run (t ++ rest) = (s.run t).run rest := List.foldl_append

end Scan

open Scan

variable {t u rest after text : Text} {c : CodePoint} {n a b d : Nat}

/-- A code point that is neither a quote nor a bracket nor a brace. -/
def IsPlain (c : CodePoint) : Prop :=
  c ∉ ([.ofChar '"', .ofChar '[', .ofChar ']', .ofChar '\x7b', .ofChar '\x7d'] : List CodePoint)

instance : Decidable (IsPlain c) := inferInstanceAs (Decidable (_ ∉ _))

/-- A point of a numeral is plain. -/
theorem plain_of_numeral (numeral : c.isNumeralPoint) : IsPlain c := by
  intro listed
  simp only [List.mem_cons, List.not_mem_nil, or_false] at listed
  rcases listed with rfl | rfl | rfl | rfl | rfl <;> cases numeral

/-- A plain point leaves the level as it is. -/
theorem next_plain (plain : IsPlain c) : (level n).next c = level n := by
  simp only [IsPlain, List.mem_cons, List.not_mem_nil, or_false, not_or] at plain
  simp [next, plain]

/-- A plain text leaves the level as it is. -/
theorem run_plain (plain : ∀ c ∈ t, IsPlain c) : (level n).run t = level n := by
  induction t with
  | nil => rfl
  | cons c rest ih =>
      rw [run_cons, next_plain (plain c List.mem_cons_self), ih fun c listed => plain c (List.mem_cons_of_mem _ listed)]

/-- Reading from the first text to the second one goes from `a` open lists and objects to `b`. -/
def Consumes (a b : Nat) (t rest : Text) : Prop :=
  ∃ used, t = used ++ rest ∧ ∀ n, (level (n + a)).run used = level (n + b)

namespace Consumes

/-- What is consumed in two parts is consumed in one. -/
theorem trans (first : Consumes a b t u) (second : Consumes b d u rest) : Consumes a d t rest := by
  obtain ⟨used, rfl, ran⟩ := first
  obtain ⟨more, rfl, ran'⟩ := second
  exact ⟨used ++ more, (List.append_assoc ..).symm, fun n => by rw [run_append, ran, ran']⟩

/-- A plain text is consumed at its level. -/
theorem plain {used : Text} (plain : ∀ c ∈ used, IsPlain c) : Consumes a a (used ++ rest) rest :=
  ⟨used, rfl, fun _ => run_plain plain⟩

/-- An opening bracket is consumed to one level more. -/
theorem opening (isOpening : c = '[' ∨ c = '\x7b') : Consumes a (a + 1) (c :: rest) rest :=
  ⟨[c], rfl, fun n => by rcases isOpening with rfl | rfl <;> rfl⟩

/-- A closing bracket is consumed to one level less. -/
theorem closing (isClosing : c = ']' ∨ c = '\x7d') : Consumes (a + 1) a (c :: rest) rest :=
  ⟨[c], rfl, fun n => by rcases isClosing with rfl | rfl <;> rfl⟩

end Consumes

/-- A code point that neither ends a string nor begins an escape. -/
def IsQuiet (c : CodePoint) : Prop := c ≠ '"' ∧ c ≠ '\\'

/-- A quiet point leaves a string open. -/
theorem next_quiet (quiet : IsQuiet c) : Scan.next ⟨.inside, n⟩ c = ⟨.inside, n⟩ := by
  simp [next, quiet.1, quiet.2]

/-- A hexadecimal digit is quiet. -/
theorem quiet_of_hexValue? {value : Nat} (isHex : c.hexValue? = some value) : IsQuiet c := by
  constructor <;> rintro rfl <;> cases isHex

/-- Four hexadecimal digits are quiet. -/
theorem quiet_of_hexFour? {p q r s : CodePoint} {value : Nat} (isHex : hexFour? p q r s = some value) :
    IsQuiet p ∧ IsQuiet q ∧ IsQuiet r ∧ IsQuiet s := by
  unfold hexFour? at isHex
  cases first : p.hexValue? with
  | none => simp [first] at isHex
  | some _ =>
  cases second : q.hexValue? with
  | none => simp [first, second] at isHex
  | some _ =>
  cases third : r.hexValue? with
  | none => simp [first, second, third] at isHex
  | some _ =>
  cases fourth : s.hexValue? with
  | none => simp [first, second, third, fourth] at isHex
  | some _ =>
    exact ⟨quiet_of_hexValue? first, quiet_of_hexValue? second, quiet_of_hexValue? third, quiet_of_hexValue? fourth⟩

/-- An escape of four hexadecimal digits stays in its string. -/
theorem run_hexFour? {p q r s : CodePoint} {value : Nat} (isHex : hexFour? p q r s = some value) :
    Scan.run ⟨.inside, n⟩ ['\\', 'u', p, q, r, s] = ⟨.inside, n⟩ := by
  obtain ⟨quietP, quietQ, quietR, quietS⟩ := quiet_of_hexFour? isHex
  have escaped : Scan.run ⟨.inside, n⟩ ['\\', 'u'] = ⟨.inside, n⟩ := rfl
  change ((((Scan.run ⟨.inside, n⟩ ['\\', 'u']).next p).next q).next r).next s = _
  rw [escaped, next_quiet quietP, next_quiet quietQ, next_quiet quietR, next_quiet quietS]

/-- The second half of a pair of escapes is an escape of four hexadecimal digits. -/
theorem lowHalf?_eq_some {low : Nat} (isLow : lowHalf? t = some (low, rest)) :
    ∃ p q r s value, t = CodePoint.ofChar '\\' :: CodePoint.ofChar 'u' :: p :: q :: r :: s :: rest ∧
      hexFour? p q r s = some value := by
  unfold lowHalf? at isLow
  split at isLow
  · next b u p q r s after =>
      split at isLow
      · next begins =>
          obtain ⟨value, isHex, isValue⟩ := Option.bind_eq_some_iff.mp isLow
          split at isValue
          · obtain ⟨-, rfl⟩ := Prod.mk.inj (Option.some.inj isValue)
            exact ⟨p, q, r, s, value, by rw [begins.1, begins.2], isHex⟩
          · cases isValue
      · cases isLow
  · cases isLow

/-- From within a string, reading goes to the end of it. -/
def Closes (t rest : Text) : Prop := ∃ used, t = used ++ rest ∧ ∀ n, Scan.run ⟨.inside, n⟩ used = level n

/-- What leaves a string open may come before what closes it. -/
theorem Closes.cons (start : Text) (stays : ∀ n, Scan.run ⟨.inside, n⟩ start = ⟨.inside, n⟩) (closes : Closes t rest) :
    Closes (start ++ t) rest := by
  obtain ⟨used, rfl, ran⟩ := closes
  exact ⟨start ++ used, (List.append_assoc ..).symm, fun n => by rw [run_append, stays, ran]⟩

/-- What was read after a code point went as far as all of it. -/
theorem read_rest {found : Option (Text × Text)} {d : CodePoint}
    (read : (found.map fun (text, after) => (d :: text, after)) = some (text, after)) :
    ∃ text, found = some (text, after) := by
  obtain ⟨⟨text, _⟩, isRest, same⟩ := Option.map_eq_some_iff.mp read
  obtain ⟨-, rfl⟩ := Prod.mk.inj same
  exact ⟨text, isRest⟩

/-- A string that is read is closed. -/
theorem closes_readString (read : readString t = some (text, after)) : Closes t after := by
  fun_induction readString t generalizing text with
  | case2 rest =>
      obtain ⟨-, rfl⟩ := Prod.mk.inj (Option.some.inj read)
      exact ⟨[CodePoint.ofChar '"'], rfl, fun _ => rfl⟩
  | case6 p q r s rest high isHex _ low rest' isLow _ _ ih =>
      obtain ⟨p', q', r', s', value, rfl, isHex'⟩ := lowHalf?_eq_some isLow
      obtain ⟨_, read⟩ := read_rest read
      exact ((ih read).cons _ fun _ => run_hexFour? isHex').cons _ fun _ => run_hexFour? isHex
  | case7 p q r s rest value isHex _ _ _ _ ih =>
      obtain ⟨_, read⟩ := read_rest read
      exact (ih read).cons _ fun _ => run_hexFour? isHex
  | case8 p q r s rest value isHex _ _ _ ih =>
      obtain ⟨_, read⟩ := read_rest read
      exact (ih read).cons _ fun _ => run_hexFour? isHex
  | case11 e rest _ d _ _ _ ih =>
      obtain ⟨_, read⟩ := read_rest read
      exact (ih read).cons [CodePoint.ofChar '\\', e] fun _ => rfl
  | case12 c rest notQuote _ notEscape ih =>
      obtain ⟨_, read⟩ := read_rest read
      exact (ih read).cons [c] fun _ => next_quiet ⟨notQuote, notEscape⟩
  | _ => cases read

/-- The text goes on with the rest after code points that are neither quotes nor brackets nor braces. -/
def Skips (t rest : Text) : Prop := ∃ used, t = used ++ rest ∧ ∀ c ∈ used, IsPlain c

namespace Skips

/-- Nothing is skipped. -/
theorem refl (t : Text) : Skips t t := ⟨[], rfl, List.forall_mem_nil _⟩

/-- What is skipped in two parts is skipped in one. -/
theorem trans (first : Skips t u) (second : Skips u rest) : Skips t rest := by
  obtain ⟨used, rfl, plain⟩ := first
  obtain ⟨more, rfl, plain'⟩ := second
  exact ⟨used ++ more, (List.append_assoc ..).symm, List.forall_mem_append.mpr ⟨plain, plain'⟩⟩

/-- What is skipped is consumed at its level. -/
theorem consumes (skips : Skips t rest) : Consumes a a t rest := by
  obtain ⟨used, rfl, plain⟩ := skips
  exact .plain plain

/-- Plain points are skipped as long as there are some. -/
theorem dropWhile {p : CodePoint → Bool} (plain : ∀ c, p c → IsPlain c) (t : Text) : Skips t (t.dropWhile p) :=
  ⟨t.takeWhile p, List.takeWhile_append_dropWhile.symm, fun c listed =>
    plain c (List.all_eq_true.mp List.all_takeWhile c listed)⟩

/-- Blanks are skipped. -/
theorem skipSpace (t : Text) : Skips t (skipSpace t) := dropWhile (fun c blank => by
  simp only [isSpace, Bool.or_eq_true, decide_eq_true_eq] at blank
  rcases blank with ((rfl | rfl) | rfl) | rfl <;> decide) t

/-- Digits are skipped. -/
theorem takeDigits (t : Text) : Skips t (Number.takeDigits t).2.2 := dropWhile (fun c digit =>
  plain_of_numeral (by simp [CodePoint.isNumeralPoint, CodePoint.isAsciiWord, digit])) t

/-- A plain point is skipped before the rest. -/
theorem cons (plain : IsPlain c) (skips : Skips t rest) : Skips (c :: t) rest :=
  trans ⟨[c], rfl, List.forall_mem_singleton.mpr plain⟩ skips

/-- A sign is skipped. -/
theorem takeSign (t : Text) : Skips t (Number.takeSign t).2 := by
  cases t with
  | nil => exact refl _
  | cons c rest =>
      rw [Number.takeSign]
      split
      · next minus => exact cons (minus ▸ by decide) (refl _)
      · split
        · next plus => exact cons (plus ▸ by decide) (refl _)
        · exact refl _

/-- An integer part is skipped. -/
theorem readWhole {whole count : Nat} (read : readWhole t = some (whole, count, rest)) : Skips t rest := by
  cases t with
  | nil => cases read
  | cons c t =>
      rw [Json.readWhole] at read
      split at read
      · next zero =>
          obtain ⟨-, -, rfl⟩ := Option.some.inj read
          exact cons (zero ▸ by decide) (refl _)
      · dsimp only at read
        split at read
        · cases read
        · obtain ⟨-, -, rfl⟩ := Option.some.inj read
          exact takeDigits _

/-- A fractional part is skipped. -/
theorem readFraction {digits count : Nat} (read : readFraction t = some (digits, count, rest)) : Skips t rest := by
  cases t with
  | nil => cases read
  | cons c t =>
      rw [Json.readFraction] at read
      split at read
      · next point =>
          dsimp only at read
          split at read
          · cases read
          · obtain ⟨-, -, rfl⟩ := Option.some.inj read
            exact cons (point ▸ by decide) (takeDigits _)
      · cases read

/-- An exponent is skipped. -/
theorem readExponent {exponent : Int} (read : readExponent t = some (exponent, rest)) : Skips t rest := by
  cases t with
  | nil => cases read
  | cons c t =>
      rw [Json.readExponent] at read
      split at read
      · next mark =>
          dsimp only at read
          split at read
          · cases read
          · obtain ⟨-, rfl⟩ := Option.some.inj read
            refine cons ?_ ((takeSign _).trans (takeDigits _))
            rcases mark with rfl | rfl <;> decide
      · cases read

/-- A word of letters. -/
theorem word {w : Text} (numeral : w.IsNumeral) (starts : t = w ++ rest) : Skips t rest :=
  ⟨w, starts, fun c listed => plain_of_numeral (numeral c listed)⟩

/-- What follows an optional part of a numeral. -/
theorem optional {β : Type} {part : Option β} {after : β → Text} (present : ∀ found, part = some found → Skips t (after found)) :
    Skips t ((part.map after).getD t) := by
  cases part with
  | none => exact refl _
  | some found => exact present found rfl

end Skips

/-- What comes after a start is the rest of the text. -/
theorem after?_eq_some {start : Text} (found : Text.after? start t = some rest) : t = start ++ rest := by
  induction start generalizing t with
  | nil => exact Option.some.inj found
  | cons c start ih =>
      cases t with
      | nil => cases found
      | cons d t =>
          rw [Text.after?] at found
          split at found
          · next same => rw [same, ih found, List.cons_append]
          · cases found

/-- A number that is read is skipped. -/
theorem skips_readNumber {n : Number} (read : readNumber t = .ok (n, rest)) : Skips t rest := by
  unfold readNumber at read
  split at read
  next negative unsigned signed =>
  have sign : Skips t unsigned := by
    split at signed
    · split at signed
      · next minus =>
          obtain ⟨-, rfl⟩ := Prod.mk.inj signed
          exact .cons (minus ▸ by decide) (.refl _)
      · exact (Prod.mk.inj signed).2 ▸ .refl _
    · exact (Prod.mk.inj signed).2 ▸ .refl _
  refine sign.trans ?_
  split at read
  · split at read
    · next found =>
        obtain ⟨-, rfl⟩ := Prod.mk.inj (Except.ok.inj read)
        exact .word (by decide) (after?_eq_some found)
    · cases read
  · next whole count rest₀ isWhole =>
      have fraction : Skips rest₀ (((readFraction rest₀).map fun f => f.2.2).getD rest₀) :=
        .optional fun _ found => Skips.readFraction found
      refine (Skips.readWhole isWhole).trans (fraction.trans ?_)
      dsimp only at read
      generalize ((readFraction rest₀).map fun f => f.2.2).getD rest₀ = rest₁ at read
      have exponent : Skips rest₁ (((readExponent rest₁).map Prod.snd).getD rest₁) :=
        .optional fun _ found => Skips.readExponent found
      split at read
      · split at read
        · cases read
        · exact (Prod.mk.inj (Except.ok.inj read)).2 ▸ exponent
      · exact (Prod.mk.inj (Except.ok.inj read)).2 ▸ exponent

/-- A point is known by its character, unless this is the one that stands for none. -/
theorem eq_of_toChar {character : Char} (same : c.toChar = character) (notNull : character ≠ Char.ofNat 0) :
    c = CodePoint.ofChar character := by
  subst same
  apply Fin.ext
  by_cases isValid : c.val.isValidChar
  · rw [CodePoint.toChar, Char.ofNat, dif_pos isValid]
    rfl
  · exact absurd (by rw [CodePoint.toChar, Char.ofNat, dif_neg isValid]; rfl) notNull

/-- What was read of a part went as far as all of it. -/
theorem read_part {β γ : Type} {found : Except Failure (β × Text)} {f : β × Text → γ × Text} {whole : γ}
    (read : found.map f = .ok (whole, rest)) (keeps : ∀ read, (f read).2 = read.2) :
    ∃ part, found = .ok (part, rest) := by
  cases found with
  | error _ => cases read
  | ok found =>
      obtain rfl := (keeps found).symm.trans (congrArg Prod.snd (Except.ok.inj read))
      exact ⟨found.1, rfl⟩

/-- Reading a string between quotes. -/
theorem consumes_readString (opens : Text.after? "\"" t = some u) (read : readString u = some (text, rest)) :
    Consumes a a t rest := by
  obtain ⟨used, rfl, ran⟩ := closes_readString read
  have quoted : t = CodePoint.ofChar '"' :: (used ++ rest) := after?_eq_some opens
  exact ⟨CodePoint.ofChar '"' :: used, quoted, fun n => ran _⟩

/-- After an item or a member comes what closes the list or object, or a comma. -/
theorem consumes_rest {close : CodePoint} (isClosing : close = ']' ∨ close = '\x7d') (isRest : skipSpace t = c :: u) :
    (c = close → Consumes (a + 1) a t u) ∧ (c = ',' → Consumes (a + 1) (a + 1) t (skipSpace u)) := by
  have blanks : ∀ {a}, Consumes a a t (c :: u) := isRest ▸ (Skips.skipSpace t).consumes
  refine ⟨fun closes => blanks.trans (.closing (closes ▸ isClosing)), fun comma => blanks.trans ?_⟩
  exact (Skips.cons (comma ▸ by decide) (.skipSpace u)).consumes

/-- What is read with so much fuel leaves nothing open, and what is read of a list or an object after it
was opened closes it. -/
structure ReadsClosed (fuel : Nat) : Prop where
  value {a depth : Nat} {t rest : Text} {v : Document} :
    readValue fuel depth t = .ok (v, rest) → Consumes a a t rest
  items {a depth : Nat} {t rest : Text} {items : List Document} :
    readItems fuel depth t = .ok (items, rest) → Consumes (a + 1) a t rest
  members {a depth : Nat} {t rest : Text} {members : List (Text × Document)} :
    readMembers fuel depth t = .ok (members, rest) → Consumes (a + 1) a t rest

namespace ReadsClosed

variable {fuel depth : Nat}

/-- A value is consumed at its level. -/
theorem readValue (less : ReadsClosed fuel) {v : Document} (read : readValue (fuel + 1) depth t = .ok (v, rest)) :
    Consumes a a t rest := by
  unfold Json.readValue at read
  split at read
  · cases read
  · next c t =>
      split at read
      · next isQuote =>
          obtain rfl := eq_of_toChar isQuote (by decide)
          split at read
          · next found =>
              obtain ⟨-, rfl⟩ := Prod.mk.inj (Except.ok.inj read)
              exact consumes_readString rfl found
          · cases read
      · next isBrace =>
          obtain rfl := eq_of_toChar isBrace (by decide)
          split at read
          · cases read
          · next depth =>
              refine (Consumes.opening (.inr rfl)).trans ((Skips.skipSpace t).consumes.trans ?_)
              dsimp only at read
              split at read
              · next closes =>
                  obtain ⟨-, rfl⟩ := Prod.mk.inj (Except.ok.inj read)
                  exact after?_eq_some closes ▸ Consumes.closing (.inr rfl)
              · obtain ⟨_, read⟩ := read_part read fun _ => rfl
                exact less.members read
      · next isBracket =>
          obtain rfl := eq_of_toChar isBracket (by decide)
          split at read
          · cases read
          · next depth =>
              refine (Consumes.opening (.inl rfl)).trans ((Skips.skipSpace t).consumes.trans ?_)
              dsimp only at read
              split at read
              · next closes =>
                  obtain ⟨-, rfl⟩ := Prod.mk.inj (Except.ok.inj read)
                  exact after?_eq_some closes ▸ Consumes.closing (.inl rfl)
              · obtain ⟨_, read⟩ := read_part read fun _ => rfl
                exact less.items read
      · refine Skips.consumes ?_
        split at read
        · next found =>
            obtain ⟨-, rfl⟩ := Prod.mk.inj (Except.ok.inj read)
            exact .word (by decide) (after?_eq_some found)
        · next found _ =>
            obtain ⟨-, rfl⟩ := Prod.mk.inj (Except.ok.inj read)
            exact .word (by decide) (after?_eq_some found)
        · next found _ _ =>
            obtain ⟨-, rfl⟩ := Prod.mk.inj (Except.ok.inj read)
            exact .word (by decide) (after?_eq_some found)
        · next found _ _ _ =>
            obtain ⟨-, rfl⟩ := Prod.mk.inj (Except.ok.inj read)
            exact .word (by decide) (after?_eq_some found)
        · obtain ⟨_, read⟩ := read_part read fun _ => rfl
          exact skips_readNumber read

/-- Items are consumed to the end of their list. -/
theorem readItems (less : ReadsClosed fuel) {items : List Document}
    (read : readItems (fuel + 1) depth t = .ok (items, rest)) : Consumes (a + 1) a t rest := by
  unfold Json.readItems at read
  obtain ⟨⟨v, rest₁⟩, isValue, read⟩ := bind_eq_ok.mp read
  refine (less.value isValue).trans ?_
  dsimp only at read
  split at read
  · cases read
  · next c rest₂ isRest =>
      have rest := consumes_rest (a := a) (.inl rfl) isRest
      split at read
      · next closes =>
          obtain ⟨-, rfl⟩ := Prod.mk.inj (Except.ok.inj read)
          exact rest.1 closes
      · split at read
        · next comma =>
            obtain ⟨⟨others, after⟩, isOthers, read⟩ := bind_eq_ok.mp read
            obtain ⟨-, rfl⟩ := Prod.mk.inj (Except.ok.inj read)
            exact (rest.2 comma).trans (less.items isOthers)
        · cases read

/-- Members are consumed to the end of their object. -/
theorem readMembers (less : ReadsClosed fuel) {members : List (Text × Document)}
    (read : readMembers (fuel + 1) depth t = .ok (members, rest)) : Consumes (a + 1) a t rest := by
  unfold Json.readMembers at read
  split at read
  case h_2 => cases read
  next inside opens =>
  split at read
  case h_2 => cases read
  next key rest₁ isKey =>
  split at read
  case h_2 => cases read
  next rest₂ colon =>
  obtain ⟨⟨v, rest₃⟩, isValue, read⟩ := bind_eq_ok.mp read
  have starts : skipSpace rest₁ = CodePoint.ofChar ':' :: rest₂ := after?_eq_some colon
  have isColon : Skips (skipSpace rest₁) rest₂ := starts ▸ .cons (by decide) (.refl rest₂)
  refine (consumes_readString opens isKey).trans ?_
  refine ((Skips.skipSpace rest₁).trans (isColon.trans (.skipSpace rest₂))).consumes.trans ?_
  refine (less.value isValue).trans ?_
  dsimp only at read
  split at read
  · cases read
  · next c rest₄ isRest =>
      have rest := consumes_rest (a := a) (.inr rfl) isRest
      split at read
      · next closes =>
          obtain ⟨-, rfl⟩ := Prod.mk.inj (Except.ok.inj read)
          exact rest.1 closes
      · split at read
        · next comma =>
            obtain ⟨⟨others, after⟩, isOthers, read⟩ := bind_eq_ok.mp read
            obtain ⟨-, rfl⟩ := Prod.mk.inj (Except.ok.inj read)
            exact (rest.2 comma).trans (less.members isOthers)
        · cases read

end ReadsClosed

/-- Whatever is read is consumed. -/
theorem readsClosed (fuel : Nat) : ReadsClosed fuel := by
  induction fuel with
  | zero =>
      constructor
      all_goals intro a depth t rest answer read; cases read
  | succ fuel less => exact ⟨less.readValue, less.readItems, less.readMembers⟩

/-- A text that is read as a document leaves nothing open. -/
theorem run_of_read {v : Document} (isRead : read t depth = .ok v) : (level 0).run t = level 0 := by
  obtain ⟨⟨v, rest⟩, isValue, blank⟩ := bind_eq_ok.mp isRead
  dsimp only at blank
  split at blank
  · next none =>
      have ends : Consumes 0 0 t (skipSpace rest) :=
        ((Skips.skipSpace t).consumes.trans ((readsClosed _).value isValue)).trans (Skips.skipSpace rest).consumes
      obtain ⟨used, rfl, ran⟩ := ends
      rw [List.isEmpty_iff.mp none, List.append_nil]
      exact ran 0
  · cases blank

/-- All scans along the text have the property, also those at its ends. -/
def Along (P : Scan → Prop) (s : Scan) : Text → Prop
  | [] => P s
  | c :: t => P s ∧ Along P (s.next c) t

section

variable {P Q : Scan → Prop} {s : Scan}

/-- What holds along a scan may be said more weakly. -/
theorem Along.mono (along : Along P s t) (weaker : ∀ s, P s → Q s) : Along Q s t := by
  induction t generalizing s with
  | nil => exact weaker s along
  | cons c t ih => exact ⟨weaker s along.1, ih along.2⟩

/-- What holds along a scan holds at its start. -/
theorem Along.start (along : Along P s t) : P s := by
  cases t with
  | nil => exact along
  | cons c t => exact along.1

/-- What holds along a scan of two texts holds along each of them. -/
theorem along_append : Along P s (t ++ u) ↔ Along P s t ∧ Along P (s.run t) u := by
  induction t generalizing s with
  | nil => exact ⟨fun along => ⟨along.start, along⟩, fun both => both.2⟩
  | cons c t ih => exact (and_congr_right fun _ => ih).trans and_assoc.symm

/-- What holds along a scan holds after each part. -/
theorem Along.of_part (along : Along P s (t ++ u)) : P (s.run t) := (along_append.mp along).2.start

end

/-- Outside of strings at least `n` lists and objects are open. -/
def Scan.Holds (n : Nat) (s : Scan) : Prop := s.place = .outside → n ≤ s.opened

/-- The text closes what it opens, and nothing else. -/
structure IsClosed (t : Text) : Prop where
  returns : ∀ n, (level n).run t = level n
  holds : ∀ n, Along (Holds n) (level n) t

/-- The text does not leave the string that it stands in. -/
structure IsHeld (t : Text) : Prop where
  returns : ∀ n, Scan.run ⟨.inside, n⟩ t = ⟨.inside, n⟩
  holds : ∀ n k, Along (Holds k) ⟨.inside, n⟩ t

/-- A level holds itself. -/
theorem holds_level : (level n).Holds n := fun _ => Nat.le_refl n

/-- Inside a string any level is held. -/
theorem holds_inside {k : Nat} : Scan.Holds k ⟨.inside, n⟩ := fun outside => by cases outside

/-- Two closed texts are closed together. -/
theorem IsClosed.append (first : IsClosed t) (second : IsClosed u) : IsClosed (t ++ u) where
  returns n := by rw [run_append, first.returns, second.returns]
  holds n := along_append.mpr ⟨first.holds n, (first.returns n).symm ▸ second.holds n⟩

/-- A plain text is closed. -/
theorem isClosed_plain (plain : ∀ c ∈ t, IsPlain c) : IsClosed t where
  returns _ := run_plain plain
  holds n := by
    induction t with
    | nil => exact holds_level
    | cons c t ih =>
        refine ⟨holds_level, ?_⟩
        rw [next_plain (plain c List.mem_cons_self)]
        exact ih fun c listed => plain c (List.mem_cons_of_mem _ listed)

/-- A numeral is closed. -/
theorem isClosed_numeral (numeral : t.IsNumeral) : IsClosed t :=
  isClosed_plain fun c listed => plain_of_numeral (numeral c listed)

/-- A text between brackets or braces. -/
theorem IsClosed.wrap (closed : IsClosed t) {first last : CodePoint}
    (paired : (first = '[' ∧ last = ']') ∨ (first = '\x7b' ∧ last = '\x7d')) : IsClosed (first :: t ++ [last]) := by
  have opens : ∀ n, (level n).next first = level (n + 1) := fun n => by rcases paired with ⟨rfl, -⟩ | ⟨rfl, -⟩ <;> rfl
  have closes : ∀ n, (level (n + 1)).next last = level n := fun n => by rcases paired with ⟨-, rfl⟩ | ⟨-, rfl⟩ <;> rfl
  constructor
  · intro n
    rw [List.cons_append, run_cons, opens, run_append, closed.returns, run_cons, closes, run_nil]
  · intro n
    have fewer : ∀ s, Scan.Holds (n + 1) s → Scan.Holds n s := fun s holds outside => Nat.le_of_succ_le (holds outside)
    refine ⟨holds_level, ?_⟩
    change Along (Holds n) _ (t ++ [last])
    rw [opens, along_append, closed.returns]
    exact ⟨(closed.holds (n + 1)).mono fewer, fewer _ holds_level, closes n ▸ holds_level⟩

/-- Nothing is held inside a string. -/
theorem isHeld_nil : IsHeld [] := ⟨fun _ => rfl, fun _ _ => holds_inside⟩

/-- Two texts that are held inside a string are held together. -/
theorem IsHeld.append (first : IsHeld t) (second : IsHeld u) : IsHeld (t ++ u) where
  returns n := by rw [run_append, first.returns, second.returns]
  holds n k := along_append.mpr ⟨first.holds n k, (first.returns n).symm ▸ second.holds n k⟩

/-- Quiet points are held inside a string. -/
theorem isHeld_quiet (quiet : ∀ c ∈ t, IsQuiet c) : IsHeld t := by
  induction t with
  | nil => exact isHeld_nil
  | cons c t ih =>
      have one : IsHeld [c] := ⟨fun _ => next_quiet (quiet c List.mem_cons_self), fun n k =>
        ⟨holds_inside, (next_quiet (quiet c List.mem_cons_self)).symm ▸ holds_inside⟩⟩
      exact one.append (ih fun c listed => quiet c (List.mem_cons_of_mem _ listed))

/-- A backslash takes the next code point. -/
theorem isHeld_escape (c : CodePoint) : IsHeld [CodePoint.ofChar '\\', c] :=
  ⟨fun _ => rfl, fun _ _ => ⟨holds_inside, (fun outside => by cases outside), holds_inside⟩⟩

/-- The digits of an escape are quiet. -/
theorem quiet_hex {n : Nat} (small : n < 0x20) : ∀ c ∈ Text.hex n 4, IsQuiet c := by
  have digits : ∀ n : Fin 0x20, (Text.hex n 4).all fun c => c.hexValue?.isSome := by decide
  intro c listed
  obtain ⟨_, isHex⟩ := Option.isSome_iff_exists.mp (List.all_eq_true.mp (digits ⟨n, small⟩) c listed)
  exact quiet_of_hexValue? isHex

/-- A point is written so that it is held inside a string. -/
theorem isHeld_writePoint (c : CodePoint) : IsHeld (writePoint c) := by
  unfold writePoint
  split
  · exact isHeld_escape '"'
  · exact isHeld_escape '\\'
  · exact isHeld_escape 'n'
  · exact isHeld_escape 'r'
  · exact isHeld_escape 't'
  · exact isHeld_escape 'b'
  · exact isHeld_escape 'f'
  · next notQuote notBackslash _ _ _ _ _ =>
      split
      · next small => exact (isHeld_escape 'u').append (isHeld_quiet (quiet_hex small))
      · refine isHeld_quiet (List.forall_mem_singleton.mpr ⟨?_, ?_⟩)
        · rintro rfl
          exact notQuote rfl
        · rintro rfl
          exact notBackslash rfl

/-- A string is written closed. -/
theorem isClosed_writeString (t : Text) : IsClosed (writeString t) := by
  have held : IsHeld (t.flatMap writePoint) := by
    induction t with
    | nil => exact isHeld_nil
    | cons c t ih => exact (isHeld_writePoint c).append ih
  have quoted : writeString t = CodePoint.ofChar '"' :: (t.flatMap writePoint ++ [CodePoint.ofChar '"']) := rfl
  rw [quoted]
  constructor
  · intro n
    change Scan.run ⟨.inside, n⟩ (t.flatMap writePoint ++ [CodePoint.ofChar '"']) = _
    rw [run_append, held.returns]
    rfl
  · intro n
    refine ⟨holds_level, ?_⟩
    change Along (Holds n) ⟨.inside, n⟩ _
    rw [along_append, held.returns]
    exact ⟨held.holds n n, holds_inside, holds_level⟩

/-- A number is written closed. -/
theorem isClosed_writeNumber (n : Number) : IsClosed (writeNumber n) := by
  refine isClosed_numeral ?_
  unfold writeNumber
  split
  · exact Text.isNumeral_ofInt _
  · split
    · decide
    · split <;> decide
    · exact Number.isNumeral_floatText _

/-- The start of a line is closed. -/
theorem isClosed_lineStart (depth : Nat) : IsClosed (lineStart depth) := by
  refine isClosed_plain (List.forall_mem_append.mpr ⟨List.forall_mem_singleton.mpr (by decide), fun c listed => ?_⟩)
  rw [List.eq_of_mem_replicate listed]
  decide

/-- A comma and the start of a line are closed. -/
theorem isClosed_comma (depth : Nat) : IsClosed (("," : Text) ++ lineStart depth) :=
  (isClosed_plain (List.forall_mem_singleton.mpr (by decide))).append (isClosed_lineStart depth)

/-- A key and its colon are closed. -/
theorem isClosed_key (key : Text) : IsClosed ([writeString key, ": "] : List Text).flatten := by
  have colon : IsClosed ((": " : Text) ++ []) := isClosed_plain (by
    rw [List.append_nil]
    exact List.forall_mem_cons.mpr ⟨by decide, List.forall_mem_singleton.mpr (by decide)⟩)
  exact (isClosed_writeString key).append colon

/-- Whatever pieces an item is written in, its text follows what comes before it. -/
theorem flatten_itemPieces (depth : Nat) (before : Text) (v : Document) (rest : List Document) :
    (itemPieces depth before (v :: rest)).flatten = before ++ (pieces depth v).flatten ++
      (itemPieces depth (("," : Text) ++ lineStart depth) rest).flatten := by
  cases v <;> simp [itemPieces]

/-- The text of an object between its braces. -/
def membersText (depth : Nat) (members : List (Text × Document)) : Text :=
  lineStart (depth + 1) ++ (memberPieces (depth + 1) members).flatten ++ lineStart depth

/-- An object is written as its members between braces. -/
theorem flatten_obj (depth : Nat) (m : Text × Document) (rest : List (Text × Document)) :
    (pieces depth (.obj (m :: rest))).flatten =
      CodePoint.ofChar '\x7b' :: membersText depth (m :: rest) ++ [CodePoint.ofChar '\x7d'] := by
  rw [pieces, membersText]
  simp [Text.ofString]

mutual

/-- A document is written closed. -/
theorem isClosed_pieces (depth : Nat) : (v : Document) → IsClosed (pieces depth v).flatten
  | .null => by
      rw [pieces]
      exact isClosed_numeral (by decide)
  | .bool b => by
      rw [pieces]
      cases b <;> exact isClosed_numeral (by decide)
  | .num n => by
      rw [pieces, List.flatten_singleton]
      exact isClosed_writeNumber n
  | .str t => by
      rw [pieces, List.flatten_singleton]
      exact isClosed_writeString t
  | .arr [] => by
      rw [pieces]
      exact (isClosed_plain (List.forall_mem_nil _)).wrap (.inl ⟨rfl, rfl⟩)
  | .arr (v :: rest) => by
      have written : (pieces depth (.arr (v :: rest))).flatten = CodePoint.ofChar '[' ::
          (lineStart (depth + 1) ++ (pieces (depth + 1) v).flatten ++
            ((itemPieces (depth + 1) (("," : Text) ++ lineStart (depth + 1)) rest).flatten ++ lineStart depth)) ++
              [CodePoint.ofChar ']'] := by
        rw [pieces, List.flatten_append, flatten_itemPieces]
        simp [Text.ofString]
      rw [written]
      exact (((isClosed_lineStart _).append (isClosed_pieces _ v)).append
        ((isClosed_itemPieces _ (isClosed_comma _) rest).append (isClosed_lineStart _))).wrap (.inl ⟨rfl, rfl⟩)
  | .obj [] => by
      rw [pieces]
      exact (isClosed_plain (List.forall_mem_nil _)).wrap (.inr ⟨rfl, rfl⟩)
  | .obj (m :: rest) => by
      rw [flatten_obj]
      exact (((isClosed_lineStart _).append (isClosed_memberPieces _ (m :: rest))).append (isClosed_lineStart _)).wrap
        (.inr ⟨rfl, rfl⟩)

/-- Items are written closed, if what comes before them is. -/
theorem isClosed_itemPieces (depth : Nat) {before : Text} (closed : IsClosed before) :
    (items : List Document) → IsClosed (itemPieces depth before items).flatten
  | [] => by
      rw [itemPieces]
      exact isClosed_plain (List.forall_mem_nil _)
  | v :: rest => by
      rw [flatten_itemPieces]
      exact (closed.append (isClosed_pieces depth v)).append (isClosed_itemPieces depth (isClosed_comma depth) rest)

/-- Members are written closed. -/
theorem isClosed_memberPieces (depth : Nat) : (members : List (Text × Document)) →
    IsClosed (memberPieces depth members).flatten
  | [] => by
      rw [memberPieces]
      exact isClosed_plain (List.forall_mem_nil _)
  | [(key, v)] => by
      rw [memberPieces, List.flatten_append]
      exact (isClosed_key key).append (isClosed_pieces depth v)
  | (key, v) :: m :: rest => by
      rw [memberPieces, List.flatten_append, List.flatten_append, List.flatten_append, List.flatten_singleton]
      exact (((isClosed_key key).append (isClosed_pieces depth v)).append (isClosed_comma depth)).append
        (isClosed_memberPieces depth (m :: rest))

end

/-- The file of an object holds its members between braces and a line feed. -/
theorem fileText_obj (m : Text × Document) (members : List (Text × Document)) :
    fileText (.obj (m :: members)) = CodePoint.ofChar '\x7b' ::
      (membersText 0 (m :: members) ++ [CodePoint.ofChar '\x7d', CodePoint.ofChar '\n']) := by
  rw [fileText, filePieces, List.flatten_append, flatten_obj]
  simp [Text.ofString]

/-- **An unfinished object is no document.** A part of the text of an object that lacks more than the last
line feed is not read. -/
theorem read_of_unfinished {m : Text × Document} {members : List (Text × Document)}
    (isPart : t ++ rest = fileText (.obj (m :: members))) (unfinished : 1 < rest.length) (depth : Nat)
    (v : Document) : read t depth ≠ .ok v := by
  intro isRead
  have ended := run_of_read isRead
  rw [fileText_obj] at isPart
  cases t with
  | nil => cases isRead
  | cons c t =>
      obtain ⟨rfl, isPart'⟩ := List.cons.inj isPart
      have begun : (level 1).run t = level 0 := ended
      have open' : ∀ {u}, membersText 0 (m :: members) = t ++ u → False := by
        intro u same
        have along : Along (Holds 1) (level 1) (t ++ u) := by
          rw [← same]
          exact (((isClosed_lineStart _).append (isClosed_memberPieces _ _)).append (isClosed_lineStart _)).holds 1
        have holds := along.of_part
        rw [begun] at holds
        exact absurd (holds rfl) (by decide)
      obtain ⟨u, same, -⟩ | ⟨u, isT, isRest⟩ := List.append_eq_append_iff.mp isPart'
      · exact open' same
      · cases u with
        | nil => exact open' (u := []) (by simp [isT])
        | cons d u =>
            have short := congrArg List.length isRest
            simp only [List.length_cons, List.length_append, List.length_nil] at short
            omega

end LayoutDesigner.Json
