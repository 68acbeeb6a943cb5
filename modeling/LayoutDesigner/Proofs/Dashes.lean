import LayoutDesigner.Proofs.Painted
import LayoutDesigner.Proofs.Prints

/-!
# Two minus signs side by side

A script writes a minus sign of its own only before digits. So two of them stand side by side in a line
exactly where they do so in a text or in a font that the line is made of: neither quotes nor escapes bring
them together or keep them apart.
-/

namespace LayoutDesigner

namespace Text

variable {t rest sign : Text} {c : CodePoint} {lines : List Text}

/-- Two minus signs are at the start of a text, or in the rest of it. -/
theorem hasDashes_cons :
    HasDashes (c :: t) ↔ (c = ('-' : CodePoint) ∧ t.head? = some ('-' : CodePoint)) ∨ t.HasDashes := by
  have begins : ("--" : Text) <+: c :: t ↔ c = ('-' : CodePoint) ∧ t.head? = some ('-' : CodePoint) := by
    have dashes : ("--" : Text) = [('-' : CodePoint), ('-' : CodePoint)] := rfl
    cases t <;> simp [dashes, List.cons_prefix_cons, eq_comm]
  rw [HasDashes, List.infix_cons_iff, begins, HasDashes]

/-- A text with two minus signs has one. -/
theorem HasDashes.mem (dashed : t.HasDashes) : ('-' : CodePoint) ∈ t := dashed.subset (by decide)

/-- A part without a minus sign at its start brings no two of them together. -/
theorem hasDashes_append (apart : rest.head? ≠ some ('-' : CodePoint)) :
    HasDashes (t ++ rest) ↔ t.HasDashes ∨ rest.HasDashes := by
  induction t with
  | nil =>
      have none : ¬HasDashes [] := by decide
      simp [none]
  | cons c t ih =>
      rw [List.cons_append, hasDashes_cons, hasDashes_cons, ih, or_assoc]
      -- Two signs could only meet where the first part has one code point left.
      cases t with
      | nil => simp [apart]
      | cons d t => simp

/-- Nor does a part without any minus sign, whatever follows it. -/
theorem hasDashes_append_of_notMem (noDash : ('-' : CodePoint) ∉ t) : HasDashes (t ++ rest) ↔ rest.HasDashes := by
  induction t with
  | nil => rfl
  | cons c t ih =>
      obtain ⟨other, noDash⟩ := List.ne_and_not_mem_of_not_mem_cons noDash
      rw [List.cons_append, hasDashes_cons, ih noDash]
      simp [other.symm]

/-- No sign stands at the beginning, and no two minus signs stand side by side. -/
def IsUnsigned (t : Text) : Prop := t.head? ≠ some ('-' : CodePoint) ∧ ¬t.HasDashes

/-- A text without a minus sign is unsigned. -/
theorem isUnsigned_of_notMem (noDash : ('-' : CodePoint) ∉ t) : t.IsUnsigned :=
  ⟨fun isDash => noDash (List.mem_of_mem_head? isDash), fun dashed => noDash dashed.mem⟩

/-- A text without a minus sign can be followed by any without two of them. -/
theorem isUnsigned_append (notEmpty : t ≠ []) (noDash : ('-' : CodePoint) ∉ t) (noDashes : ¬rest.HasDashes) :
    IsUnsigned (t ++ rest) := by
  refine ⟨?_, by rwa [hasDashes_append_of_notMem noDash]⟩
  rw [List.head?_append_of_ne_nil t notEmpty]
  exact (isUnsigned_of_notMem noDash).1

/-- No two minus signs come together where the second of two texts starts with none. -/
theorem IsUnsigned.after (isUnsigned : rest.IsUnsigned) (noDashes : ¬t.HasDashes) : ¬HasDashes (t ++ rest) := by
  rw [hasDashes_append isUnsigned.1]
  exact fun either => either.elim noDashes isUnsigned.2

/-- One sign may stand before what has none at its beginning. -/
theorem IsUnsigned.signed (isUnsigned : t.IsUnsigned) (few : sign.length ≤ 1) : ¬HasDashes (sign ++ t) := by
  apply isUnsigned.after
  intro inSign
  have long : 2 ≤ sign.length := inSign.length_le
  omega

/-- Two minus signs in joined lines are in one of them. -/
theorem hasDashes_join : (join "\n" lines).HasDashes ↔ ∃ line ∈ lines, line.HasDashes := by
  have newline : ('-' : CodePoint) ∉ ("\n" : Text) := by decide
  induction lines with
  | nil =>
      have none : ¬HasDashes [] := by decide
      simp [join, none]
  | cons line rest ih =>
      cases rest with
      | nil => simp [join]
      | cons next others =>
          have apart : (("\n" : Text) ++ join "\n" (next :: others)).head? ≠ some ('-' : CodePoint) := by
            intro same
            exact absurd (Option.some.inj same) (by decide)
          rw [join_cons_cons, hasDashes_append apart, hasDashes_append_of_notMem newline, List.exists_mem_cons_iff]
          exact or_congr_right ih

/-- However a text is split, there is at least one part. -/
theorem splitOn_ne_nil (c : CodePoint) (t : Text) : splitOn c t ≠ [] := by
  cases t with
  | nil => simp [splitOn]
  | cons d t =>
      rw [splitOn]
      split
      · simp
      · split <;> simp

/-- A text is its lines with their ends between them. -/
theorem join_splitOn (t : Text) : join "\n" (splitOn '\n' t) = t := by
  induction t with
  | nil => rfl
  | cons c t ih =>
      obtain ⟨line, rest, lines⟩ := List.exists_cons_of_ne_nil (splitOn_ne_nil '\n' t)
      rw [lines] at ih
      rw [splitOn, lines, ← ih]
      split
      · next same =>
          rw [same]
          rfl
      · cases rest <;> rfl

/-- Two minus signs of a text are in one of its lines. -/
theorem hasDashes_splitOn (t : Text) : (∃ line ∈ splitOn '\n' t, line.HasDashes) ↔ t.HasDashes := by
  rw [← hasDashes_join, join_splitOn]

/-- A numeral of a natural number has no minus sign. -/
theorem dash_notMem_ofNat (n : Nat) : ('-' : CodePoint) ∉ ofNat n := fun member =>
  absurd (mem_ofNat member) (by decide)

/-- A minus sign is no digit. -/
theorem dash_ne_zero : ('-' : CodePoint) ≠ ('0' : CodePoint) := by decide

@[simp] theorem not_hasDashes_ofInt (n : Int) : ¬(ofInt n).HasDashes := by
  cases n with
  | ofNat n => exact fun dashed => dash_notMem_ofNat n dashed.mem
  | negSucc n => exact (isUnsigned_of_notMem (dash_notMem_ofNat (n + 1))).signed (Nat.le_refl _)

end Text

/-- No two minus signs stand side by side in the numerals of a script. -/
class Arith.KeepsSignsApart (α : Type) [Arith α] : Prop where
  numeral (a : α) : ¬(Arith.numeral a).HasDashes
  scriptNumeral (a : α) : ¬(Arith.scriptNumeral a).HasDashes
  twoPlaces (a : α) : ¬(Arith.twoPlaces a).HasDashes

attribute [simp] Arith.KeepsSignsApart.numeral Arith.KeepsSignsApart.scriptNumeral Arith.KeepsSignsApart.twoPlaces

namespace Exact

/-- A number with fixed places has no two minus signs. -/
theorem not_hasDashes_fixed (negative : Bool) (units places : Nat) : ¬(fixed negative units places).HasDashes := by
  have point : ('-' : CodePoint) ∉ ("." : Text) := by decide
  simp only [fixed, List.append_assoc]
  apply (Text.isUnsigned_of_notMem ?_).signed
  · cases negative <;> decide
  · simp [Text.dash_notMem_ofNat, Text.dash_ne_zero, point]

/-- An exact number has no two minus signs. -/
theorem not_hasDashes_text (q : ℚ) : ¬(text q).HasDashes := by
  rw [text]
  split
  · exact Text.not_hasDashes_ofInt _
  · split
    · exact not_hasDashes_fixed _ _ _
    · have slash : ('-' : CodePoint) ∉ ("/" : Text) := by decide
      rw [List.append_assoc]
      apply (Text.isUnsigned_of_notMem ?_).after (Text.not_hasDashes_ofInt _)
      simp [Text.dash_notMem_ofNat, slash]

end Exact

instance : Arith.KeepsSignsApart ℚ where
  numeral := Exact.not_hasDashes_text
  scriptNumeral q := by
    change ¬Text.HasDashes (if q.den = 1 ∧ q.num.natAbs < 10 ^ 15 then Text.ofInt q.num else Exact.text q)
    split
    · exact Text.not_hasDashes_ofInt _
    · exact Exact.not_hasDashes_text q
  twoPlaces _ := Exact.not_hasDashes_fixed _ _ _

namespace Number

/-- An exponent has no two minus signs. -/
theorem not_hasDashes_exponentText (e : Int) : ¬(exponentText plainStyle e).HasDashes := by
  simp only [exponentText, List.append_assoc]
  apply (Text.isUnsigned_of_notMem ?_).signed
  · split <;> decide
  · simp [Text.dash_notMem_ofNat, Text.dash_ne_zero]

/-- The only sign in the numeral of a positive decimal is that of its exponent. -/
theorem isUnsigned_write (d : Decimal) : (d.write plainStyle).IsUnsigned := by
  have digits : ('-' : CodePoint) ∉ Text.ofNat d.digits := Text.dash_notMem_ofNat _
  have start (count : Nat) : ('-' : CodePoint) ∉ (Text.ofNat d.digits).take count := fun member =>
    digits (List.mem_of_mem_take member)
  have tail (count : Nat) : ('-' : CodePoint) ∉ (Text.ofNat d.digits).drop count := fun member =>
    digits (List.mem_of_mem_drop member)
  obtain ⟨integerTail, point, zeroPoint, e⟩ : ('-' : CodePoint) ∉ (".0" : Text) ∧ ('-' : CodePoint) ∉ ("." : Text) ∧
      ('-' : CodePoint) ∉ ("0." : Text) ∧ ('-' : CodePoint) ∉ ("e" : Text) := by decide
  have fraction : ('-' : CodePoint) ∉ (if ((Text.ofNat d.digits).drop 1).isEmpty then [] else
      ("." : Text) ++ (Text.ofNat d.digits).drop 1) := by
    split
    · exact List.not_mem_nil
    · exact List.mem_append.not.mpr (not_or.mpr ⟨point, tail 1⟩)
  simp only [Decimal.write]
  split
  · apply Text.isUnsigned_append (by simp [Text.ofString]) _ (not_hasDashes_exponentText _)
    simp only [List.mem_append, start, fraction, e, or_self, not_false_eq_true]
  · apply Text.isUnsigned_of_notMem
    split
    · simp [digits, Text.dash_ne_zero, plainStyle, integerTail]
    · split
      · simp [start, point, tail]
      · simp [zeroPoint, Text.dash_ne_zero, digits]

/-- A float has no two minus signs. -/
theorem not_hasDashes_floatText (x : Float) : ¬(floatText x).HasDashes := by
  rw [floatText]
  split
  · decide
  · split <;> decide
  · next d _ =>
      have few : (if d.negative then ("-" : Text) else "").length ≤ 1 := by
        cases d.negative <;> decide
      dsimp only
      split
      · rw [List.append_assoc]
        exact (Text.isUnsigned_of_notMem (by decide)).signed few
      · exact (isUnsigned_write _).signed few

/-- A float to two places has no two minus signs. -/
theorem not_hasDashes_twoPlaces (d : Dyadic) : ¬(twoPlaces d).HasDashes := by
  have point : ('-' : CodePoint) ∉ ("." : Text) := by decide
  simp only [twoPlaces, List.append_assoc]
  apply (Text.isUnsigned_of_notMem ?_).signed
  · cases d.negative <;> decide
  · simp [Text.dash_notMem_ofNat, point]

end Number

instance : Arith.KeepsSignsApart Number where
  numeral a := by
    cases a with
    | int n => exact Text.not_hasDashes_ofInt n
    | real x => exact Number.not_hasDashes_floatText x
  scriptNumeral a := by
    change ¬(Number.scriptText a).HasDashes
    rw [Number.scriptText.eq_def]
    split
    · exact Text.not_hasDashes_ofInt _
    · split
      · split
        · exact Text.not_hasDashes_ofInt _
        · exact Number.not_hasDashes_floatText _
      · exact Number.not_hasDashes_floatText _
  twoPlaces a := by
    change ¬(Number.placesText a).HasDashes
    rw [Number.placesText.eq_def]
    split
    · exact (Text.isUnsigned_of_notMem (by decide)).after (Text.not_hasDashes_ofInt _)
    · split
      · exact Number.not_hasDashes_twoPlaces _
      · exact Number.not_hasDashes_floatText _

namespace Script

/-- A code point that is escaped is no minus sign, and none stands for it. -/
theorem escapePoint_cases (c : CodePoint) :
    escapePoint c = [c] ∨ (c ≠ ('-' : CodePoint) ∧ ('-' : CodePoint) ∉ escapePoint c) := by
  rw [escapePoint]
  split_ifs with backslash quote carriage newline
  · exact .inr ⟨by rw [backslash]; decide, by decide⟩
  · exact .inr ⟨by rw [quote]; decide, by decide⟩
  · exact .inr ⟨by rw [carriage]; decide, by decide⟩
  · exact .inr ⟨by rw [newline]; decide, by decide⟩
  · exact .inl rfl

/-- An escaped text starts with a minus sign exactly where the text does. -/
theorem head?_escape (t : Text) : (escape t).head? = some ('-' : CodePoint) ↔ t.head? = some ('-' : CodePoint) := by
  cases t with
  | nil => rfl
  | cons c t =>
      rw [escape_cons]
      rcases escapePoint_cases c with same | ⟨other, noDash⟩
      · rw [same]
        rfl
      · have notEmpty : escapePoint c ≠ [] := by
          rw [escapePoint]
          split_ifs <;> simp [Text.ofString]
        rw [List.head?_append_of_ne_nil _ notEmpty]
        refine iff_of_false (Text.isUnsigned_of_notMem noDash).1 ?_
        simpa using other

/-- An escaped text has two minus signs exactly where the text does. -/
theorem hasDashes_escape (t : Text) : (escape t).HasDashes ↔ t.HasDashes := by
  induction t with
  | nil => rfl
  | cons c t ih =>
      rw [escape_cons, Text.hasDashes_cons]
      rcases escapePoint_cases c with same | ⟨other, noDash⟩
      · rw [same, List.singleton_append, Text.hasDashes_cons, head?_escape, ih]
      · rw [Text.hasDashes_append_of_notMem noDash, ih]
        simp [other]

/-- A literal has two minus signs exactly where its text does. -/
theorem hasDashes_literal (t : Text) : (literal t).HasDashes ↔ t.HasDashes := by
  have quote : ('-' : CodePoint) ∉ ("\"" : Text) := by decide
  rw [literal, List.append_assoc, Text.hasDashes_append_of_notMem quote, Text.hasDashes_append (by decide),
    hasDashes_escape]
  exact or_iff_left fun dashed => quote dashed.mem

/-- The numerals that an expression is made of, those of offsets apart. -/
def Expr.numerals : Expr → List Text
  | .numeral t => [t]
  | .color r g b => [r, g, b]
  | .vector x y => [x, y]
  | _ => []

/-- No two minus signs stand side by side in the numerals of the expression. -/
def Expr.KeepsSignsApart (e : Expr) : Prop := ∀ t ∈ e.numerals, ¬t.HasDashes

/-- The texts that an expression is made of, a font among them. -/
def Expr.texts : Expr → List Text
  | .text t => [t]
  | .font name => [name]
  | _ => []

/-- A word has no minus sign. -/
theorem dash_notMem_word {t : Text} (isWord : IsWord t) : ('-' : CodePoint) ∉ t := fun member =>
  absurd (isWord.2 _ member) (by decide)

/-- Two minus signs stand side by side in an expression where they do in its text. -/
theorem Expr.hasDashes_render {e : Expr} (clean : e.IsClean) (apart : e.KeepsSignsApart) :
    e.render.HasDashes ↔ ∃ t ∈ e.texts, t.HasDashes := by
  have trivially : ¬∃ t ∈ ([] : List Text), t.HasDashes := by simp
  have comma : ∀ {rest : Text}, ¬rest.HasDashes → Text.IsUnsigned ((", " : Text) ++ rest) :=
    Text.isUnsigned_append (by decide) (by decide)
  have zero : ∀ {rest : Text}, ¬rest.HasDashes → Text.IsUnsigned ((", 0, " : Text) ++ rest) :=
    Text.isUnsigned_append (by decide) (by decide)
  have close : ∀ {t : Text}, ¬t.HasDashes → ¬Text.HasDashes (t ++ (")" : Text)) :=
    (Text.isUnsigned_of_notMem (by decide)).after
  cases e with
  | text t => simp [render, texts, hasDashes_literal]
  | truth b => cases b <;> exact iff_of_false (by decide) trivially
  | numeral t => exact iff_of_false (by simpa [render, KeepsSignsApart, numerals] using apart) trivially
  | color r g b =>
      obtain ⟨red, green, blue⟩ : ¬r.HasDashes ∧ ¬g.HasDashes ∧ ¬b.HasDashes := by
        simpa [KeepsSignsApart, numerals] using apart
      have start : ('-' : CodePoint) ∉ ("Color3.fromRGB(" : Text) := by decide
      have isText : (color r g b).render =
          ("Color3.fromRGB(" : Text) ++ (r ++ ((", " : Text) ++ (g ++ ((", " : Text) ++ (b ++ (")" : Text)))))) := by
        simp [render, Text.join]
      refine iff_of_false ?_ trivially
      rw [isText, Text.hasDashes_append_of_notMem start]
      exact (comma ((comma (close blue)).after green)).after red
  | offset n =>
      have start : ('-' : CodePoint) ∉ ("UDim.new(0, " : Text) := by decide
      refine iff_of_false ?_ trivially
      rw [render, List.append_assoc, Text.hasDashes_append_of_notMem start]
      exact close (Text.not_hasDashes_ofInt n)
  | offsets x y =>
      have start : ('-' : CodePoint) ∉ ("UDim2.new(0, " : Text) := by decide
      refine iff_of_false ?_ trivially
      simp only [render, List.append_assoc, Text.hasDashes_append_of_notMem start]
      exact (zero (close (Text.not_hasDashes_ofInt y))).after (Text.not_hasDashes_ofInt x)
  | vector x y =>
      obtain ⟨first, second⟩ : ¬x.HasDashes ∧ ¬y.HasDashes := by simpa [KeepsSignsApart, numerals] using apart
      have start : ('-' : CodePoint) ∉ ("Vector2.new(" : Text) := by decide
      refine iff_of_false ?_ trivially
      simp only [render, List.append_assoc, Text.hasDashes_append_of_notMem start]
      exact (comma (close second)).after first
  | font name =>
      have start : ('-' : CodePoint) ∉ ("Enum.Font." : Text) := by decide
      simp [render, texts, Text.hasDashes_append_of_notMem start]
  | reference name => exact iff_of_false (fun dashed => dash_notMem_word clean dashed.mem) trivially
  | coreGui => exact iff_of_false (by decide) trivially
  | playerGui => exact iff_of_false (by decide) trivially

namespace Statement

variable {st : Statement}

/-- No two minus signs stand side by side in the numerals of what is assigned. -/
def KeepsSignsApart : Statement → Prop
  | .assign _ _ value => value.KeepsSignsApart
  | _ => True

/-- The texts that what is assigned is made of. -/
def texts : Statement → List Text
  | .assign _ _ value => value.texts
  | _ => []

/-- A statement is written with two minus signs exactly where one of its texts has them. -/
theorem hasDashes_render (clean : st.IsClean) (apart : st.KeepsSignsApart) :
    st.render.HasDashes ↔ ∃ t ∈ st.texts, t.HasDashes := by
  have trivially : ¬∃ t ∈ ([] : List Text), t.HasDashes := by simp
  cases st with
  | create v kind =>
      have fixed : ('-' : CodePoint) ∉ ("local " : Text) ∧ ('-' : CodePoint) ∉ (" = Instance.new(\"" : Text) ∧
        ('-' : CodePoint) ∉ ("\")" : Text) := by decide
      refine iff_of_false (fun dashed => ?_) trivially
      simpa [render, dash_notMem_word clean.1, dash_notMem_word clean.2, fixed] using dashed.mem
  | assign v property value =>
      obtain ⟨isWord, isProperty, cleanValue⟩ := clean
      have fixed : ('-' : CodePoint) ∉ ("." : Text) ∧ ('-' : CodePoint) ∉ (" = " : Text) := by decide
      have front : ('-' : CodePoint) ∉ v ++ ("." : Text) ++ property ++ (" = " : Text) := by
        simp [dash_notMem_word isWord, dash_notMem_word isProperty, fixed]
      rw [render, Text.hasDashes_append_of_notMem front]
      exact Expr.hasDashes_render cleanValue apart
  | localPlayer => exact iff_of_false (by decide) trivially
  | blank => exact iff_of_false (by decide) trivially

/-- Nor does a margin bring them together. -/
theorem hasDashes_line (clean : st.IsClean) (apart : st.KeepsSignsApart) (nested : Bool) :
    (st.line nested).HasDashes ↔ ∃ t ∈ st.texts, t.HasDashes := by
  rw [← hasDashes_render clean apart]
  have margin : ('-' : CodePoint) ∉ ("  " : Text) := by decide
  cases st with
  | blank => exact .rfl
  | _ => cases nested <;> simp [line, Text.hasDashes_append_of_notMem margin]

end Statement

/-- The texts that statements assign. -/
def texts (statements : List Statement) : List Text := statements.flatMap Statement.texts

/-- Two minus signs stand side by side in a script where they do in one of its texts. -/
theorem hasDashes_text {script : Script} (complete : IsComplete script.statements)
    (clean : ∀ st ∈ script.statements, st.IsClean) (apart : ∀ st ∈ script.statements, st.KeepsSignsApart) :
    script.text.HasDashes ↔ ∃ t ∈ texts script.statements, t.HasDashes := by
  obtain ⟨-, -, -, -, isLines⟩ := emitted_eq complete
  have frame : ¬Text.HasDashes [] ∧ ¬Text.HasDashes "do" ∧ ¬Text.HasDashes "end" := by decide
  have emitted : (∃ line ∈ script.emitted, line.HasDashes) ↔ ∃ line ∈ script.lines, line.HasDashes := by
    rw [isLines]
    cases script.nested <;> simp [or_and_right, exists_or, frame]
  have body : (∃ line ∈ script.lines, line.HasDashes) ↔
      ∃ st ∈ script.statements, (st.line script.nested).HasDashes := by
    rw [lines]
    cases script.nested <;> simp [or_and_right, exists_or, frame]
  calc script.text.HasDashes
      _ ↔ ∃ st ∈ script.statements, (st.line script.nested).HasDashes := by
        rw [text_eq complete, Text.hasDashes_join, emitted, body]
      _ ↔ ∃ st ∈ script.statements, ∃ t ∈ st.texts, t.HasDashes :=
        exists_congr fun st => and_congr_right fun member =>
          Statement.hasDashes_line (clean st member) (apart st member) script.nested
      _ ↔ ∃ t ∈ texts script.statements, t.HasDashes := by
        simp only [texts, List.mem_flatMap]
        constructor
        · rintro ⟨st, member, t, isText, dashed⟩
          exact ⟨t, ⟨st, member, isText⟩, dashed⟩
        · rintro ⟨t, ⟨st, member, isText⟩, dashed⟩
          exact ⟨st, member, t, isText, dashed⟩

end Script

end LayoutDesigner
