import LayoutDesigner.Proofs.Confined
import LayoutDesigner.Proofs.Dashes

/-!
# Highlighted scripts

Beside references, a script assigns the name of its screen and what its nodes and their extensions are
assigned. So the texts that it is made of are those of its design, and its lines show their literals
exactly where no two minus signs stand side by side in one of these texts: a text with two of them turns
the rest of its line into a comment, its own quotes notwithstanding.
-/

namespace LayoutDesigner

open Arith (Lawful WritesNumerals)

variable {α : Type} [Arith α]

namespace Script

/-- The value that a statement assigns. A reference is none. -/
def Statement.value? : Statement → Option Expr
  | .assign _ _ (.reference _) => none
  | .assign _ _ value => some value
  | _ => none

/-- The values that statements assign, in order. -/
def values (statements : List Statement) : List Expr := statements.filterMap Statement.value?

@[simp] theorem values_append (first rest : List Statement) : values (first ++ rest) = values first ++ values rest :=
  List.filterMap_append

@[simp] theorem values_create (v kind : Text) (rest : List Statement) :
    values (.create v kind :: rest) = values rest := rfl

@[simp] theorem values_reference (v property name : Text) (rest : List Statement) :
    values (.assign v property (.reference name) :: rest) = values rest := rfl

/-- An assignment that uses no variable has its value. -/
theorem value?_assign {v property : Text} {e : Expr} (isValue : e.uses = []) :
    (Statement.assign v property e).value? = some e := by
  cases e with
  | reference name => simp [Expr.uses] at isValue
  | _ => rfl

/-- Assignments of values have these values in order. -/
theorem values_assigns {v : Text} {assignments : List (Text × Expr)} (isValues : AssignsValues assignments) :
    values (assigns v assignments) = assignments.map Prod.snd := by
  rw [values, assigns, List.filterMap_map, ← List.filterMap_eq_map]
  exact List.filterMap_congr fun entry member => value?_assign (isValues entry member).2

/-- The values among assignments that can be written. -/
def valuesOf : Except Fault (List (Text × Expr)) → List Expr
  | .ok assignments => assignments.map Prod.snd
  | .error _ => []

end Script

open Script (Expr valuesOf)

/-- The values that an extension is assigned. -/
def Extension.assigned (e : Extension α) : List Expr := valuesOf e.assignments

/-- The values that a node and its extensions are assigned. -/
def Node.assigned (n : Node α) : List Expr := valuesOf n.assignments ++ n.extensions.flatMap Extension.assigned

namespace Script

variable {names later : Names} {owner : Text} {statements : List Statement} {n : Node α} {s : Store α}
  {p : Project α} {ids : List Text}

/-- The values of written extensions are what they assign. -/
theorem values_extensions {extensions : List (Extension α)}
    (written : extensionStatements names owner extensions = .ok (statements, later)) :
    values statements = extensions.flatMap Extension.assigned := by
  induction extensions generalizing names statements later with
  | nil =>
      cases written
      rfl
  | cons e rest ih =>
      obtain ⟨assignments, others, isAssignments, isOthers, rfl⟩ := extensionStatements_cons_iff.mp written
      have isValues := assignsValues_extension isAssignments
      simp [values_assigns isValues, ih isOthers, Extension.assigned, isAssignments, valuesOf]

/-- The values of a written node are what it assigns. -/
theorem values_node (written : nodeStatements names n = .ok (statements, later)) :
    values statements = n.assigned := by
  obtain ⟨-, assignments, extensions, isAssignments, isExtensions, rfl⟩ := nodeStatements_iff.mp written
  have blank : values [.blank] = [] := rfl
  have isValues := assignsValues_node isAssignments
  simp [values_assigns isValues, values_extensions isExtensions, Node.assigned, isAssignments, valuesOf, blank]

/-- The values of a written tree are what its nodes assign, in order of writing. -/
theorem values_tree (written : treeStatements s names ids = .ok statements) :
    values statements = (ids.filterMap s.find?).flatMap Node.assigned := by
  induction ids generalizing names statements with
  | nil =>
      cases written
      rfl
  | cons id rest ih =>
      cases found : s.find? id with
      | none =>
          rw [treeStatements_cons_none found] at written
          rw [List.filterMap_cons_none found]
          exact ih written
      | some n =>
          obtain ⟨first, between, others, isFirst, isOthers, rfl⟩ := (treeStatements_cons_some found).mp written
          rw [values_append, values_node isFirst, ih isOthers, List.filterMap_cons_some found, List.flatMap_cons]

/-- The values of the screen come first, then those of the nodes as they are written. -/
theorem values_ofStore {script : Script} (written : ofStore s p = .ok script) :
    ∃ name parent, screenName p = .ok name ∧ (parent = .coreGui ∨ parent = .playerGui) ∧
      values script.statements = [.text name, .truth p.resetOnSpawn.truthy, parent] ++
        ((writingOrder s).filterMap s.find?).flatMap Node.assigned := by
  obtain ⟨first, rest, isFirst, -, isRest, rfl⟩ := ofStore_iff.mp written
  obtain ⟨name, isName, returned⟩ := bind_eq_ok.mp isFirst
  cases returned
  refine ⟨name, if p.usesCoreGui then .coreGui else .playerGui, isName, ?_, ?_⟩
  · cases p.usesCoreGui <;> simp
  · rw [values_append, values_tree isRest]
    cases p.usesCoreGui <;> rfl

/-- The texts of statements are those of the values that they assign. -/
theorem texts_eq (statements : List Statement) : texts statements = (values statements).flatMap Expr.texts := by
  induction statements with
  | nil => rfl
  | cons st rest ih =>
      rw [texts, List.flatMap_cons, ← texts, ih]
      cases st with
      | assign v property value => cases value <;> rfl
      | _ => rfl

/-- Statements keep signs apart where their values do. -/
theorem keepsSignsApart_of_values (apart : ∀ e ∈ values statements, e.KeepsSignsApart) :
    ∀ st ∈ statements, st.KeepsSignsApart := by
  intro st member
  cases st with
  | assign v property value =>
      cases value with
      | reference => simp [Statement.KeepsSignsApart, Expr.KeepsSignsApart, Expr.numerals]
      | _ => exact apart _ (List.mem_filterMap.mpr ⟨_, member, rfl⟩)
  | _ => trivial

end Script

/-- The path of a node's image as it is written, none where there is no image. -/
def Node.shownPaths (n : Node α) : List Text :=
  if n.kind.isImageLike && !n.image.strip.isEmpty then [n.image.strip] else []

/-- The texts that are written for a node: its name, its text with its font where it shows text, and the path
of its image. -/
def Node.shownTexts (n : Node α) : List Text :=
  n.displayName :: (if n.kind.isTextual then [n.text, n.shownFont] else []) ++ n.shownPaths

/-- The texts that are written for a design: the name of the screen, and those of the nodes. -/
def Store.shownTexts (s : Store α) (p : Project α) : List Text :=
  (Script.screenName p).toOption.toList ++ s.nodes.flatMap Node.shownTexts

namespace Script

/-- Values are made of these texts, and of numerals whose signs stand apart. -/
structure Tells (texts : List Text) (values : List Expr) : Prop where
  texts : values.flatMap Expr.texts = texts
  apart : ∀ e ∈ values, e.KeepsSignsApart

namespace Tells

variable {texts more : List Text} {values others : List Expr}

/-- Of nothing nothing is told. -/
theorem nil : Tells [] [] := ⟨rfl, List.forall_mem_nil _⟩

/-- What is told of two parts is told of both together. -/
theorem append (first : Tells texts values) (rest : Tells more others) : Tells (texts ++ more) (values ++ others) where
  texts := by rw [List.flatMap_append, first.texts, rest.texts]
  apart := List.forall_mem_append.mpr ⟨first.apart, rest.apart⟩

/-- What each of a row tells is told by the row. -/
theorem flatMap {β : Type} {row : List β} {f : β → List Text} {g : β → List Expr}
    (each : ∀ b ∈ row, Tells (f b) (g b)) : Tells (row.flatMap f) (row.flatMap g) := by
  induction row with
  | nil => exact nil
  | cons b row ih =>
      obtain ⟨first, rest⟩ := List.forall_mem_cons.mp each
      exact first.append (ih rest)

end Tells

section

variable {v : Value α} {t : Text} {assignments : List (Text × Expr)} {n : Node α}

/-- The image of a node is told of in its assignments. -/
theorem tells_images (plain : n.unchecked = []) (ran : n.imageAssignments = .ok assignments) :
    Tells (if n.image.strip.isEmpty then [] else [n.image.strip]) (assignments.map Prod.snd) := by
  rw [Node.imageAssignments, Node.written_plain plain] at ran
  obtain ⟨path, isPath, returned⟩ := bind_eq_ok.mp ran
  obtain rfl : n.image.strip = path := Except.ok.inj isPath
  cases returned
  split
  · exact .nil
  · exact ⟨rfl, by simp [Expr.KeepsSignsApart, Expr.numerals]⟩

/-- The canvas and the scroll bar tell of no texts. -/
theorem tells_scrolls (ran : n.scrollAssignments = .ok assignments) : Tells [] (assignments.map Prod.snd) := by
  obtain ⟨_, _, _, rfl⟩ := eq_scrolls ran
  exact ⟨rfl, by simp [Expr.KeepsSignsApart, Expr.numerals, Expr.ofInt]⟩

variable [Arith.KeepsSignsApart α]

/-- A numeral in a script has no two minus signs. -/
theorem not_hasDashes_scriptNumeral (ran : v.scriptNumeral = .ok t) : ¬t.HasDashes := by
  obtain ⟨x, rfl⟩ := eq_scriptNumeral ran
  exact Arith.KeepsSignsApart.scriptNumeral x

/-- No text is assigned to an extension. -/
theorem tells_extension {extension : Extension α} (ran : extension.assignments = .ok assignments) :
    Tells [] extension.assigned := by
  rw [Extension.assigned, ran]
  cases ofExtension_assignments ran with
  | nothing => exact .nil
  | corner | padding => exact ⟨rfl, by simp [valuesOf, Expr.KeepsSignsApart, Expr.numerals]⟩
  | stroke | textSizes | sizes =>
      exact ⟨rfl, by simp [valuesOf, Expr.KeepsSignsApart, Expr.numerals, Expr.ofInt, Expr.ofRgb]⟩
  | ratio shown | scale shown =>
      have apart := not_hasDashes_scriptNumeral shown
      exact ⟨rfl, by simp [valuesOf, Expr.KeepsSignsApart, Expr.numerals, apart]⟩

/-- What all kinds have in common tells of the shown name. -/
theorem tells_common (plain : n.unchecked = []) (ran : n.commonAssignments = .ok assignments) :
    Tells [n.displayName] (assignments.map Prod.snd) := by
  obtain ⟨_, _, _, _, _, _, _, color, transparency, isAnchorX, isAnchorY, isColor, rfl⟩ := eq_common ran
  rw [Node.written_plain plain] at isColor
  obtain ⟨r, g, b, rfl⟩ := eq_channels isColor
  have anchorX := not_hasDashes_scriptNumeral isAnchorX
  have anchorY := not_hasDashes_scriptNumeral isAnchorY
  exact ⟨rfl, by simp [Expr.KeepsSignsApart, Expr.numerals, Expr.ofInt, anchorX, anchorY]⟩

/-- The texts of a node are told of in their assignments. -/
theorem tells_texts (plain : n.unchecked = []) (ran : n.textAssignments = .ok assignments) :
    Tells [n.text, n.shownFont] (assignments.map Prod.snd) := by
  obtain ⟨color, isColor, returned⟩ := bind_eq_ok.mp ran
  cases returned
  rw [Node.written_plain plain] at isColor
  obtain ⟨r, g, b, rfl⟩ := eq_channels isColor
  rw [written_font plain, Node.written_plain plain]
  exact ⟨rfl, by simp [Expr.KeepsSignsApart, Expr.numerals]⟩

/-- A typed node that can be written tells its texts. -/
theorem tells_node {nested : Bool} (plain : n.unchecked = []) (writable : IsWritable nested n) :
    Tells n.shownTexts n.assigned := by
  obtain ⟨assignments, ran⟩ := writable.assignments
  have own : Tells n.shownTexts (assignments.map Prod.snd) := by
    obtain ⟨common, texts, images, scrolls, isCommon, isTexts, isImages, isScrolls, rfl⟩ := assignments_iff.mp ran
    have ofTexts : Tells (if n.kind.isTextual then [n.text, n.shownFont] else []) (texts.map Prod.snd) := by
      split at isTexts
      · next textual => simpa [textual] using tells_texts plain isTexts
      · next notTextual =>
          cases isTexts
          simpa [notTextual] using Tells.nil
    have ofImages : Tells n.shownPaths (images.map Prod.snd) := by
      rw [Node.shownPaths]
      split at isImages
      · next imageLike => simpa [imageLike] using tells_images plain isImages
      · next notImageLike =>
          cases isImages
          simpa [notImageLike] using Tells.nil
    have ofScrolls : Tells [] (scrolls.map Prod.snd) := by
      split at isScrolls
      · exact tells_scrolls isScrolls
      · cases isScrolls
        exact .nil
    simpa [Node.shownTexts] using (((tells_common plain isCommon).append ofTexts).append ofImages).append ofScrolls
  have others : Tells (n.extensions.flatMap fun _ => []) (n.extensions.flatMap Extension.assigned) := by
    apply Tells.flatMap
    intro e member
    obtain ⟨_, isAssignments⟩ := writable.extensions e member
    exact tells_extension isAssignments
  have noText : (n.extensions.flatMap fun _ => ([] : List Text)) = [] := List.flatMap_eq_nil_iff.mpr fun _ _ => rfl
  rw [noText] at others
  have all := own.append others
  rw [List.append_nil] at all
  rwa [Node.assigned, ran]

/-- The texts of a script are those of its design, and the signs of its numerals stand apart. -/
theorem texts_ofStore {s : Store α} {p : Project α} {script : Script} (forest : s.IsForest) (plain : s.IsPlain)
    (written : ofStore s p = .ok script) :
    (∀ t, t ∈ texts script.statements ↔ t ∈ s.shownTexts p) ∧ ∀ st ∈ script.statements, st.KeepsSignsApart := by
  obtain ⟨name, parent, isName, isParent, isValues⟩ := values_ofStore written
  obtain ⟨-, -, writable⟩ := (ofStore_ok_iff forest p).mp ⟨script, written⟩
  have screen : Tells [name] [.text name, .truth p.resetOnSpawn.truthy, parent] := by
    rcases isParent with rfl | rfl <;> exact ⟨rfl, by simp [Expr.KeepsSignsApart, Expr.numerals]⟩
  have nodes : Tells (((writingOrder s).filterMap s.find?).flatMap Node.shownTexts)
      (((writingOrder s).filterMap s.find?).flatMap Node.assigned) := by
    apply Tells.flatMap
    intro n member
    obtain ⟨_, -, found⟩ := List.mem_filterMap.mp member
    have isNode := Store.mem_of_find? found
    exact tells_node (plain n isNode) (writable n isNode)
  obtain ⟨isTexts, apart⟩ := screen.append nodes
  rw [← isValues] at isTexts apart
  refine ⟨fun t => ?_, keepsSignsApart_of_values apart⟩
  rw [texts_eq, isTexts, Store.shownTexts, isName]
  simp [mem_written forest, Except.toOption, eq_comm]

end

/-- A highlighted script shows its literals up to two minus signs that stand side by side. -/
structure ShowsTexts (s : Store α) (p : Project α) (script : Script) : Prop where
  /-- Two minus signs that stand side by side make the rest of their line a comment, be it in a literal. -/
  comments : ∀ line ∈ Text.splitOn '\n' script.text, ∀ unit,
    look line unit = some .comment ↔ line.DashedBy unit ∧ unit < line.units
  /-- The strings of a line are its literals, but for what two minus signs begin. -/
  strings : ∀ line ∈ Text.splitOn '\n' script.text, ∀ unit,
    look line unit = some .string ↔ Piece.InLiteral unit 0 (Piece.read line) ∧ ¬line.DashedBy unit
  /-- The line of a statement shows its literals exactly where no two minus signs stand side by side in the text
  or in the font that is assigned. -/
  statements : ∀ st ∈ script.statements,
    ShowsLiterals (st.line script.nested) ↔ ∀ t ∈ st.texts, ¬t.HasDashes
  /-- All lines show their literals exactly where no two minus signs stand side by side in a text of the design. -/
  whole : (∀ line ∈ Text.splitOn '\n' script.text, ShowsLiterals line) ↔ ∀ t ∈ s.shownTexts p, ¬t.HasDashes

/-- The script of a design of typed nodes shows its literals so. -/
theorem showsTexts_ofStore [WritesNumerals α] [Arith.KeepsSignsApart α] {s : Store α} {p : Project α} {script : Script}
    (forest : s.IsForest) (plain : s.IsPlain) (typed : s.All Node.HasTypedExtensions)
    (written : ofStore s p = .ok script) : script.ShowsTexts s p := by
  obtain ⟨prints, complete⟩ := prints_ofStore plain typed written
  obtain ⟨isTexts, apart⟩ := texts_ofStore forest plain written
  constructor
  · exact fun line _ unit => look_eq_comment_iff
  · exact fun line _ unit => look_eq_string_iff
  · intro st member
    rw [showsLiterals_iff, Statement.hasDashes_line (prints.clean st member) (apart st member)]
    simp
  · have dashed := hasDashes_text complete prints.clean apart
    simp only [isTexts] at dashed
    calc (∀ line ∈ Text.splitOn '\n' script.text, ShowsLiterals line)
        _ ↔ ¬∃ line ∈ Text.splitOn '\n' script.text, line.HasDashes := by simp [showsLiterals_iff]
        _ ↔ ¬∃ t ∈ s.shownTexts p, t.HasDashes := by rw [Text.hasDashes_splitOn, dashed]
        _ ↔ ∀ t ∈ s.shownTexts p, ¬t.HasDashes := by simp

end Script

namespace Session

variable [Lawful α]

/-- **Literals are shown as strings, but for what follows two minus signs.** Take any session that commands lead to,
failing ones and loads of any document among them, from a typed project and with ids other than the root's.
What it exports is the text of a script that shows its literals, as soon as no two minus signs stand side by
side in a text of the design, and only then. -/
theorem exported_showsTexts [WritesNumerals α] [Arith.KeepsSignsApart α] (canvas : Value α × Value α)
    (least offset zoomRange : Value α) (zoom : α) (defaults : Project α) (idSupply : Nat → Text) (depth : Nat)
    (width : canvas.1.IsMeasure) (height : canvas.2.IsMeasure) (leastMeasure : least.IsMeasure)
    (typed : defaults.IsTyped) (unreserved : ∀ taken, idSupply taken ≠ root) (commands : List (Command α)) :
    let s := runAll commands (new canvas least offset zoom zoomRange defaults idSupply depth)
    ∀ text t, exportScript s = .ok text t → ∃ script, Script.ofStore s.store s.project = .ok script ∧
      text = script.text ∧ script.ShowsTexts s.store s.project := by
  intro s text t exported
  obtain ⟨script, written, isText⟩ := returned_exportScript exported
  obtain ⟨forest, plain, extensions, -⟩ := typed_runAll canvas least offset zoomRange zoom defaults idSupply
    depth width height leastMeasure typed unreserved commands
  exact ⟨script, written, isText, Script.showsTexts_ofStore forest plain extensions written⟩

/-- A text with two minus signs is shown so too. -/
theorem exported_showsTexts_captioned :
    let s := captioned "Code" "a--b"
    ∃ text t, exportScript s = .ok text t ∧ ∃ script, Script.ofStore s.store s.project = .ok script ∧
      text = script.text ∧ script.ShowsTexts s.store s.project := by
  intro s
  have measure : ∀ v : ℚ, (Value.num v).IsMeasure := fun v => Value.isMeasure_num.mpr (Arith.fits v)
  have returns : (Edit.answer (exportScript s)).toOption.isSome := by decide +kernel
  obtain ⟨text, answered⟩ := Option.isSome_iff_exists.mp returns
  have exported := Edit.eq_ok_of_answer answered
  exact ⟨text, _, exported, exported_showsTexts (.int 980, .int 620) (.int leastSide) (.int 12)
    (.arr [.num Arith.half, .int 2]) Arith.one {} _ _ (measure _) (measure _) (measure _)
    ⟨⟨_, rfl⟩, ⟨_, rfl⟩, ⟨_, rfl⟩, ⟨_, rfl⟩⟩ (fun taken => (Text.numbered_fresh taken).1) _ text _ exported⟩

/-- The minus signs of a text, with all that follows them, are shown as a comment. -/
theorem not_showsLiterals_captioned :
    let s := captioned "Code" "a--b"
    let line : Text := "textLabel.Text = \"a--b\""
    ∃ script ∈ (Script.ofStore s.store s.project).toOption, line ∈ Text.splitOn '\n' script.text ∧
      ¬Script.ShowsLiterals line ∧ Script.look line 19 = some .comment := by
  decide +kernel

end Session

end LayoutDesigner
