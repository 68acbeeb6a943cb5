import LayoutDesigner.Proofs.Export
import LayoutDesigner.Proofs.Lines

/-!
# What a script is printed from

The script of a design of typed nodes names its variables, kinds and properties by words and its numbers
by numerals. It is printed from them, from texts, and from the fonts of the nodes that show text.
-/

namespace LayoutDesigner

open Arith (WritesNumerals)

variable {α : Type}

/-- The font of a node as it is written. -/
def Node.shownFont (n : Node α) : Text := n.font.orElse defaultFont

/-- The fonts that are written for a node: one where the node shows text. -/
def Node.shownFonts (n : Node α) : List Text := if n.kind.isTextual then [n.shownFont] else []

/-- The fonts that are written for a design. -/
def Store.fonts (s : Store α) : List Text := s.nodes.flatMap Node.shownFonts

namespace Script

section

variable {t rest : Text}

/-- A local name is a word. -/
theorem IsWord.of_local (isLocal : IsLocal t) : IsWord t := by
  refine ⟨?_, isAsciiWord_of_isIdentifier isLocal.identifier⟩
  rintro rfl
  exact absurd isLocal.identifier (by decide)

/-- A word does not end with a blank. -/
theorem IsWord.endsFirmly (isWord : IsWord t) : t.EndsFirmly := by
  obtain ⟨notEmpty, words⟩ := isWord
  refine ⟨t.dropLast, t.getLast notEmpty, (List.dropLast_append_getLast notEmpty).symm, ?_⟩
  have isWord := words _ (List.getLast_mem notEmpty)
  rw [← Bool.not_eq_true]
  intro isBlank
  simp only [CodePoint.isAsciiWord, CodePoint.isAsciiDigit, CodePoint.isBlank, Bool.or_eq_true, Bool.and_eq_true,
    decide_eq_true_eq, beq_iff_eq] at isWord isBlank
  omega

/-- The variable of the screen is a word. -/
theorem isWord_screenVariable : IsWord screenVariable := by decide

/-- The name of a kind is a word. -/
theorem isWord_kind (kind : Kind) : IsWord kind.name := by
  cases kind <;> decide

/-- The name of a kind of extension is a word. -/
theorem isWord_extensionKind (kind : ExtensionKind) : IsWord kind.name := by
  cases kind <;> decide

end

/-- Properties are words, what is assigned is clean, and the fonts are these. -/
structure Assigns (fonts : List Text) (assignments : List (Text × Expr)) : Prop where
  clean : ∀ entry ∈ assignments, IsWord entry.1 ∧ entry.2.IsClean
  fonts : assignments.filterMap (fun entry => entry.2.font?) = fonts

namespace Assigns

variable {fonts more : List Text} {assignments others : List (Text × Expr)} {property : Text} {value : Expr}

/-- Nothing is assigned. -/
theorem nil : Assigns [] [] := ⟨List.forall_mem_nil _, rfl⟩

/-- A clean value that is no font is assigned before the rest. -/
theorem cons (isWord : IsWord property) (clean : value.IsClean) (noFont : value.font? = none)
    (rest : Assigns fonts assignments) : Assigns fonts ((property, value) :: assignments) where
  clean := List.forall_mem_cons.mpr ⟨⟨isWord, clean⟩, rest.clean⟩
  fonts := (List.filterMap_cons_none (f := fun entry : Text × Expr => entry.2.font?) noFont).trans rest.fonts

/-- What is assigned in two parts is assigned in both together. -/
theorem append (first : Assigns fonts assignments) (rest : Assigns more others) :
    Assigns (fonts ++ more) (assignments ++ others) where
  clean := List.forall_mem_append.mpr ⟨first.clean, rest.clean⟩
  fonts := by rw [List.filterMap_append, first.fonts, rest.fonts]

end Assigns

section

variable [Arith α] {v : Value α} {e : Expr} {assignments : List (Text × Expr)}

/-- An integer is a clean expression. -/
theorem clean_ofInt (n : Int) : (Expr.ofInt n).IsClean := Text.isNumeral_ofInt n

/-- A colour is made of three numerals. -/
theorem eq_channels {c : Rgb} (ran : Expr.ofChannels (.arr (c.channels : List (Value α))) = .ok e) :
    ∃ r g b : α, e = .color (Arith.numeral r) (Arith.numeral g) (Arith.numeral b) :=
  ⟨_, _, _, (Except.ok.inj ran).symm⟩

/-- A numeral in a script is that of some number. -/
theorem eq_scriptNumeral {t : Text} (ran : v.scriptNumeral = .ok t) : ∃ x : α, t = Arith.scriptNumeral x := by
  rw [Value.scriptNumeral] at ran
  cases read : v.toNumberOrZero with
  | error fault => simp [read, Except.map] at ran
  | ok x =>
      rw [read] at ran
      exact ⟨x, (Except.ok.inj ran).symm⟩

variable [WritesNumerals α]

/-- The channels of a colour are clean and no font. -/
theorem clean_channels {c : Rgb} (ran : Expr.ofChannels (.arr (c.channels : List (Value α))) = .ok e) :
    e.IsClean ∧ e.font? = none := by
  obtain ⟨r, g, b, rfl⟩ := eq_channels ran
  exact ⟨⟨WritesNumerals.isNumeral_numeral r, WritesNumerals.isNumeral_numeral g,
    WritesNumerals.isNumeral_numeral b⟩, rfl⟩

/-- A numeral in a script is a numeral. -/
theorem isNumeral_scriptNumeral {t : Text} (ran : v.scriptNumeral = .ok t) : t.IsNumeral := by
  obtain ⟨x, rfl⟩ := eq_scriptNumeral ran
  exact WritesNumerals.isNumeral_scriptNumeral x

/-- No font is assigned to an extension. -/
theorem assigns_extension {extension : Extension α} (ran : extension.assignments = .ok assignments) :
    Assigns [] assignments := by
  cases ofExtension_assignments ran with
  | nothing => exact .nil
  | corner => exact .cons (by decide) trivial rfl .nil
  | stroke =>
      exact .cons (by decide) (clean_ofInt _) rfl <| .cons (by decide)
        ⟨Text.isNumeral_ofInt _, Text.isNumeral_ofInt _, Text.isNumeral_ofInt _⟩ rfl <|
        .cons (by decide) (WritesNumerals.isNumeral_twoPlaces _) rfl .nil
  | ratio shown | scale shown => exact .cons (by decide) (isNumeral_scriptNumeral shown) rfl .nil
  | textSizes => exact .cons (by decide) (clean_ofInt _) rfl <| .cons (by decide) (clean_ofInt _) rfl .nil
  | sizes =>
      exact .cons (by decide) ⟨Text.isNumeral_ofInt _, Text.isNumeral_ofInt _⟩ rfl <|
        .cons (by decide) ⟨Text.isNumeral_ofInt _, Text.isNumeral_ofInt _⟩ rfl .nil
  | padding =>
      exact .cons (by decide) trivial rfl <| .cons (by decide) trivial rfl <| .cons (by decide) trivial rfl <|
        .cons (by decide) trivial rfl .nil

variable {n : Node α}

/-- What all kinds have in common is clean and no font. -/
theorem assigns_common (plain : n.unchecked = []) (ran : n.commonAssignments = .ok assignments) :
    Assigns [] assignments := by
  obtain ⟨_, _, _, _, _, _, _, color, _, isAnchorX, isAnchorY, isColor, rfl⟩ := eq_common ran
  rw [Node.written_plain plain] at isColor
  have color := clean_channels isColor
  exact .cons (by decide) trivial rfl <| .cons (by decide) trivial rfl <| .cons (by decide) trivial rfl <|
    .cons (by decide) ⟨isNumeral_scriptNumeral isAnchorX, isNumeral_scriptNumeral isAnchorY⟩ rfl <|
    .cons (by decide) (clean_ofInt _) rfl <| .cons (by decide) color.1 color.2 <|
    .cons (by decide) (WritesNumerals.isNumeral_twoPlaces _) rfl <| .cons (by decide) (clean_ofInt _) rfl .nil

omit [WritesNumerals α] in
/-- What is written for the font of a typed node. -/
theorem written_font (plain : n.unchecked = []) :
    (if (n.written .font).truthy then (n.written .font).shown else defaultFont) = n.shownFont := by
  rw [Node.written_plain plain, Node.shownFont, Text.orElse]
  cases n.font <;> rfl

/-- A node that shows text has its font assigned. -/
theorem assigns_texts (plain : n.unchecked = []) (ran : n.textAssignments = .ok assignments) :
    Assigns [n.shownFont] assignments := by
  have named : n.shownFont ≠ [] := Text.orElse_ne_nil defaultFont_ne_nil
  obtain ⟨color, isColor, returned⟩ := bind_eq_ok.mp ran
  cases returned
  rw [Node.written_plain plain] at isColor
  have color := clean_channels isColor
  have isWord : IsWord "Font" := by decide
  have font : Assigns [n.shownFont] [("Font", .font n.shownFont)] :=
    ⟨List.forall_mem_singleton.mpr ⟨isWord, named⟩, rfl⟩
  rw [written_font plain]
  exact .cons (by decide) color.1 color.2 <| .cons (by decide) trivial rfl <| .cons (by decide) trivial rfl font

/-- What is assigned to a typed node is clean, and its fonts are the node's. -/
theorem assigns_node (plain : n.unchecked = []) (ran : n.assignments = .ok assignments) :
    Assigns n.shownFonts assignments := by
  obtain ⟨common, texts, images, scrolls, isCommon, isTexts, isImages, isScrolls, rfl⟩ := assignments_iff.mp ran
  have ofTexts : Assigns n.shownFonts texts := by
    rw [Node.shownFonts]
    split at isTexts
    · next textual =>
        rw [if_pos textual]
        exact assigns_texts plain isTexts
    · next notTextual =>
        cases isTexts
        rw [if_neg notTextual]
        exact .nil
  have ofImages : Assigns [] images := by
    split at isImages
    · obtain rfl | ⟨path, rfl⟩ := eq_images isImages
      · exact .nil
      · exact .cons (by decide) trivial rfl .nil
    · cases isImages
      exact .nil
  have ofScrolls : Assigns [] scrolls := by
    split at isScrolls
    · obtain ⟨_, _, _, rfl⟩ := eq_scrolls isScrolls
      exact .cons (by decide) trivial rfl <| .cons (by decide) (clean_ofInt _) rfl .nil
    · cases isScrolls
      exact .nil
  simpa using (((assigns_common plain isCommon).append ofTexts).append ofImages).append ofScrolls

end

namespace Names

variable {names : Names} {n : Node α} {owner : Text}

/-- The variables of nodes are legal names. -/
def AreLocal (names : Names) : Prop := ∀ entry ∈ names.nodeVariables, IsLocal entry.2

/-- A name that is found among local ones is local. -/
theorem isLocal_of_lookup (locals : names.AreLocal) {id v : Text} (found : names.lookup id = some v) : IsLocal v := by
  obtain ⟨entry, isEntry, rfl⟩ := Option.map_eq_some_iff.mp found
  exact locals entry (List.mem_of_find?_eq_some isEntry)

/-- The variable of a node is local, and so are all names after it. -/
theorem isLocal_ofNode (locals : names.AreLocal) (n : Node α) :
    IsLocal (names.ofNode n).1 ∧ (names.ofNode n).2.AreLocal := by
  cases unnamed : names.lookup n.id with
  | some v =>
      rw [ofNode, unnamed]
      exact ⟨isLocal_of_lookup locals unnamed, locals⟩
  | none =>
      obtain ⟨base, isLocal, -, isName, -⟩ := ofNode_claims unnamed
      obtain ⟨-, -, recorded⟩ := ofNode_new unnamed
      have named : IsLocal (names.ofNode n).1 := isName ▸ isLocal_claim names isLocal
      refine ⟨named, ?_⟩
      rw [AreLocal, recorded]
      exact List.forall_mem_cons.mpr ⟨named, locals⟩

/-- The variable of a parent is a word. -/
theorem isWord_parentVariable [Arith α] (locals : names.AreLocal) (n : Node α) : IsWord (parentVariable names n) := by
  rw [parentVariable]
  split
  · exact isWord_screenVariable
  · cases found : names.lookup n.parent with
    | none => exact isWord_screenVariable
    | some v => exact .of_local (isLocal_of_lookup locals found)

end Names

/-- Statements are clean, and their fonts are these. -/
structure Prints (fonts : List Text) (statements : List Statement) : Prop where
  clean : ∀ st ∈ statements, st.IsClean
  fonts : Script.fonts statements = fonts

namespace Prints

variable {fonts more : List Text} {statements others : List Statement} {st : Statement}

/-- Nothing is printed. -/
theorem nil : Prints [] [] := ⟨List.forall_mem_nil _, rfl⟩

/-- A clean statement without a font is printed before the rest. -/
theorem cons (clean : st.IsClean) (noFont : st.font? = none) (rest : Prints fonts statements) :
    Prints fonts (st :: statements) where
  clean := List.forall_mem_cons.mpr ⟨clean, rest.clean⟩
  fonts := (List.filterMap_cons_none noFont).trans rest.fonts

/-- A new instance is printed before the rest. -/
theorem create {v kind : Text} (isWord : IsWord v) (isKind : IsWord kind) (rest : Prints fonts statements) :
    Prints fonts (.create v kind :: statements) := .cons ⟨isWord, isKind⟩ rfl rest

/-- An assignment without a font is printed before the rest. -/
theorem assign {v property : Text} {value : Expr} (isWord : IsWord v) (isProperty : IsWord property)
    (clean : value.IsClean) (noFont : value.font? = none) (rest : Prints fonts statements) :
    Prints fonts (.assign v property value :: statements) :=
  .cons ⟨isWord, isProperty, clean⟩ noFont rest

/-- An instance is put under another one. -/
theorem parent {v above : Text} (isWord : IsWord v) (isAbove : IsWord above) (rest : Prints fonts statements) :
    Prints fonts (.assign v parentProperty (.reference above) :: statements) :=
  .assign isWord (by decide) isAbove rfl rest

/-- The player is introduced before the rest. -/
theorem localPlayer (rest : Prints fonts statements) : Prints fonts (.localPlayer :: statements) :=
  .cons trivial rfl rest

/-- An empty line is printed. -/
theorem blank : Prints [] [.blank] := .cons trivial rfl .nil

/-- What is printed in two parts is printed in both together. -/
theorem append (first : Prints fonts statements) (rest : Prints more others) :
    Prints (fonts ++ more) (statements ++ others) where
  clean := List.forall_mem_append.mpr ⟨first.clean, rest.clean⟩
  fonts := by rw [Script.fonts, List.filterMap_append, ← Script.fonts, ← Script.fonts, first.fonts, rest.fonts]

/-- Assignments to one variable are printed. -/
theorem assigns {v : Text} {assignments : List (Text × Expr)} (isWord : IsWord v) (assigned : Assigns fonts assignments) :
    Prints fonts (Script.assigns v assignments) where
  clean := List.forall_mem_map.mpr fun entry member =>
    ⟨isWord, (assigned.clean entry member).1, (assigned.clean entry member).2⟩
  fonts := by
    rw [← assigned.fonts, Script.fonts, Script.assigns, List.filterMap_map]
    rfl

end Prints

section

variable [Arith α] [WritesNumerals α] {names later : Names} {owner : Text} {statements : List Statement} {n : Node α}
  {s : Store α} {p : Project α} {ids : List Text}

/-- Extensions are printed without a font, and no node gets another variable. -/
theorem prints_extensions {extensions : List (Extension α)} (isOwner : IsLocal owner)
    (typed : ∀ e ∈ extensions, e.unchecked = none)
    (written : extensionStatements names owner extensions = .ok (statements, later)) :
    Prints [] statements ∧ later.nodeVariables = names.nodeVariables := by
  induction extensions generalizing names statements later with
  | nil =>
      cases written
      exact ⟨.nil, rfl⟩
  | cons e rest ih =>
      obtain ⟨isTyped, restTyped⟩ := List.forall_mem_cons.mp typed
      obtain ⟨assignments, others, isAssignments, isOthers, rfl⟩ := extensionStatements_cons_iff.mp written
      obtain ⟨prints, same⟩ := ih restTyped isOthers
      obtain ⟨-, -, unnamed⟩ := Names.ofExtension_new names owner e
      have isWord : IsWord (names.ofExtension owner e).1 := IsWord.of_local (Names.isLocal_ofExtension isOwner e)
      have kind : IsWord e.shownKind.shown := by
        rw [Extension.shownKind, isTyped]
        exact isWord_extensionKind e.kind
      refine ⟨?_, same.trans unnamed⟩
      exact (Prints.create isWord kind (.assigns isWord (assigns_extension isAssignments))).append
        (.parent isWord (.of_local isOwner) prints)

/-- The statements of a node have its font and end as they should. -/
theorem prints_node (locals : names.AreLocal) (plain : n.unchecked = []) (typed : n.HasTypedExtensions)
    (written : nodeStatements names n = .ok (statements, later)) :
    Prints n.shownFonts statements ∧ IsComplete statements ∧ later.AreLocal := by
  obtain ⟨-, assignments, extensions, isAssignments, isExtensions, rfl⟩ := nodeStatements_iff.mp written
  obtain ⟨isLocal, recorded⟩ := Names.isLocal_ofNode locals n
  obtain ⟨prints, same⟩ := prints_extensions isLocal typed isExtensions
  have laterLocal : later.AreLocal := by rwa [Names.AreLocal, same]
  have isWord := IsWord.of_local isLocal
  have above := Names.isWord_parentVariable laterLocal n
  refine ⟨?_, ⟨_, _, rfl, ?_⟩, laterLocal⟩
  · have assigned := Prints.assigns isWord (assigns_node plain isAssignments)
    have all := ((Prints.create isWord (isWord_kind n.kind) assigned).append prints).append (.parent isWord above .blank)
    simpa using all
  · exact above.endsFirmly.append _

/-- The statements of the listed nodes have their fonts, in order. -/
theorem prints_tree (locals : names.AreLocal) (plain : s.IsPlain) (typed : s.All Node.HasTypedExtensions)
    (written : treeStatements s names ids = .ok statements) :
    Prints ((ids.filterMap s.find?).flatMap Node.shownFonts) statements ∧ (statements = [] ∨ IsComplete statements) := by
  induction ids generalizing names statements with
  | nil =>
      cases written
      exact ⟨.nil, .inl rfl⟩
  | cons id rest ih =>
      cases found : s.find? id with
      | none =>
          rw [treeStatements_cons_none found] at written
          rw [List.filterMap_cons_none found]
          exact ih locals written
      | some n =>
          obtain ⟨first, between, others, isFirst, isOthers, rfl⟩ := (treeStatements_cons_some found).mp written
          have isNode := Store.mem_of_find? found
          obtain ⟨prints, complete, between⟩ := prints_node locals (plain n isNode) (typed n isNode) isFirst
          obtain ⟨prints', ends⟩ := ih between isOthers
          rw [List.filterMap_cons_some found, List.flatMap_cons]
          exact ⟨prints.append prints', .inr (complete.append ends)⟩

omit [WritesNumerals α] in
/-- The header is printed without a font, and it is complete. -/
theorem prints_header (written : header p = .ok statements) : Prints [] statements ∧ IsComplete statements := by
  obtain ⟨name, -, returned⟩ := bind_eq_ok.mp written
  cases returned
  have isWord := isWord_screenVariable
  have first : ∀ {rest : List Statement}, Prints [] rest → Prints []
      ([.create screenVariable "ScreenGui", .assign screenVariable "Name" (.text name),
        .assign screenVariable "ResetOnSpawn" (.truth p.resetOnSpawn.truthy)] ++ rest) := fun rest =>
    .create isWord (by decide) <| .assign isWord (by decide) trivial rfl <| .assign isWord (by decide) trivial rfl rest
  rw [List.append_assoc]
  cases p.usesCoreGui with
  | true =>
      refine ⟨first <| .assign isWord (by decide) trivial rfl .blank, ⟨_, _, rfl, ?_⟩⟩
      exact ⟨"screenGui.Parent = game:GetService(\"CoreGui\"", ')', by decide, by decide⟩
  | false =>
      refine ⟨first <| .localPlayer <| .assign isWord (by decide) trivial rfl .blank, ⟨[_, _, _, _], _, rfl, ?_⟩⟩
      exact ⟨"screenGui.Parent = player:WaitForChild(\"PlayerGui\"", ')', by decide, by decide⟩

/-- The statements of a script are clean, and their fonts are those of the design. -/
theorem prints_ofStore {script : Script} (plain : s.IsPlain) (typed : s.All Node.HasTypedExtensions)
    (written : ofStore s p = .ok script) :
    Prints (((writingOrder s).filterMap s.find?).flatMap Node.shownFonts) script.statements ∧
      IsComplete script.statements := by
  obtain ⟨first, rest, isFirst, -, isRest, rfl⟩ := ofStore_iff.mp written
  obtain ⟨header, complete⟩ := prints_header isFirst
  have unnamed : Names.AreLocal { counted := p.isNested } := List.forall_mem_nil _
  obtain ⟨tree, ends⟩ := prints_tree unnamed plain typed isRest
  exact ⟨header.append tree, complete.append ends⟩

end

end Script

end LayoutDesigner
