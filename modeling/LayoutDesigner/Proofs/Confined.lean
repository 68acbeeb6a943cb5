import LayoutDesigner.Proofs.Prints
import LayoutDesigner.Proofs.Reworded

/-!
# Texts are confined

Whatever texts a session holds, in its script each stands inside one literal or as one word, and no line
ends inside it, but for fonts: these are written as they are. So a script is split into the lines that it
was made of exactly where no line ends inside a font, and its lines fall into the pieces that they are
meant to have exactly where every font is a word.
-/

namespace LayoutDesigner

open Arith (Lawful WritesNumerals)

variable {α : Type} [Arith α]

namespace Script

/-- Texts are kept in their places by a script of a design. -/
structure Confines (s : Store α) (p : Project α) (script : Script) : Prop where
  /-- Split at the ends of lines, the text gives the emitted lines exactly where no line ends inside a
  font. -/
  splits : script.text.splitLines = script.emitted ↔ ∀ name ∈ s.fonts, name.IsOneLine
  /-- The lines fall into the pieces of their statements, where a text is one literal and a variable one
  word, exactly where all fonts are words. -/
  reads : script.lines.map Piece.read = script.pieces ↔ ∀ name ∈ s.fonts, IsWord name
  /-- All literals are complete. -/
  closed : ∀ line ∈ script.pieces, Piece.Closed line
  /-- A design that differs in its texts only has a script of the same statements, and as many lines where
  no line ends inside a font. -/
  reworded {t : Store α} {q : Project α} : s.Reworded t → p.Reworded q →
    ∃ other, ofStore t q = .ok other ∧ other.shape = script.shape ∧
      ((∀ name ∈ s.fonts ++ t.fonts, name.IsOneLine) →
        other.text.splitLines.length = script.text.splitLines.length)

variable {s : Store α} {p : Project α} {script : Script}

/-- The nodes that are written are those of the design. -/
theorem mem_written (forest : s.IsForest) {n : Node α} :
    n ∈ (writingOrder s).filterMap s.find? ↔ n ∈ s.nodes := by
  rw [List.mem_filterMap]
  constructor
  · exact fun ⟨_, _, found⟩ => Store.mem_of_find? found
  · exact fun isNode => ⟨n.id, (mem_writingOrder forest).mpr (Store.id_mem_ids isNode),
      Store.find?_of_mem forest.distinct isNode⟩

/-- The fonts that are written are those of the nodes that show text. -/
theorem forall_written_fonts (forest : s.IsForest) {P : Text → Prop} :
    (∀ name ∈ ((writingOrder s).filterMap s.find?).flatMap Node.shownFonts, P name) ↔ ∀ name ∈ s.fonts, P name := by
  simp only [Store.fonts, List.mem_flatMap, mem_written forest]

variable [WritesNumerals α]

/-- The lines of a script are those that were emitted exactly where no font has the end of a line in it. -/
theorem splitLines_iff (forest : s.IsForest) (plain : s.IsPlain) (typed : s.All Node.HasTypedExtensions)
    (written : ofStore s p = .ok script) :
    script.text.splitLines = script.emitted ↔ ∀ name ∈ s.fonts, name.IsOneLine := by
  obtain ⟨prints, complete⟩ := prints_ofStore plain typed written
  rw [splitLines_text complete prints.clean, prints.fonts, forall_written_fonts forest]

/-- The script of a design of typed nodes confines its texts. -/
theorem confines_ofStore (forest : s.IsForest) (plain : s.IsPlain) (typed : s.All Node.HasTypedExtensions)
    (project : p.IsTyped) (written : ofStore s p = .ok script) : script.Confines s p := by
  obtain ⟨prints, complete⟩ := prints_ofStore plain typed written
  refine ⟨splitLines_iff forest plain typed written, ?_, closed_pieces prints.clean, fun {t q} store other => ?_⟩
  · rw [read_lines prints.clean, prints.fonts, forall_written_fonts forest]
  have shapes := shape_ofStore forest plain project store other
  rw [written] at shapes
  cases written' : ofStore t q with
  | error fault => simp [written', Except.map] at shapes
  | ok script' =>
      rw [written'] at shapes
      have same : script'.shape = script.shape := Except.ok.inj shapes
      have forest' := forest.congr store.links
      have plain' := store.isPlain plain
      have typed' : t.All Node.HasTypedExtensions := typed.pointwise store fun n m step isTyped => by
        rwa [Node.HasTypedExtensions, step.extensions]
      obtain ⟨-, complete'⟩ := prints_ofStore plain' typed' written'
      refine ⟨script', rfl, same, fun oneLine => ?_⟩
      obtain ⟨ofStore, ofOther⟩ := List.forall_mem_append.mp oneLine
      rw [(splitLines_iff forest plain typed written).mpr ofStore,
        (splitLines_iff forest' plain' typed' written').mpr ofOther, length_emitted complete, length_emitted complete']
      obtain ⟨nested, statements⟩ := Script.mk.inj same
      have counted : script'.statements.length = script.statements.length := by
        simpa using congrArg List.length statements
      rw [nested, counted]

end Script

namespace Session

/-- Exporting gives the text of the design's script. -/
theorem returned_exportScript {s t : Session α} {text : Text} (exported : exportScript s = .ok text t) :
    ∃ script, Script.ofStore s.store s.project = .ok script ∧ text = script.text := by
  have ends : exportScript.Ends s (fun text _ => Script.generate s.store s.project = .ok text) fun _ _ => True := by
    unfold exportScript notifying
    simp [notice, notify]
  obtain ⟨script, written, returned⟩ := bind_eq_ok.mp (ends.returned exported)
  exact ⟨script, written, (Except.ok.inj returned).symm⟩

section

variable [Lawful α]

/-- The design of the session is typed, and its nodes hang in a tree. -/
structure HasTypedDesign (s : Session α) : Prop where
  forest : s.store.IsForest
  plain : s.store.IsPlain
  extensions : s.store.All Node.HasTypedExtensions
  project : s.project.IsTyped

/-- Commands keep the design of a session typed. -/
theorem typed_runAll (canvas : Value α × Value α) (least offset zoomRange : Value α) (zoom : α) (defaults : Project α)
    (idSupply : Nat → Text) (depth : Nat) (width : canvas.1.IsMeasure) (height : canvas.2.IsMeasure)
    (leastMeasure : least.IsMeasure) (typed : defaults.IsTyped) (unreserved : ∀ taken, idSupply taken ≠ root)
    (commands : List (Command α)) :
    (runAll commands (new canvas least offset zoom zoomRange defaults idSupply depth)).HasTypedDesign := by
  have sound : (Contract.sound True least offset zoomRange).Holds
      (new canvas least offset zoom zoomRange defaults idSupply depth) :=
    holds_new unreserved fun _ => ⟨width, height⟩
  have start : ((Contract.soundTyped least offset zoomRange).upholding Node.HasTypedExtensions).Holds
      (new canvas least offset zoom zoomRange defaults idSupply depth) :=
    { sound with
      good := ⟨sound.good, by simp [Store.All, store, new]⟩
      project := typed
      defaults := typed }
  have kept : ((Contract.soundTyped least offset zoomRange).upholding Node.HasTypedExtensions).Kept :=
    Contract.kept_upholding (Contract.kept_soundTyped leastMeasure) (fun good => good.orderly) (fun start => start.1)
      (Node.HasTypedExtensions.upheld _)
  have holds := start.runAll kept trivial commands
  have orderly := holds.good.1.orderly
  exact ⟨orderly.forest, orderly.plain, holds.good.2, holds.project⟩

end

variable [Lawful α] [WritesNumerals α]

/-- **Texts cannot add code, but for fonts.** Take any session that commands lead to, failing ones and
loads of any document among them, from a typed project and with ids other than the root's. What it exports
is the text of a script that confines its texts. -/
theorem exported_confines (canvas : Value α × Value α) (least offset zoomRange : Value α) (zoom : α)
    (defaults : Project α) (idSupply : Nat → Text) (depth : Nat) (width : canvas.1.IsMeasure)
    (height : canvas.2.IsMeasure) (leastMeasure : least.IsMeasure) (typed : defaults.IsTyped)
    (unreserved : ∀ taken, idSupply taken ≠ root)
    (commands : List (Command α)) :
    let s := runAll commands (new canvas least offset zoom zoomRange defaults idSupply depth)
    ∀ text t, exportScript s = .ok text t → ∃ script, Script.ofStore s.store s.project = .ok script ∧
      text = script.text ∧ script.Confines s.store s.project := by
  intro s text t exported
  obtain ⟨script, written, isText⟩ := returned_exportScript exported
  obtain ⟨forest, plain, extensions, project⟩ := typed_runAll canvas least offset zoomRange zoom defaults
    idSupply depth width height leastMeasure typed unreserved commands
  exact ⟨script, written, isText, Script.confines_ofStore forest plain extensions project written⟩

/-- A session with a label, its font and its text typed as given. -/
def captioned (font text : Text) : Session ℚ :=
  runAll [.createNode (.str "TextLabel"), .setProperty (.str "font") (.str font), .setProperty (.str "text") (.str text)]
    (new (.int 980, .int 620) (.int leastSide) (.int 12) Arith.one (.arr [.num Arith.half, .int 2]) {}
      fun taken => ("n" : Text) ++ Text.ofNat taken)

/-- A text with a quote and with an end of a line in it is confined. -/
theorem exported_confines_captioned :
    let s := captioned "Code" "a\"\nb"
    ∃ text t, exportScript s = .ok text t ∧ ∃ script, Script.ofStore s.store s.project = .ok script ∧
      text = script.text ∧ script.Confines s.store s.project := by
  intro s
  have measure : ∀ v : ℚ, (Value.num v).IsMeasure := fun v => Value.isMeasure_num.mpr (Arith.fits v)
  have returns : (Edit.answer (exportScript s)).toOption.isSome := by decide +kernel
  obtain ⟨text, answered⟩ := Option.isSome_iff_exists.mp returns
  have exported := Edit.eq_ok_of_answer answered
  exact ⟨text, _, exported, exported_confines (.int 980, .int 620) (.int leastSide) (.int 12)
    (.arr [.num Arith.half, .int 2]) Arith.one {} _ _ (measure _) (measure _) (measure _)
    ⟨⟨_, rfl⟩, ⟨_, rfl⟩, ⟨_, rfl⟩, ⟨_, rfl⟩⟩ (fun taken => (Text.numbered_fresh taken).1) _ text _ exported⟩

/-- A font with an end of a line in it adds a line to the script. -/
theorem splitLines_captioned :
    let s := captioned "Code\nprint(1)" ""
    ∃ script ∈ (Script.ofStore s.store s.project).toOption,
      script.text.splitLines ≠ script.emitted ∧ ("print(1)" : Text) ∈ script.text.splitLines := by
  decide +kernel

end Session

end LayoutDesigner
