import LayoutDesigner.Proofs.Failing
import LayoutDesigner.Proofs.Utf8
import LayoutDesigner.Snapshot.SaveFile

/-!
# Loading any file

What a load does is decided by the bytes of the file: whether they are UTF-8, what the reader of
documents says of the text, and whether the document breaks the schema or is legible. A load that
fails changes nothing, and one that answers no changes nothing but the notice.
-/

namespace LayoutDesigner

open Arith

/-- What a save file reports where its text is no document. -/
def Json.Failure.fault : Json.Failure → Fault
  | .malformed => .unreadableSnapshot
  | .numeralTooLong digits => .numeralTooLong digits
  | .tooDeep => .tooDeep

namespace SaveFile

variable {bytes : List UInt8} {text : Text} {depth : Nat}

/-- A file whose bytes are no UTF-8 cannot be read. -/
theorem read_of_undecodable (none : ∀ text, Text.encode? text ≠ some bytes) :
    read (some bytes) depth = .error .undecodable := by
  rw [read, Text.decode?_eq_none.mpr none]

/-- A file whose bytes are UTF-8 is read as its text is. -/
theorem read_of_encode (encoded : text.encode? = some bytes) :
    read (some bytes) depth = (readText text depth).map some := by
  rw [read, Text.decode?_eq_some.mpr encoded]

/-- A text that is a document is read as this document. -/
theorem readText_of_ok {data : Document} (isRead : Json.read text depth = .ok data) :
    readText text depth = .ok data := by
  rw [readText, isRead]

/-- A text that is no document is told of as the reader tells it. -/
theorem readText_of_error {failure : Json.Failure} (failed : Json.read text depth = .error failure) :
    readText text depth = .error failure.fault := by
  rw [readText, failed]
  cases failure <;> rfl

end SaveFile

namespace Session

section

variable {α : Type} [Arith α] {s : Session α} {data : Value α} {fault : Fault}

/-- The session after it found nothing to load: it has said so, and all else is as before. -/
def unsaved (s : Session α) : Session α :=
  { s with status := (nothingSavedNotice, []), signals := s.signals ++ [.notice nothingSavedNotice [], .changed] }

omit [Arith α] in
/-- A notice and then the news that something changed. -/
theorem notifying_notice (message : Text) (answer : Bool) :
    (notifying do notice message; return answer) s = .ok answer { s with
      status := (message, []), signals := s.signals ++ [Signal.notice message [], Signal.changed] } := by
  change EStateM.Result.ok answer { s with
    status := (message, []), signals := s.signals ++ [Signal.notice message []] ++ [Signal.changed] } = _
  rw [List.append_assoc]
  rfl

/-- A null in the file counts as nothing saved. -/
theorem loadFrom_null : loadFrom (.ok (some .null)) s = .ok false s.unsaved := notifying_notice _ _

/-- Any other document in the file is loaded. -/
theorem loadFrom_some (notNull : data ≠ .null) : loadFrom (.ok (some data)) s = loadSnapshot data s := by
  cases data with
  | null => exact absurd rfl notNull
  | _ => rfl

/-- A file that holds no document is refused. -/
theorem loadFrom_unreadable : loadFrom (.error .unreadableSnapshot) s = .ok false s.refused := notifying_notice _ _

/-- Any other failure to read the file is passed on, and nothing changes. -/
theorem loadFrom_error (usable : isUnusable fault = false) : loadFrom (.error fault) s = .error fault s := by
  have thrown : loadFrom (.error fault) = (throw fault : Edit (Session α) Bool) := if_neg (by simp [usable])
  rw [thrown]
  rfl

/-- An accepted document is loaded into a regular session where it is legible; else loading it fails and
changes nothing, or has no end. -/
theorem IsRegular.loadSnapshot_of_accepted [Refuses α] [Lawful α] (regular : s.IsRegular)
    (accepted : Schema.snapshotProblems data = []) :
    (Snapshot.IsLegible s.depth data → ∃ t, Session.loadSnapshot data s = .ok true t) ∧
    (¬Snapshot.IsLegible s.depth data →
      ∃ fault, Session.loadSnapshot data s = .error fault s ∧ (fault.StopsReading ∨ fault = .endless)) := by
  obtain ⟨low, high, range⟩ := regular.zoomRange
  constructor
  · intro legible
    obtain ⟨loaded, read⟩ :=
      (Snapshot.read_of_legible regular.store.canvasW regular.store.canvasH regular.least accepted).1 legible
    obtain ⟨t, ran, -⟩ := loadSnapshot_loads read range (Snapshot.isReal_zoom read).fits
    exact ⟨t, ran⟩
  · intro illegible
    obtain ⟨fault, failed, cause⟩ :=
      (Snapshot.read_of_legible regular.store.canvasW regular.store.canvasH regular.least accepted).2 illegible
    refine ⟨fault, loadSnapshot_fails failed ?_, cause⟩
    rcases cause with stops | rfl
    · exact Fault.StopsReading.isUsable stops
    · rfl

end

/-- A file is read as deep as the session may nest calls. -/
theorem load_eq (file : SaveFile) (s : Session Number) : load file s = loadFrom (file.read s.depth) s := rfl

/-- **What loading a file does.** Take any session that commands lead to and any bytes in the file. Bytes
that are no UTF-8 make the load fail, and so does a text with an integer of too many digits or with too
many lists and objects inside one another. Any other text that is no document is refused, a null counts
as nothing, and another document is refused, loaded or fails as the schema and its numbers say. -/
theorem load_of_runAll (canvas : Value Number × Value Number) (leastSide duplicateOffset : Value Number)
    (zoom low high : Number) (defaults : Project Number) (idSupply : Nat → Text) (depth : Nat)
    (canvasW : canvas.1.IsMeasure) (canvasH : canvas.2.IsMeasure) (leastMeasure : leastSide.IsMeasure)
    (typed : defaults.IsTyped) (commands : List (Command Number)) (bytes : List UInt8) :
    let s := runAll commands
      (new canvas leastSide duplicateOffset zoom (.arr [.num low, .num high]) defaults idSupply depth)
    ((∀ text, Text.encode? text ≠ some bytes) → load (some bytes) s = .error .undecodable s) ∧
    ∀ text, Text.encode? text = some bytes →
      (Json.read text depth = .error .malformed → load (some bytes) s = .ok false s.refused) ∧
      (∀ digits, Json.read text depth = .error (.numeralTooLong digits) →
        load (some bytes) s = .error (.numeralTooLong digits) s) ∧
      (Json.read text depth = .error .tooDeep → load (some bytes) s = .error .tooDeep s) ∧
      (Json.read text depth = .ok .null → load (some bytes) s = .ok false s.unsaved) ∧
      ∀ data, Json.read text depth = .ok data → data ≠ .null →
        (Schema.snapshotProblems data ≠ [] → load (some bytes) s = .ok false s.refused) ∧
        (Schema.snapshotProblems data = [] → Snapshot.IsLegible depth data → ∃ t, load (some bytes) s = .ok true t) ∧
        (Schema.snapshotProblems data = [] → ¬Snapshot.IsLegible depth data →
          ∃ fault, load (some bytes) s = .error fault s ∧ (fault.StopsReading ∨ fault = .endless)) := by
  intro s
  have regular : s.IsRegular := (isRegular_new canvasW canvasH leastMeasure typed).runAll commands
  have sameDepth : s.depth = depth := depth_runAll ..
  clear_value s
  subst sameDepth
  simp only [load_eq]
  refine ⟨fun none => ?_, fun text encoded => ?_⟩
  · rw [SaveFile.read_of_undecodable none]
    exact loadFrom_error rfl
  rw [SaveFile.read_of_encode encoded]
  refine ⟨fun failed => ?_, fun digits failed => ?_, fun failed => ?_, fun isNull => ?_, fun data isRead notNull => ?_⟩
  · rw [SaveFile.readText_of_error failed]
    exact loadFrom_unreadable
  · rw [SaveFile.readText_of_error failed]
    exact loadFrom_error rfl
  · rw [SaveFile.readText_of_error failed]
    exact loadFrom_error rfl
  · rw [SaveFile.readText_of_ok isNull]
    exact loadFrom_null
  · have isSnapshot : loadFrom ((SaveFile.readText text s.depth).map some) s = loadSnapshot data s := by
      rw [SaveFile.readText_of_ok isRead]
      exact loadFrom_some notNull
    rw [isSnapshot]
    exact ⟨loadSnapshot_refuses, fun accepted => (regular.loadSnapshot_of_accepted accepted).1,
      fun accepted => (regular.loadSnapshot_of_accepted accepted).2⟩

/-- A file that ends after its first brace is refused. -/
theorem load_of_runAll_truncated : load (some [0x7B]) labelled = .ok false labelled.refused := by
  have fits : ∀ n : Int, n.natAbs ≤ 2 ^ 53 → (Value.int n : Value Number).IsMeasure := fun _ small =>
    Value.isMeasure_num.mpr (Lawful.fits_ofInt small)
  obtain ⟨-, encoded⟩ := load_of_runAll (.int 980, .int 620) (.int leastSide) (.int 12) Arith.one
    (Arith.ofDecimal 5 1) (Arith.ofDecimal 20 1) {} (fun taken => ("n" : Text) ++ Text.ofNat taken)
    usualDepth (fits 980 (by decide)) (fits 620 (by decide)) (fits leastSide (by decide))
    ⟨⟨_, rfl⟩, ⟨_, rfl⟩, ⟨_, rfl⟩, ⟨_, rfl⟩⟩ [.newProject, .createNode (.str "TextLabel")] [0x7B]
  exact (encoded [0x7B] (by decide)).1 rfl

/-- Loading a file that is no UTF-8 fails. -/
theorem load_raises : load (some [0xFF]) labelled = .error .undecodable labelled := by
  have unread : Text.decode? [0xFF] = none := by
    simp [Text.decode?, Text.decodeBytes, Text.sequenceOf]
  rw [load_eq, SaveFile.read_of_undecodable (Text.decode?_eq_none.mp unread)]
  exact loadFrom_error rfl

end Session

end LayoutDesigner
