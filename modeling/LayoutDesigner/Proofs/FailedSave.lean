import LayoutDesigner.Proofs.LoadFile
import LayoutDesigner.Proofs.Unfinished

/-!
# Saves that fail

A save empties the file before it writes, so a save that fails leaves the beginning of the new document
and nothing of what was saved before. Unless nothing but the last line feed is missing, this beginning
loads no design.
-/

namespace LayoutDesigner

namespace SaveFile

variable {full fault : Fault} {room : Nat} {pieces : List Text} {piece text : Text} {start bytes : List UInt8}
  {file file' : SaveFile} {v : Document}

/-- The bytes of the pieces before the first that cannot be encoded. -/
def encoded : List Text → List UInt8
  | [] => []
  | piece :: rest =>
    match piece.encode? with
    | none => []
    | some bytes => bytes ++ encoded rest

/-- Write pieces to a device that has room for so many bytes and then fails. -/
def appendWithin (full : Fault) (room : Nat) : List Text → Edit SaveFile Unit
  | [] => pure ()
  | piece :: rest =>
    match piece.encode? with
    | none => throw .unencodable
    | some bytes => do
      modify fun file => some (file.getD [] ++ bytes.take room)
      if room < bytes.length then throw full
      appendWithin full (room - bytes.length) rest

/-- Write a document to a device that has room for so many bytes and then fails. -/
def writeWithin (full : Fault) (room : Nat) (v : Document) : Edit SaveFile Unit := do
  set (some [] : SaveFile)
  appendWithin full room (Json.filePieces v)

/-- Where there is room for all that can be encoded, the device does not fail. -/
theorem appendWithin_eq_append (fits : (encoded pieces).length ≤ room) :
    appendWithin full room pieces = append pieces := by
  induction pieces generalizing room with
  | nil => rfl
  | cons piece rest ih =>
      rw [appendWithin, append]
      cases isBytes : piece.encode? with
      | none => rfl
      | some bytes =>
          have total : bytes.length + (encoded rest).length ≤ room := by
            simpa [encoded, isBytes] using fits
          simp only [List.take_of_length_le (show bytes.length ≤ room by omega), if_neg (show ¬room < bytes.length by omega),
            ih (show (encoded rest).length ≤ room - bytes.length by omega)]

/-- A device with room for all that can be encoded takes what a file would. -/
theorem writeWithin_eq_write (fits : (encoded (Json.filePieces v)).length ≤ room) :
    writeWithin full room v = write v := by
  rw [writeWithin, write, appendWithin_eq_append fits]

/-- What a device holds after writing: as much as there was room for, of what could be encoded. -/
theorem ends_appendWithin : (appendWithin full room pieces).Ends (some start)
    (fun _ file => file = some (start ++ (encoded pieces).take room))
    fun _ file => file = some (start ++ (encoded pieces).take room) ∧
      (room < (encoded pieces).length ∨ ∃ piece ∈ pieces, piece.encode? = none) := by
  induction pieces generalizing room start with
  | nil => simp [appendWithin, encoded]
  | cons piece rest ih =>
      rw [appendWithin, encoded]
      cases isBytes : piece.encode? with
      | none => simp [isBytes]
      | some bytes =>
          simp only [Edit.ends_bind, Edit.ends_modify, Option.getD_some]
          split
          · next short =>
              have taken : (bytes ++ encoded rest).take room = bytes.take room :=
                List.take_append_of_le_length (by omega)
              rw [Edit.ends_bind, Edit.ends_throw, taken]
              exact ⟨rfl, .inl (by rw [List.length_append]; omega)⟩
          · next enough =>
              have taken : start ++ bytes.take room ++ (encoded rest).take (room - bytes.length) =
                  start ++ (bytes ++ encoded rest).take room := by
                rw [List.append_assoc, List.take_append]
              refine ih.mono (fun _ _ holds => holds.trans (congrArg some taken)) ?_
              rintro _ _ ⟨holds, cause⟩
              refine ⟨holds.trans (congrArg some taken), ?_⟩
              obtain short | ⟨bad, listed, isBad⟩ := cause
              · exact .inl (by rw [List.length_append]; omega)
              · exact .inr ⟨bad, List.mem_cons_of_mem _ listed, isBad⟩

/-- A device holds what there was room for, however the writing of a document ends. -/
theorem ends_writeWithin : (writeWithin full room v).Ends file
    (fun _ file => file = some ((encoded (Json.filePieces v)).take room))
    fun _ file => file = some ((encoded (Json.filePieces v)).take room) ∧
      (room < (encoded (Json.filePieces v)).length ∨ ∃ piece ∈ Json.filePieces v, piece.encode? = none) := by
  rw [writeWithin, Edit.ends_bind, Edit.ends_set]
  exact ends_appendWithin

/-- Pieces are appended until one cannot be encoded. -/
theorem append_eq : append pieces (some start) =
    if ∃ piece ∈ pieces, piece.encode? = none then .error .unencodable (some (start ++ encoded pieces))
    else .ok () (some (start ++ encoded pieces)) := by
  induction pieces generalizing start with
  | nil =>
      rw [if_neg (by simp), encoded, List.append_nil]
      rfl
  | cons piece rest ih =>
      rw [append, encoded]
      simp only [List.exists_mem_cons_iff]
      cases isBytes : piece.encode? with
      | none =>
          rw [if_pos (.inl rfl), List.append_nil]
          rfl
      | some bytes =>
          simp only [reduceCtorEq, false_or, ← List.append_assoc]
          exact ih

/-- A document whose pieces can all be encoded is written in full. -/
theorem write_of_encodable (encodable : ∀ piece ∈ Json.filePieces v, piece.encode? ≠ none) :
    write v file = .ok () (some (encoded (Json.filePieces v))) := by
  have unencodable : ¬∃ piece ∈ Json.filePieces v, piece.encode? = none := by simpa using encodable
  exact append_eq.trans (if_neg unencodable)

/-- A piece that cannot be encoded makes the writing fail. -/
theorem write_of_unencodable (unencodable : ∃ piece ∈ Json.filePieces v, piece.encode? = none) :
    write v file = .error .unencodable (some (encoded (Json.filePieces v))) :=
  append_eq.trans (if_pos unencodable)

/-- Either all pieces are encoded, or those before one that cannot be encoded. -/
theorem encoded_cases (pieces : List Text) : Text.encode? pieces.flatten = some (encoded pieces) ∨
    ∃ before bad after, pieces = before ++ bad :: after ∧ Text.encode? bad = none ∧
      Text.encode? before.flatten = some (encoded pieces) := by
  induction pieces with
  | nil => exact .inl rfl
  | cons piece rest ih =>
      rw [encoded]
      cases isBytes : piece.encode? with
      | none => exact .inr ⟨[], piece, rest, rfl, isBytes, rfl⟩
      | some bytes =>
          obtain all | ⟨before, bad, after, rfl, isBad, encodedBefore⟩ := ih
          · exact .inl (Text.encode?_append isBytes all)
          · exact .inr ⟨piece :: before, bad, after, rfl, isBad, Text.encode?_append isBytes encodedBefore⟩

/-- Where a piece of a document cannot be encoded, more than the last line feed is missing. -/
theorem length_unencoded {before after : List Text} {bad : Text} (same : Json.filePieces v = before ++ bad :: after)
    (isBad : Text.encode? bad = none) : 1 < (bad ++ after.flatten).length := by
  have notEmpty : bad ≠ [] := by rintro rfl; cases isBad
  have more : after.flatten ≠ [] := by
    obtain rfl | ⟨others, last, rfl⟩ := List.eq_nil_or_concat after
    · have lineFeed : bad = "\n" := by
        have := List.append_inj_right' same rfl
        simpa using this.symm
      rw [lineFeed] at isBad
      cases isBad
    · have lineFeed : last = "\n" := by
        rw [Json.filePieces, List.concat_eq_append, ← List.cons_append, ← List.append_assoc] at same
        simpa using (List.append_inj_right' same rfl).symm
      rw [List.concat_eq_append, List.flatten_append, List.flatten_singleton, lineFeed]
      exact List.append_ne_nil_of_right_ne_nil _ (List.cons_ne_nil _ _)
  have := List.length_pos_iff.mpr notEmpty
  have := List.length_pos_iff.mpr more
  rw [List.length_append]
  omega

/-- Joined pieces cannot be encoded if one of them cannot. -/
theorem encode?_flatten {bad : Text} (listed : bad ∈ pieces) (isBad : Text.encode? bad = none) :
    Text.encode? pieces.flatten = none := by
  rw [Text.encode?_eq_none] at isBad ⊢
  obtain ⟨c, member, surrogate⟩ := List.any_eq_true.mp isBad
  exact List.any_eq_true.mpr ⟨c, List.mem_flatten.mpr ⟨bad, listed, member⟩, surrogate⟩

/-- The text of a file is that of the document and a line feed. -/
theorem fileText_eq (v : Document) : Json.fileText v = (Json.pieces 0 v).flatten ++ [CodePoint.ofChar '\n'] := by
  rw [Json.fileText, Json.filePieces, List.flatten_append]
  rfl

/-- The text of what a failing device took is the beginning of the document's text. Either nothing but the
last line feed is missing, or more than that. -/
theorem unfinished_of_failed
    (cause : room < (encoded (Json.filePieces v)).length ∨ ∃ piece ∈ Json.filePieces v, piece.encode? = none)
    (isText : Text.encode? text = some ((encoded (Json.filePieces v)).take room)) :
    Text.encode? (Json.fileText v) = some ((encoded (Json.filePieces v)).take room ++ [0x0A]) ∨
      ∃ rest, text ++ rest = Json.fileText v ∧ 1 < rest.length := by
  have cut := (List.take_append_drop room (encoded (Json.filePieces v))).symm
  obtain all | ⟨before, bad, after, same, isBad, encodedBefore⟩ := encoded_cases (Json.filePieces v)
  · have short : room < (encoded (Json.filePieces v)).length := cause.resolve_right (by
      rintro ⟨bad, listed, isBad⟩
      rw [encode?_flatten listed isBad] at all
      cases all)
    obtain ⟨rest, whole⟩ := Text.exists_append_of_encode isText (cut ▸ all)
    change text ++ rest = Json.fileText v at whole
    match rest with
    | [] =>
        rw [List.append_nil] at whole
        have full := Option.some.inj (isText.symm.trans ((congrArg Text.encode? whole).trans all))
        have := congrArg List.length full
        rw [List.length_take] at this
        omega
    | [c] =>
        rw [fileText_eq] at whole
        obtain rfl : c = CodePoint.ofChar '\n' := by simpa using List.append_inj_right' whole rfl
        rw [fileText_eq, ← whole]
        exact .inl (Text.encode?_append isText rfl)
    | c :: d :: rest => exact .inr ⟨_, whole, by simp⟩
  · obtain ⟨rest, whole⟩ := Text.exists_append_of_encode isText (cut ▸ encodedBefore)
    refine .inr ⟨rest ++ (bad ++ after.flatten), ?_, ?_⟩
    · rw [← List.append_assoc, whole, Json.fileText, same, List.flatten_append, List.flatten_cons]
    · have := length_unencoded same isBad
      rw [List.length_append]
      omega

end SaveFile

namespace Session

/-- A load of the file is refused, or it fails and changes nothing. -/
def LoadsNothing (file : SaveFile) (s : Session Number) : Prop :=
  (load file).Ends s (fun answer t => answer = false ∧ t = s.refused) fun _ t => t = s

variable {bytes : List UInt8} {s : Session Number}

/-- Bytes that are no UTF-8 load nothing. -/
theorem loadsNothing_of_undecodable (none : ∀ text, Text.encode? text ≠ some bytes) :
    LoadsNothing (some bytes) s := by
  rw [LoadsNothing, Edit.Ends, load_eq, SaveFile.read_of_undecodable none, loadFrom_error rfl]

/-- A text that is no document loads nothing. -/
theorem loadsNothing_of_unread {text : Text} (encoded : Text.encode? text = some bytes)
    (unread : ∀ v, Json.read text s.depth ≠ .ok v) : LoadsNothing (some bytes) s := by
  rw [LoadsNothing, Edit.Ends, load_eq, SaveFile.read_of_encode encoded]
  cases isRead : Json.read text s.depth with
  | ok v => exact absurd isRead (unread v)
  | error failure =>
      rw [SaveFile.readText_of_error isRead]
      cases failure with
      | malformed =>
          rw [Except.map, Json.Failure.fault, loadFrom_unreadable]
          exact ⟨rfl, rfl⟩
      | numeralTooLong digits => rw [Except.map, Json.Failure.fault, loadFrom_error rfl]
      | tooDeep => rw [Except.map, Json.Failure.fault, loadFrom_error rfl]

/-- **A failed save keeps nothing.** Where writing a design to a file fails, at a text that cannot be encoded
or because the device takes no more, the file holds the beginning of the new document, whatever it held
before. Unless nothing but the last line feed is missing, loading it into any session loads nothing. -/
theorem load_of_failed_write (s : Session Number) (file file' : SaveFile) (fault : Fault)
    (failed : SaveFile.write s.snapshot file = .error fault file' ∨
      ∃ full room, SaveFile.writeWithin full room s.snapshot file = .error fault file') :
    ∃ written missing, file' = some written ∧ written ++ missing = SaveFile.encoded (Json.filePieces s.snapshot) ∧
      (Text.encode? (Json.fileText s.snapshot) = some (written ++ [0x0A]) ∨ ∀ u, LoadsNothing file' u) := by
  obtain ⟨full, room, failed⟩ : ∃ full room, SaveFile.writeWithin full room s.snapshot file = .error fault file' := by
    obtain failed | failed := failed
    · exact ⟨fault, _, (SaveFile.writeWithin_eq_write (Nat.le_refl _)).symm ▸ failed⟩
    · exact failed
  obtain ⟨rfl, cause⟩ := SaveFile.ends_writeWithin.failure failed
  refine ⟨_, _, rfl, List.take_append_drop room _, ?_⟩
  by_cases decodable : ∃ text, Text.encode? text = some ((SaveFile.encoded (Json.filePieces s.snapshot)).take room)
  · obtain ⟨text, isText⟩ := decodable
    obtain complete | ⟨rest, isPart, unfinished⟩ := SaveFile.unfinished_of_failed cause isText
    · exact .inl complete
    · exact .inr fun u => loadsNothing_of_unread isText (Json.read_of_unfinished isPart unfinished u.depth)
  · exact .inr fun u => loadsNothing_of_undecodable fun text isText => decodable ⟨text, isText⟩

/-- The session with a label after its screen got a name that is a lone surrogate. -/
def misnamed : Session Number :=
  runAll [.setProjectField (.str "gui_name") (.str [CodePoint.ofNat 0xD800])] labelled

/-- Writing the misnamed session fails at the name. -/
theorem write_misnamed (file : SaveFile) : SaveFile.write misnamed.snapshot file =
    .error .unencodable (some (SaveFile.encoded (Json.filePieces misnamed.snapshot))) :=
  SaveFile.write_of_unencodable (by decide +kernel)

/-- A screen's name that cannot be encoded makes the save fail. -/
theorem load_of_failed_write_misnamed : ∃ file' written missing,
    SaveFile.write misnamed.snapshot none = .error .unencodable file' ∧ file' = some written ∧
      written ++ missing = SaveFile.encoded (Json.filePieces misnamed.snapshot) ∧
      (Text.encode? (Json.fileText misnamed.snapshot) = some (written ++ [0x0A]) ∨ ∀ u, LoadsNothing file' u) := by
  obtain ⟨written, missing, kept⟩ :=
    load_of_failed_write misnamed none _ .unencodable (.inl (write_misnamed none))
  exact ⟨_, written, missing, write_misnamed none, kept⟩

/-- What was saved before is lost, and the next load is refused. -/
theorem write_loses : ∃ saved left, SaveFile.write labelled.snapshot none = .ok () (some saved) ∧
    SaveFile.write misnamed.snapshot (some saved) = .error .unencodable (some left) ∧ left ≠ saved ∧
      load (some left) misnamed = .ok false misnamed.refused := by
  have encodable : ∀ piece ∈ Json.filePieces labelled.snapshot, piece.encode? ≠ none := by decide +kernel
  -- the beginning ends before the screen's name
  have isText : Text.encode? ((Json.filePieces misnamed.snapshot).takeWhile (·.encode?.isSome)).flatten =
      some (SaveFile.encoded (Json.filePieces misnamed.snapshot)) := by decide +kernel
  have malformed :
      (Json.read ((Json.filePieces misnamed.snapshot).takeWhile (·.encode?.isSome)).flatten misnamed.depth).map
        (fun _ => ()) = .error .malformed := by decide +kernel
  refine ⟨_, _, SaveFile.write_of_encodable encodable, write_misnamed _, by decide +kernel, ?_⟩
  rw [load_eq, SaveFile.read_of_encode isText]
  cases isRead : Json.read ((Json.filePieces misnamed.snapshot).takeWhile (·.encode?.isSome)).flatten
      misnamed.depth with
  | ok _ => rw [isRead] at malformed; cases malformed
  | error _ =>
      rw [isRead] at malformed
      obtain rfl := Except.error.inj malformed
      rw [SaveFile.readText_of_error isRead, Except.map, Json.Failure.fault, loadFrom_unreadable]

end Session

end LayoutDesigner
