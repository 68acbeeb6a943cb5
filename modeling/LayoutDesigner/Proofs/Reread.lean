import LayoutDesigner.Proofs.Extended
import LayoutDesigner.Proofs.Mended

/-!
# Records read again

Reading a record fills in what is missing and mends what is out of range. What it fills in is finite,
so a node that was read has everything in order, and its own record gives the very same node.
-/

namespace LayoutDesigner.Node

open Arith (Faithful)

variable {α : Type} [Arith α] [Faithful α] {base n : Node α} {d : List (Text × Value α)}
  {record : Value α}

/-- The places and sides of a new node are integers. -/
theorem isFinite_of_create {kind : Kind} {id parent : Text} {size : Value α × Value α} {z : Int}
    (created : create kind id parent size z = .ok n) : n.IsFinite := by
  obtain ⟨-, x, y, w, h, isX, isY, isW, isH⟩ := Store.create_places created
  exact ⟨isX ▸ Faithful.isFinite_ofInt x, isY ▸ Faithful.isFinite_ofInt y, isW ▸ Faithful.isFinite_ofInt w,
    isH ▸ Faithful.isFinite_ofInt h⟩

/-- What is read is finite: a record's own measure where it is, and else that of a new node. -/
theorem IsReadBeside.isFinite (read : IsReadBeside depth base d n) : n.IsFinite :=
  have finite := isFinite_of_create read.created
  ⟨Value.isFinite_toNumber finite.x read.xOr, Value.isFinite_toNumber finite.y read.yOr,
    Value.isFinite_toNumber finite.w read.wOr, Value.isFinite_toNumber finite.h read.hOr⟩

/-- **Reading a record mends it once and for all.** Whatever a record holds, members of any type, any extensions
and keys that are not known, the node that it gives can be written, and is read back from its own
record, with every field as it was. -/
theorem ofRecord_toRecord_of_ofRecord (read : ofRecord record depth = .ok n) :
    n.needCopies depth = .ok () ∧ ofRecord n.toRecord depth = .ok n := by
  obtain ⟨base, d, -, read⟩ := isReadBeside_of_ofRecord read
  have copyable : n.IsCopyable depth := by
    intro e listed
    obtain ⟨_, isExtension⟩ := exists_of_readExtensions read.extensions e listed
    exact (Extension.checked_of_ofRecord isExtension).2
  obtain ⟨m, readBack, -, same⟩ := ofRecord_toMembers (IsMended.of_read read.toIsRead) read.parent read.layer copyable
  rw [needCopies_eq, toRecord, readBack, same read.isFinite]
  exact ⟨if_pos copyable, rfl⟩

/-- A record in which little is in order: a place that is no number, a side without bound, an anchor out of
its range, a layer below the lowest, a colour of one channel, no parent, a key that is not known, and
among the extensions one without a type. -/
def unkempt : Value Extended :=
  .obj [("id", .str "a"), ("type", .str "TextLabel"), ("name", .num (.finite 7)), ("parentId", .str ""), ("x", .num .nan),
    ("y", .str "3.5"), ("w", .num (.infinite false)), ("h", .bool true), ("anchorX", .num (.finite 4)),
    ("anchorY", .str "-1"), ("zIndex", .num (.finite (-5 / 2))), ("bgColor", .obj [("r", .num (.finite 300))]),
    ("border", .str "no"), ("text", .num .nan), ("font", .bool false), ("locked", .bool true),
    ("canvasSize", .arr []), ("uiObjects", .arr [.obj [("id", .str "c")],
      .obj [("type", .str "UICorner"), ("props", .obj [("radius", .num (.infinite true))])]])]

/-- The node that the record gives. -/
def kempt : Node Extended :=
  { id := "a", kind := .textLabel, name := "7", parent := root, x := .finite 490, y := .finite (7 / 2),
    w := .finite 300, h := .finite 1, anchorX := .finite 1, anchorY := .finite 0, z := 1, bgColor := ⟨255, 30, 30⟩,
    bgAlpha := .finite 1, border := false, text := "nan", textColor := Rgb.white, textScaled := true,
    font := defaultFont, image := [], canvasW := 0, canvasH := 0, scrollbarThickness := 8,
    extensions := [{ id := [], kind := .corner, props := [("radius", .num (.infinite true))] }] }

/-- The record that is not in order gives the node that is. -/
theorem ofRecord_unkempt : ofRecord unkempt = .ok kempt := by
  with_unfolding_all rfl

/-- The record of that node is another one, and gives the same node. -/
theorem ofRecord_toRecord_unkempt : ofRecord unkempt = .ok kempt ∧ ofRecord kempt.toRecord = .ok kempt :=
  ⟨ofRecord_unkempt, (ofRecord_toRecord_of_ofRecord ofRecord_unkempt).2⟩

end LayoutDesigner.Node
