import LayoutDesigner.Node.Attribute
import LayoutDesigner.Script.Highlight
import LayoutDesigner.Shell.Form
import LayoutDesigner.Shell.Menu
import LayoutDesigner.Shell.PropertyPanel.Outline
import LayoutDesigner.Snapshot.SaveFile
import LayoutDesigner.Startup
import LayoutDesigner.Proofs.Dragging
import LayoutDesigner.Proofs.Confined
import LayoutDesigner.Proofs.Reload
import LayoutDesigner.Proofs.Restore
import LayoutDesigner.Proofs.Sides
import LayoutDesigner.Proofs.FailedSave
import LayoutDesigner.Proofs.SavedView
import LayoutDesigner.Proofs.SettingsFile
import LayoutDesigner.Proofs.InsertionOrder
import LayoutDesigner.Proofs.Origin
import LayoutDesigner.Proofs.Standing
import LayoutDesigner.Proofs.Ranges
import LayoutDesigner.Proofs.Addressed
import LayoutDesigner.Proofs.Drift
import LayoutDesigner.Proofs.Resized
import LayoutDesigner.Proofs.WrittenLayer
import LayoutDesigner.Proofs.Latest
import LayoutDesigner.Proofs.Removal
import LayoutDesigner.Proofs.LevelOrder
import LayoutDesigner.Proofs.DropTarget
import LayoutDesigner.Proofs.ParentChoices
import LayoutDesigner.Proofs.Lifted
import LayoutDesigner.Proofs.Reread
import LayoutDesigner.Proofs.Literal
import LayoutDesigner.Proofs.EditedProperty
import LayoutDesigner.Proofs.ExplorerTree
import LayoutDesigner.Proofs.Mirrored
import LayoutDesigner.Proofs.Lenient
import LayoutDesigner.Proofs.Highlighted
import LayoutDesigner.Proofs.HandedOut
import LayoutDesigner.Proofs.Ascent
