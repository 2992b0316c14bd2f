import RetainedUi.Main
import RetainedUi.Proofs.Ancestry
import RetainedUi.Proofs.Store.View
import RetainedUi.Proofs.Store.Arena
import RetainedUi.Proofs.Store.Links
import RetainedUi.Proofs.Store.Trees
import RetainedUi.Proofs.Forest.Basic
import RetainedUi.Proofs.Forest.View
import RetainedUi.Proofs.Edit.Run
import RetainedUi.Proofs.Edit.Refinement
import RetainedUi.Proofs.Edit.Reachable
import RetainedUi.Proofs.Layout.Forest
import RetainedUi.Proofs.Edit.Refusal
import RetainedUi.Proofs.Edit.SameForest
import RetainedUi.Proofs.Edit.Append
import RetainedUi.Proofs.Wire.Word
import RetainedUi.Proofs.Wire.Grammar
import RetainedUi.Proofs.Wire.Decoding
import RetainedUi.Proofs.Wire.Cutting
import RetainedUi.Proofs.Wire.Cursor
import RetainedUi.Proofs.Wire.Iteration
import RetainedUi.Proofs.Wire.Drafts
import RetainedUi.Proofs.Session.Patch
import RetainedUi.Proofs.Session.Batches
import RetainedUi.Proofs.Descent
import RetainedUi.Proofs.Forest.Ids
import RetainedUi.Proofs.Forest.Effects
import RetainedUi.Proofs.Layout.Preorder
import RetainedUi.Proofs.Layout.Axes
import RetainedUi.Proofs.Layout.Lockstep
import RetainedUi.Proofs.Layout.Saturation
import RetainedUi.Proofs.Layout.Stacking
import RetainedUi.Proofs.Layout.Transpose
import RetainedUi.Proofs.Layout.Locality
import RetainedUi.Proofs.Edit.History
import RetainedUi.Proofs.Edit.Handles
import RetainedUi.Proofs.Raster.Fill
import RetainedUi.Proofs.Raster.Frame
import RetainedUi.Proofs.Raster.Painter
import RetainedUi.Proofs.Session.Life
import RetainedUi.Proofs.Session.Protocol
import RetainedUi.Proofs.Session.Answers
import RetainedUi.Proofs.Session.Frames
import RetainedUi.Proofs.Session.Queue
import RetainedUi.Proofs.Session.Counters
import RetainedUi.Proofs.Edit.Kept
import RetainedUi.Proofs.Edit.Remove
import RetainedUi.Proofs.Edit.Replace
import RetainedUi.Proofs.Edit.Delete
import RetainedUi.Proofs.Edit.Repeat
import RetainedUi.Proofs.Text.Utf8
import RetainedUi.Proofs.Edit.Settings
import RetainedUi.Proofs.Raster.Buffer
import RetainedUi.Proofs.Raster.Outline
import RetainedUi.Proofs.Session.Settings
import RetainedUi.Proofs.Command.Overrides
import RetainedUi.Proofs.Command.Presented
