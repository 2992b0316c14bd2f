import RetainedUi.Layout.Solve
import RetainedUi.Raster.Frame

/-!
# Painting a layout

Entries are painted in order, so that children cover their parents: leaves filled a little inside
their box, containers as an outline along it.
-/

namespace RetainedUi

namespace Color

/-- What a frame shows where nothing is painted. -/
def background : Color := ⟨24, 24, 24⟩

def leafFill : Color := ⟨66, 135, 245⟩

def containerOutline : Color := ⟨160, 160, 160⟩

end Color

/-- How far inside its box a leaf is filled. -/
def leafInset : Int := 4

/-- The thickness of a container's outline. -/
def outlineWidth : Int := 2

namespace Frame

def paintEntry (f : Frame) (e : LayoutEntry) : Frame :=
  if e.leaf then f.fill (e.rect.inset leafInset) .leafFill
  else f.outline e.rect outlineWidth .containerOutline

/-- Paints every entry of a layout. -/
def paint (f : Frame) (l : Layout) : Frame := l.entries.foldl paintEntry f

end Frame

end RetainedUi
