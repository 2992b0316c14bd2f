import RetainedUi.Layout.Boxes

/-!
# Boxes by axis

A box is known by its origin and its extent along both axes, and each of the ways to place a child
treats the two in one of two manners.
-/

namespace RetainedUi

namespace Axis

/-- The padding before what a box holds. -/
def leading (p : Padding) : Axis → Int
  | vertical => p.top.toNat
  | horizontal => p.left.toNat

/-- The padding behind what a box holds. -/
def trailing (p : Padding) : Axis → Int
  | vertical => p.bottom.toNat
  | horizontal => p.right.toNat

theorem forall_iff {P : Axis → Prop} (axis : Axis) : (∀ x, P x) ↔ P axis ∧ P axis.across := by
  constructor
  · exact fun h => ⟨h axis, h axis.across⟩
  · rintro ⟨h, h'⟩ x
    cases axis <;> cases x <;> assumption

theorem ext_rect {r r' : Rect} (horigin : ∀ axis : Axis, axis.origin r = axis.origin r')
    (hextent : ∀ axis : Axis, axis.extent r = axis.extent r') : r = r' := by
  cases r
  cases r'
  cases horigin horizontal
  cases horigin vertical
  cases hextent horizontal
  cases hextent vertical
  rfl

theorem leading_bounds (p : Padding) (axis : Axis) : 0 ≤ axis.leading p ∧ axis.leading p ≤ 255 := by
  have htop := p.top.toNat_lt
  have hleft := p.left.toNat_lt
  cases axis <;> simp only [leading] <;> omega

theorem trailing_bounds (p : Padding) (axis : Axis) : 0 ≤ axis.trailing p ∧ axis.trailing p ≤ 255 := by
  have hbottom := p.bottom.toNat_lt
  have hright := p.right.toNat_lt
  cases axis <;> simp only [trailing] <;> omega

end Axis

namespace Boxes

variable (a : Arithmetic) (axis : Axis) (p : Padding) (r area : Rect) (align : Align) (cursor : Int)
  (child : SizeHint)

/-! ## The content of a box -/

@[simp]
theorem origin_content : axis.origin (content a p r) = a.add (axis.origin r) (axis.leading p) := by
  cases axis <;> rfl

@[simp]
theorem extent_content : axis.extent (content a p r) =
    max (a.sub (a.sub (axis.extent r) (axis.leading p)) (axis.trailing p)) 0 := by
  cases axis <;> rfl

/-! ## Children -/

@[simp]
theorem origin_stacked : axis.origin (stacked a axis area align cursor child) = cursor := by
  cases axis <;> rfl

@[simp]
theorem extent_stacked : axis.extent (stacked a axis area align cursor child) =
    (axis.hint child).getD axis.defaultExtent := by
  cases axis <;> rfl

@[simp]
theorem origin_across_stacked : axis.across.origin (stacked a axis area align cursor child) =
    a.add (axis.across.origin area) (align.offset a (axis.across.extent area)
      ((axis.across.hint child).getD (axis.across.extent area))) := by
  cases axis <;> rfl

@[simp]
theorem extent_across_stacked : axis.across.extent (stacked a axis area align cursor child) =
    (axis.across.hint child).getD (axis.across.extent area) := by
  cases axis <;> rfl

@[simp]
theorem origin_centered : axis.origin (centered a area child) =
    a.add (axis.origin area) ((a.sub (axis.extent area)
      ((axis.hint child).getD ((axis.extent area).tdiv 2))).tdiv 2) := by
  cases axis <;> rfl

@[simp]
theorem extent_centered : axis.extent (centered a area child) =
    (axis.hint child).getD ((axis.extent area).tdiv 2) := by
  cases axis <;> rfl

@[simp]
theorem origin_within : axis.origin (within r child) = axis.origin r := by
  cases axis <;> rfl

@[simp]
theorem extent_within : axis.extent (within r child) = (axis.hint child).getD (axis.extent r) := by
  cases axis <;> rfl

end Boxes

end RetainedUi
