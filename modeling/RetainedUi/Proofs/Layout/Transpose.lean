import RetainedUi.Proofs.Layout.Axes
import RetainedUi.Proofs.Layout.Lockstep

/-!
# Transposed layouts

Columns and rows differ in the direction alone, and in the length of a child without an explicit one.
Exchanging the two axes throughout a store where no such child is stacked transposes its layout.
-/

namespace RetainedUi

/-! ## Exchanging the axes -/

/-- A column for a row, and the other way round. -/
def NodeKind.transpose : NodeKind → NodeKind
  | .column => .row
  | .row => .column
  | kind => kind

def Padding.transpose (p : Padding) : Padding :=
  { left := p.top, top := p.left, right := p.bottom, bottom := p.right }

def Props.transpose (p : Props) : Props :=
  { p with padding := p.padding.transpose, width := p.height, height := p.width }

def SizeHint.transpose (c : SizeHint) : SizeHint := ⟨c.height, c.width⟩

def Rect.transpose (r : Rect) : Rect := ⟨r.y, r.x, r.h, r.w⟩

def Node.transpose (n : Node) : Node :=
  { n with kind := n.kind.transpose, props := n.props.transpose }

/-- The store with the axes of every node exchanged; ids and links stay. -/
def Store.transpose (s : Store) : Store :=
  { s with slots := s.slots.map fun slot => { slot with node := slot.node.map Node.transpose } }

def LayoutEntry.transpose (e : LayoutEntry) : LayoutEntry :=
  { e with kind := e.kind.transpose, rect := e.rect.transpose }

def Layout.transpose (l : Layout) : Layout := { l with entries := l.entries.map LayoutEntry.transpose }

theorem NodeKind.shown_transpose {α : Type} (children : List α) (kind : NodeKind) :
    kind.transpose.shown children = kind.shown children := by
  cases kind <;> rfl

theorem Node.entry_transpose (n : Node) (r : Rect) (depth : Nat) :
    n.transpose.entry r.transpose depth = (n.entry r depth).transpose := by
  have hleaf : n.transpose.isLeaf = n.isLeaf := by
    rw [Node.isLeaf, Node.isLeaf, Node.transpose]
    cases n.kind <;> rfl
  rw [Node.entry, hleaf]
  rfl

theorem Props.isSome_hint {length : Int32} (h : 0 < length) : (Props.hint length).isSome := by
  rw [Props.hint, if_pos h]
  rfl

/-! ## Boxes -/

namespace Boxes

variable (a : Arithmetic) {axis : Axis} (area : Rect) {align : Align} {gap cursor : Int}

theorem stacked_transpose {child : SizeHint} (hc : (axis.hint child).isSome) :
    stacked a axis.across area.transpose align cursor child.transpose =
      (stacked a axis area align cursor child).transpose := by
  obtain ⟨length, hlength⟩ := Option.isSome_iff_exists.mp hc
  obtain ⟨width, height⟩ := child
  cases axis <;> cases hlength <;> rfl

theorem stack_transpose (axis : Axis) (area : Rect) {children : List SizeHint}
    (hc : ∀ c ∈ children, (axis.hint c).isSome) :
    stack a axis.across area.transpose gap align cursor (children.map SizeHint.transpose) =
      (stack a axis area gap align cursor children).map Rect.transpose := by
  induction children generalizing cursor with
  | nil => rfl
  | cons child rest ih =>
      rw [List.forall_mem_cons] at hc
      have hextent : ∀ r : Rect, axis.across.extent r.transpose = axis.extent r := by
        cases axis <;> exact fun _ => rfl
      rw [List.map_cons, stack, stack, stacked_transpose a area hc.1, hextent, List.map_cons, ih hc.2]

theorem ofChildren_transpose {kind : NodeKind} (p : Props) (r : Rect) {children : List SizeHint}
    (hcolumn : kind = .column → ∀ c ∈ children, c.height.isSome)
    (hrow : kind = .row → ∀ c ∈ children, c.width.isSome) :
    ofChildren a kind.transpose p.transpose r.transpose (children.map SizeHint.transpose) =
      (ofChildren a kind p r children).map Rect.transpose := by
  cases kind with
  | column => exact stack_transpose a .vertical (content a p.padding r) (hcolumn rfl)
  | row => exact stack_transpose a .horizontal (content a p.padding r) (hrow rfl)
  | center | sizedBox =>
      simp only [ofChildren, NodeKind.transpose, List.map_map]
      rfl
  | text | button => rfl

end Boxes

/-! ## Layouts -/

namespace Layout

open Store

variable {s : Store}

theorem get?_transpose (s : Store) (h : Handle) : s.transpose.get? h = (s.get? h).map Node.transpose := by
  rw [Store.get?, Store.get?, Store.transpose, Array.getElem?_map]
  cases s.slots[h.index.toNat]? with
  | none => rfl
  | some slot =>
      simp only [Option.map_some]
      split <;> rfl

theorem shownNodes_transpose (s : Store) (n : Node) :
    shownNodes s.transpose n.transpose = (shownNodes s n).map fun c => (c.1, c.2.transpose) := by
  rw [shownNodes, shownNodes, List.map_filterMap, Node.transpose, NodeKind.shown_transpose]
  refine List.filterMap_congr fun h _ => ?_
  rw [get?_transpose, Option.map_map, Option.map_map]
  rfl

end Layout

namespace Store

/-- A node that is the child of a stack has an explicit length along it. -/
def SizedAlong (s : Store) (x : NodeId) : Prop :=
  ∀ n ∈ s.node? x, ∀ p ∈ s.parentOf x, ∀ m ∈ s.node? p,
    (m.kind = .column → 0 < n.props.height) ∧ (m.kind = .row → 0 < n.props.width)

instance (s : Store) (x : NodeId) : Decidable (s.SizedAlong x) :=
  inferInstanceAs (Decidable (∀ _ ∈ _, _))

end Store

namespace Layout

open Store

variable {s : Store} {a : Arithmetic}

theorem lockstep_transpose (hw : s.WellFormed) (a : Arithmetic) :
    Lockstep a a s s.transpose (fun n m => n.transpose = m) (fun r r' => r.transpose = r')
      (fun e => s.SizedAlong e.id) (fun e e' => e.transpose = e') where
  entry := by
    rintro h k n _ r _ depth - - rfl rfl -
    exact (n.entry_transpose r depth).symm
  nodes := by
    rintro h k n _ r _ depth - - rfl - -
    rw [shownNodes_transpose, List.forall₂_map_right_iff]
    exact List.forall₂_same.mpr fun _ _ => rfl
  boxes := by
    rintro h k n _ r _ depth hn - rfl rfl - hbelow
    have hsized : ∀ c ∈ shownNodes s n,
        (n.kind = .column → 0 < c.2.props.height) ∧ (n.kind = .row → 0 < c.2.props.width) :=
      fun c hc => forall_left_of_forall₂ (p := fun c => s.SizedAlong c.2.id) (fun _ _ h => h) hbelow c hc
        c.2 (hw.node?_eq (get?_of_mem_shownNodes hc)) n.id (parentOf_of_mem_shownNodes hw hn hc)
        n (hw.node?_eq hn)
    have hhints : (shownNodes s.transpose n.transpose).map (fun c => c.2.props.sizeHint) =
        ((shownNodes s n).map fun c => c.2.props.sizeHint).map SizeHint.transpose := by
      rw [shownNodes_transpose, List.map_map, List.map_map]
      rfl
    have hboxes : childBoxes a s.transpose n.transpose r.transpose =
        (childBoxes a s n r).map Rect.transpose := by
      rw [childBoxes, hhints]
      refine Boxes.ofChildren_transpose a n.props r (fun hk => ?_) fun hk => ?_
      · rw [List.forall_mem_map]
        exact fun c hc => Props.isSome_hint ((hsized c hc).1 hk)
      · rw [List.forall_mem_map]
        exact fun c hc => Props.isSome_hint ((hsized c hc).2 hk)
    rw [hboxes, List.forall₂_map_right_iff]
    exact List.forall₂_same.mpr fun _ _ => rfl

theorem rootsCorrespond_transpose (hw : s.WellFormed) :
    RootsCorrespond s s.transpose (fun n m => n.transpose = m) := by
  cases hr : s.root? with
  | none => exact Or.inl ⟨hr, hr⟩
  | some h =>
      obtain ⟨n, hn, _⟩ := hw.root?_eq_some_iff.mp hr
      exact Or.inr ⟨h, h, n, n.transpose, hr, hr, hn, by rw [get?_transpose, hn, Option.map_some], rfl⟩

end Layout

namespace Store

open Layout

variable {s : Store}

/-- Where each child of a stack that is laid out has an explicit length along it, the layout of the
transposed store in the transposed box is the transposed layout. -/
theorem Reachable.solve_transpose (hs : s.Reachable) (bounds : Rect)
    (hsized : ∀ e ∈ (solve s bounds).entries, s.SizedAlong e.id) :
    solve s.transpose bounds.transpose = (solve s bounds).transpose := by
  obtain ⟨hentries, hlimited⟩ := (lockstep_transpose hs.wellFormed .clamped).solveIn
    (rootsCorrespond_transpose hs.wellFormed) rfl hsized
  have hmatches : Matches Eq (solve s bounds).transpose (solve s.transpose bounds.transpose) :=
    ⟨List.forall₂_map_left_iff.mpr hentries, hlimited⟩
  exact hmatches.eq.symm

/-- A padded column with a row and a centred item in it. -/
def gridded : List Record :=
  [.createNode 1 1, .setProp 1 104 0x04030201, .createNode 2 2, .setProp 2 302 40, .createNode 3 5,
    .setProp 3 301 70, .createNode 4 3, .setProp 4 302 50, .createNode 5 6, .appendChild 1 2,
    .appendChild 2 3, .appendChild 1 4, .appendChild 4 5]

theorem solve_transpose_gridded :
    (∀ e ∈ (solve (empty.applyAll gridded).2 ⟨0, 0, 200, 100⟩).entries,
      (empty.applyAll gridded).2.SizedAlong e.id) ∧
    solve (empty.applyAll gridded).2.transpose ⟨0, 0, 100, 200⟩ =
      (solve (empty.applyAll gridded).2 ⟨0, 0, 200, 100⟩).transpose := by
  have hs := Reachable.empty.applyAll gridded
  have hn : (empty.applyAll gridded).2.get? ⟨0, 0⟩ = some
      { id := ⟨1⟩, kind := .column, children := #[⟨1, 0⟩, ⟨3, 0⟩]
        props := { padding := { left := 1, bottom := 2, right := 3, top := 4 } } } := by decide +kernel
  have hsized : ∀ e ∈ (solve (empty.applyAll gridded).2 ⟨0, 0, 200, 100⟩).entries,
      (empty.applyAll gridded).2.SizedAlong e.id := by
    rw [solve, solveIn_of_some (hs.wellFormed.root?_of_first hn rfl rfl)]
    decide +kernel
  exact ⟨hsized, hs.solve_transpose ⟨0, 0, 200, 100⟩ hsized⟩

end Store

end RetainedUi
