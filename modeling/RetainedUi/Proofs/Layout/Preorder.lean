import RetainedUi.Proofs.Descent
import RetainedUi.Proofs.Edit.Reachable
import RetainedUi.Proofs.Forest.Ids

/-!
# Layout in pre-order

From the root, layout follows the children that are laid out and lists what it meets, parents before
children, nothing twice, down to the greatest depth. It tells exactly whether anything was left out
below that depth.
-/

namespace RetainedUi

/-! ## Lists whose elements correspond -/

section Lists

variable {α β : Type} {R : α → β → Prop} {l : List α} {l' : List β}

theorem exists_mem_iff_of_forall₂ {p : α → Prop} {q : β → Prop} (hpq : ∀ a b, R a b → (p a ↔ q b))
    (hl : List.Forall₂ R l l') : (∃ a ∈ l, p a) ↔ ∃ b ∈ l', q b := by
  induction hl with
  | nil => simp only [List.not_mem_nil, false_and, exists_false]
  | cons hab _ ih => simp only [List.exists_mem_cons_iff, hpq _ _ hab, ih]

end Lists

/-- The entry of a node in a box. -/
def Node.entry (n : Node) (r : Rect) (depth : Nat) : LayoutEntry :=
  ⟨n.id, n.kind, r, n.isLeaf, depth⟩

/-! ## The children that are laid out -/

namespace Store

variable {s : Store}

/-- The ids of the children of an id that are laid out: all of a stack, the first of a frame, none
of content. -/
def shownIds (s : Store) (x : NodeId) : List NodeId :=
  match (s.node? x).map Node.kind with
  | some .column | some .row => s.childIds x
  | some .center | some .sizedBox => (s.childIds x).take 1
  | some .text | some .button | none => []

theorem shownIds_eq (ha : s.Arena) {h : Handle} {n : Node} (hn : s.get? h = some n) :
    s.shownIds n.id = n.kind.shown (s.childIds n.id) := by
  rw [shownIds, ha.node?_eq hn, Option.map_some]
  cases n.kind <;> rfl

theorem shownIds_sublist (s : Store) (x : NodeId) : (s.shownIds x).Sublist (s.childIds x) := by
  rw [shownIds]
  split
  · exact List.Sublist.refl _
  · exact List.Sublist.refl _
  · exact List.take_sublist 1 _
  · exact List.take_sublist 1 _
  all_goals exact List.nil_sublist _

theorem WellFormed.forall₂_childIds (hw : s.WellFormed) {h : Handle} {n : Node}
    (hn : s.get? h = some n) :
    List.Forall₂ (fun c y => s.id? c = some y) n.children.toList (s.childIds n.id) := by
  have hmap : n.children.toList.map s.id? = (s.childIds n.id).map some := by
    rw [childIds_eq hw.toArena hn, Layout.map_id?_children hw hn, element]
  rwa [← List.forall₂_eq_eq_eq, List.forall₂_map_left_iff, List.forall₂_map_right_iff] at hmap

/-- Something is laid out below a node when it is a container with children. -/
theorem WellFormed.shownIds_ne_nil_iff (hw : s.WellFormed) {h : Handle} {n : Node}
    (hn : s.get? h = some n) :
    s.shownIds n.id ≠ [] ↔
      (n.kind = .column ∨ n.kind = .row ∨ n.kind = .center ∨ n.kind = .sizedBox) ∧
        n.children ≠ #[] := by
  have hkids : s.childIds n.id = [] ↔ n.children = #[] := by
    have hlen := (hw.forall₂_childIds hn).length_eq
    rw [← List.length_eq_zero_iff, ← hlen, Array.length_toList, Array.size_eq_zero_iff]
  rw [shownIds_eq hw.toArena hn, ne_eq, ne_eq, ← hkids]
  cases hk : n.kind <;> simp [NodeKind.shown]

end Store

namespace Layout

open Store

variable {a : Arithmetic} {s : Store} {h : Handle} {n : Node}

/-! ## One node -/

theorem length_stack (axis : Axis) (area : Rect) (gap : Int) (align : Align) (cursor : Int)
    (children : List SizeHint) :
    (Boxes.stack a axis area gap align cursor children).length = children.length := by
  induction children generalizing cursor with
  | nil => rfl
  | cons child rest ih => rw [Boxes.stack, List.length_cons, List.length_cons, ih]

theorem length_ofChildren {α : Type} {kind : NodeKind} {children : List α} {hints : List SizeHint}
    (hlen : hints.length = (kind.shown children).length) (p : Props) (r : Rect) :
    (Boxes.ofChildren a kind p r hints).length = (kind.shown children).length := by
  cases kind with
  | column | row => exact (length_stack ..).trans hlen
  | center | sizedBox => exact (List.length_map _).trans hlen
  | text | button => rfl

theorem map_fst_arrange (hw : s.WellFormed) (hn : s.get? h = some n) (r : Rect) :
    (arrange a s n r).map Prod.fst = n.kind.shown n.children.toList := by
  have hlive := hw.live_of_mem_children hn
  rw [arrange_of_live hlive]
  refine List.map_fst_zip (Nat.le_of_eq (length_ofChildren ?_ _ _).symm)
  rw [List.filterMap_length_eq_length]
  intro c hc
  obtain ⟨m, hm⟩ := hlive c (Array.mem_toList_iff.mp (mem_of_mem_shown hc))
  rw [hm]
  rfl

/-- The children in their boxes are, in order, those of the ids that are laid out. -/
theorem forall₂_arrange (hw : s.WellFormed) (hn : s.get? h = some n) (r : Rect) :
    List.Forall₂ (fun c y => s.id? c.1 = some y) (arrange a s n r) (s.shownIds n.id) := by
  have hshown := forall₂_shown n.kind (hw.forall₂_childIds hn)
  rw [← shownIds_eq hw.toArena hn, ← map_fst_arrange hw hn r] at hshown
  exact List.forall₂_map_left_iff.mp hshown

/-! ## What is below a node -/

theorem map_entries_place (hw : s.WellFormed) (hn : s.get? h = some n) (levels depth : Nat)
    (r : Rect) :
    (place a s levels depth h r).entries.map (fun e => (e.id, e.depth)) =
      preorder s.shownIds levels depth n.id := by
  induction levels generalizing h n depth r with
  | zero => rw [place_zero hn]; rfl
  | succ levels ih =>
      rw [place_succ hn, branch, List.map_cons, List.flatMap_map, List.map_flatMap, preorder,
        List.cons.injEq, ← List.forall₂_eq_eq_eq]
      refine ⟨rfl, List.rel_flatMap (forall₂_arrange hw hn r) fun c y hcy => ?_⟩
      obtain ⟨m, hm, rfl⟩ := get?_of_id? hcy
      rw [List.forall₂_eq_eq_eq]
      exact ih hm (depth + 1) c.2

theorem depthLimited_place_iff (hw : s.WellFormed) (hn : s.get? h = some n) (levels depth : Nat)
    (r : Rect) :
    (place a s levels depth h r).depthLimited = true ↔ ∃ y, Reaches s.shownIds n.id levels y := by
  induction levels generalizing h n depth r with
  | zero =>
      rw [place_zero hn]
      exact iff_of_true rfl ⟨n.id, .refl⟩
  | succ levels ih =>
      have hbelow : (∃ c ∈ arrange a s n r,
          (place a s levels (depth + 1) c.1 c.2).depthLimited = true) ↔
            ∃ y ∈ s.shownIds n.id, ∃ z, Reaches s.shownIds y levels z := by
        refine exists_mem_iff_of_forall₂ (fun c y hcy => ?_) (forall₂_arrange hw hn r)
        obtain ⟨m, hm, rfl⟩ := get?_of_id? hcy
        exact ih hm (depth + 1) c.2
      simp only [place_succ hn, branch, List.any_map, List.any_eq_true, Function.comp_apply, hbelow,
        reaches_succ_iff]
      constructor
      · rintro ⟨y, hy, z, hz⟩
        exact ⟨z, y, hy, hz⟩
      · rintro ⟨z, y, hy, hz⟩
        exact ⟨y, hy, z, hz⟩

theorem mem_place_succ_iff (hn : s.get? h = some n) {levels depth : Nat} {r : Rect} {e : LayoutEntry} :
    e ∈ (place a s (levels + 1) depth h r).entries ↔
      e = n.entry r depth ∨
        ∃ c ∈ arrange a s n r, e ∈ (place a s levels (depth + 1) c.1 c.2).entries := by
  rw [place_succ hn, branch, List.mem_cons, List.flatMap_map, List.mem_flatMap, Node.entry]

/-- An entry comes with the whole layout of its node in its box. -/
theorem exists_place_of_mem {levels depth : Nat} {r : Rect} {e : LayoutEntry}
    (he : e ∈ (place a s levels depth h r).entries) :
    ∃ k m rest, s.get? k = some m ∧ e = m.entry e.rect e.depth ∧ e.depth + rest + 1 = depth + levels ∧
      ∀ e' ∈ (place a s (rest + 1) e.depth k e.rect).entries,
        e' ∈ (place a s levels depth h r).entries := by
  induction levels generalizing h depth r with
  | zero =>
      cases hn : s.get? h with
      | none => rw [place_of_get?_none hn] at he; cases he
      | some n => rw [place_zero hn] at he; cases he
  | succ levels ih =>
      cases hn : s.get? h with
      | none => rw [place_of_get?_none hn] at he; cases he
      | some n =>
          rcases (mem_place_succ_iff hn).mp he with rfl | ⟨c, hc, hbelow⟩
          · exact ⟨h, n, levels, hn, rfl, rfl, fun _ he' => he'⟩
          · obtain ⟨k, m, rest, hm, heq, hdepth, hsub⟩ := ih hbelow
            exact ⟨k, m, rest, hm, heq, by omega, fun e' he' =>
              (mem_place_succ_iff hn).mpr (Or.inr ⟨c, hc, hsub e' he'⟩)⟩

theorem node_of_mem_place {levels depth : Nat} {r : Rect} {e : LayoutEntry}
    (he : e ∈ (place a s levels depth h r).entries) :
    ∃ k m, s.get? k = some m ∧ m.id = e.id ∧ m.kind = e.kind ∧ e.leaf = m.isLeaf := by
  obtain ⟨k, m, _, hm, heq, _⟩ := exists_place_of_mem he
  refine ⟨k, m, hm, ?_, ?_, ?_⟩ <;> rw [heq] <;> rfl

theorem exists_mem_place_iff (hw : s.WellFormed) (hn : s.get? h = some n) {levels k : Nat} {r : Rect}
    {x : NodeId} : (∃ e ∈ (place a s levels 0 h r).entries, e.id = x ∧ e.depth = k) ↔
      k < levels ∧ Reaches s.shownIds n.id k x := by
  have hmem : (∃ e ∈ (place a s levels 0 h r).entries, e.id = x ∧ e.depth = k) ↔
      (x, k) ∈ preorder s.shownIds levels 0 n.id := by
    simp only [← map_entries_place (a := a) hw hn levels 0 r, List.mem_map, Prod.mk.injEq]
  rw [hmem, mem_preorder]
  simp only [Nat.zero_add, exists_eq_left', and_left_comm]

theorem parentOf_of_mem_shownIds (hw : s.WellFormed) (x y : NodeId) (hy : y ∈ s.shownIds x) :
    s.parentOf y = some x :=
  hw.parentOf_of_mem_childIds ((shownIds_sublist s x).mem hy)

theorem nodup_place (hw : s.WellFormed) (hn : s.get? h = some n) (levels : Nat) (r : Rect) :
    ((place a s levels 0 h r).entries.map LayoutEntry.id).Nodup := by
  have hdown : ∀ x, (s.shownIds x).Nodup := fun x =>
    (hw.nodup_childIds x).sublist (shownIds_sublist s x)
  have hpre := nodup_preorder (parentOf_of_mem_shownIds hw) hdown hw.rooted_parentOf levels 0 n.id
  rwa [← map_entries_place (a := a) hw hn levels 0 r, List.map_map] at hpre

/-- Something was left out when the last level has a container with children. -/
theorem depthLimited_iff_last (hw : s.WellFormed) (hn : s.get? h = some n) (levels : Nat) (r : Rect) :
    (place a s (levels + 1) 0 h r).depthLimited = true ↔
      ∃ e ∈ (place a s (levels + 1) 0 h r).entries, e.depth = levels ∧
        (e.kind = .column ∨ e.kind = .row ∨ e.kind = .center ∨ e.kind = .sizedBox) ∧
          ∃ m, s.node? e.id = some m ∧ m.children ≠ #[] := by
  rw [depthLimited_place_iff hw hn]
  constructor
  · -- The node above the one that was left out is the container on the last level.
    rintro ⟨y, hy⟩
    obtain _ | ⟨hx, hy⟩ := hy
    obtain ⟨e, he, rfl, hdepth⟩ := (exists_mem_place_iff hw hn).mpr ⟨Nat.lt_succ_self levels, hx⟩
    obtain ⟨k, m, hm, hid, hkind, _⟩ := node_of_mem_place he
    rw [← hid] at hy
    obtain ⟨hcontainer, hchildren⟩ := (hw.shownIds_ne_nil_iff hm).mp (List.ne_nil_of_mem hy)
    rw [hkind] at hcontainer
    exact ⟨e, he, hdepth, hcontainer, m, by rw [← hid, hw.node?_eq hm], hchildren⟩
  · rintro ⟨e, he, hdepth, hcontainer, m', hm', hchildren⟩
    obtain ⟨k, m, hm, hid, hkind, _⟩ := node_of_mem_place he
    rw [← hid, hw.node?_eq hm] at hm'
    cases hm'
    rw [← hkind] at hcontainer
    have hshown := (hw.shownIds_ne_nil_iff hm).mpr ⟨hcontainer, hchildren⟩
    obtain ⟨y, hy⟩ := List.exists_mem_of_ne_nil _ hshown
    obtain ⟨_, hx⟩ := (exists_mem_place_iff hw hn).mp ⟨e, he, hid.symm, hdepth⟩
    exact ⟨y, hx.step hy⟩

/-- Where no id comes twice, an id finds the one entry that it has. -/
theorem found_of_nodup {l : Layout} (hl : (l.entries.map LayoutEntry.id).Nodup) {e : LayoutEntry}
    (he : e ∈ l.entries) : l.entry? e.id = some e ∧ l.rectOf? e.id = some e.rect := by
  have hf : l.entry? e.id = some e := by
    unfold entry?
    cases hf : l.entries.find? (·.id = e.id) with
    | none =>
        have hne := List.find?_eq_none.mp hf e he
        rw [decide_eq_true_iff] at hne
        exact absurd rfl hne
    | some e' =>
        have hid := List.find?_some hf
        rw [decide_eq_true_iff] at hid
        rw [List.inj_on_of_nodup_map hl (List.mem_of_find?_eq_some hf) he hid]
  exact ⟨hf, by rw [rectOf?, hf, Option.map_some]⟩

/-! ## Layout from a root -/

/-- A layout that goes from a root in a box to all that the children laid out lead to. -/
structure Visits (s : Store) (root : NodeId) (bounds : Rect) (l : Layout) : Prop where
  /-- Parents come before what is below them, and siblings in order. -/
  order : l.entries.map (fun e => (e.id, e.depth)) = preorder s.shownIds 1025 0 root
  /-- All that is reached in at most 1024 steps has an entry at its depth, and nothing else has one. -/
  visited : ∀ x depth, (∃ e ∈ l.entries, e.id = x ∧ e.depth = depth) ↔
    depth ≤ 1024 ∧ Reaches s.shownIds root depth x
  nodup : (l.entries.map LayoutEntry.id).Nodup
  found : ∀ e ∈ l.entries, l.entry? e.id = some e ∧ l.rectOf? e.id = some e.rect
  node : ∀ e ∈ l.entries, ∃ n, s.node? e.id = some n ∧ e.kind = n.kind ∧
    (e.leaf = true ↔ n.kind = .text ∨ n.kind = .button ∨ n.children = #[])
  /-- The depth of an entry is the number of steps up to the root. -/
  distance : ∀ e ∈ l.entries, climb s.parentOf e.depth e.id = some root
  first : ∃ e, l.root? = some e ∧ e.id = root ∧ e.rect = bounds
  /-- Something was left out just when the last level has a container with children. -/
  depthLimited_iff : l.depthLimited = true ↔ ∃ e ∈ l.entries, e.depth = 1024 ∧
    (e.kind = .column ∨ e.kind = .row ∨ e.kind = .center ∨ e.kind = .sizedBox) ∧
      ∃ n, s.node? e.id = some n ∧ n.children ≠ #[]

theorem visits_place (hw : s.WellFormed) (hn : s.get? h = some n) (bounds : Rect) :
    (place a s (maxDepth + 1) 0 h bounds).Visits s n.id bounds where
  order := map_entries_place hw hn 1025 0 bounds
  visited x depth := by rw [exists_mem_place_iff hw hn, maxDepth, Nat.lt_succ_iff]
  nodup := nodup_place hw hn 1025 bounds
  found _ he := found_of_nodup (nodup_place hw hn 1025 bounds) he
  node e he := by
    obtain ⟨k, m, hm, hid, hkind, hleaf⟩ := node_of_mem_place he
    refine ⟨m, by rw [← hid, hw.node?_eq hm], hkind.symm, ?_⟩
    rw [hleaf, Node.isLeaf]
    cases m.kind <;> simp [NodeKind.isContent]
  distance e he :=
    ((exists_mem_place_iff hw hn).mp ⟨e, he, rfl, rfl⟩).2.climb (parentOf_of_mem_shownIds hw)
  first := by
    rw [root?, place_succ hn, branch]
    exact ⟨_, rfl, rfl, rfl⟩
  depthLimited_iff := depthLimited_iff_last hw hn 1024 bounds

end Layout

namespace Store

variable {s : Store}

/-- A live id without a parent. -/
def Top (s : Store) (x : NodeId) : Prop := ∃ n, s.node? x = some n ∧ n.parent = none

/-- Without a parentless id there is nothing to lay out; else layout goes from the lowest of them to
all that the children laid out lead to in at most 1024 steps, in pre-order, and to nothing else. -/
theorem Reachable.solve_visits (hs : s.Reachable) (bounds : Rect) :
    (∀ x, ¬ s.Top x) ∧ Layout.solve s bounds = {} ∨
      ∃ root, s.Top root ∧ (∀ x, s.Top x → root.value ≤ x.value) ∧
        (Layout.solve s bounds).Visits s root bounds := by
  have hw := hs.wellFormed
  cases hr : s.root? with
  | none =>
      refine Or.inl ⟨?_, by rw [Layout.solve, Layout.solveIn, hr]⟩
      rintro x ⟨n, hx, _⟩
      obtain ⟨h, hn, _⟩ := hw.get?_of_node? hx
      obtain ⟨r, hr'⟩ := hw.exists_root hn
      rw [hr] at hr'
      cases hr'
  | some r =>
      obtain ⟨n, hn, hp, hmin⟩ := hw.root?_eq_some_iff.mp hr
      refine Or.inr ⟨n.id, ⟨n, hw.node?_eq hn, hp⟩, ?_, ?_⟩
      · rintro x ⟨m, hx, hpm⟩
        obtain ⟨k, hm, rfl⟩ := hw.get?_of_node? hx
        exact hmin k m hm hpm
      · rw [Layout.solve, Layout.solveIn, hr]
        exact Layout.visits_place hw hn bounds

/-- A frame with two children, the first of them a stack with one child. -/
def framed : List Record :=
  [.createNode 1 3, .createNode 2 1, .createNode 3 5, .createNode 4 6,
    .appendChild 1 2, .appendChild 1 3, .appendChild 2 4]

theorem solve_visits_framed : (empty.applyAll framed).2.Reachable ∧
    (Layout.solve (empty.applyAll framed).2 ⟨0, 0, 64, 48⟩).Visits (empty.applyAll framed).2 ⟨1⟩
      ⟨0, 0, 64, 48⟩ := by
  have hs := Reachable.empty.applyAll framed
  have htop : (empty.applyAll framed).2.Top ⟨1⟩ :=
    ⟨{ id := ⟨1⟩, kind := .center, children := #[⟨1, 0⟩, ⟨2, 0⟩] }, by decide +kernel, rfl⟩
  have hzero : (empty.applyAll framed).2.node? ⟨0⟩ = none := by decide +kernel
  refine ⟨hs, ?_⟩
  rcases hs.solve_visits ⟨0, 0, 64, 48⟩ with ⟨hnone, _⟩ | ⟨⟨v⟩, ⟨n, hn, _⟩, hmin, hvisits⟩
  · exact absurd htop (hnone ⟨1⟩)
  · have hv : v = 0 ∨ v = 1 := by
      have hle := UInt32.le_iff_toNat_le.mp (hmin ⟨1⟩ htop)
      have hone : (1 : UInt32).toNat = 1 := rfl
      simp only [← UInt32.toNat_inj, UInt32.toNat_zero, hone] at hle ⊢
      omega
    rcases hv with rfl | rfl
    · rw [hzero] at hn
      cases hn
    · exact hvisits

end Store

end RetainedUi
