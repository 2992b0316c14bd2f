import RetainedUi.Proofs.Layout.Lockstep

/-!
# What a layout depends on

A layout is determined by what its own entries say of their nodes: kind, children, and the properties
that place children, with the explicit size of every node but the root. The rest of a store may be
anything.
-/

namespace RetainedUi

open Layout

namespace Store

/-- The id that layout starts from. -/
def rootId? (s : Store) : Option NodeId := s.root?.bind s.id?

theorem rootId?_of_root? {s : Store} {h : Handle} {n : Node} (hr : s.root? = some h)
    (hn : s.get? h = some n) : s.rootId? = some n.id := by
  rw [rootId?, hr, Option.bind_some, id?_of_get? hn]

/-- Two stores hold the same under an id, as far as layout from the id `root` reads it. -/
def AgreeAt (s t : Store) (root : Option NodeId) (x : NodeId) : Prop :=
  ∃ n ∈ s.node? x, ∃ m ∈ t.node? x,
    n.kind = m.kind ∧ s.childIds x = t.childIds x ∧ n.props.crossAlign = m.props.crossAlign ∧
      n.props.gap = m.props.gap ∧ n.props.padding = m.props.padding ∧
      (root ≠ some x → n.props.width = m.props.width ∧ n.props.height = m.props.height)

instance (s t : Store) (root : Option NodeId) (x : NodeId) : Decidable (s.AgreeAt t root x) :=
  inferInstanceAs (Decidable (∃ _ ∈ _, _))

end Store

theorem Boxes.ofChildren_congr (a : Arithmetic) (kind : NodeKind) {p q : Props}
    (hcross : p.crossAlign = q.crossAlign) (hgap : p.gap = q.gap) (hpadding : p.padding = q.padding)
    (r : Rect) (children : List SizeHint) :
    ofChildren a kind p r children = ofChildren a kind q r children := by
  cases kind <;> simp only [ofChildren, hcross, hgap, hpadding]

namespace Layout

open Store

variable {s t : Store} {h k : Handle} {n m : Node} {root : Option NodeId}

theorem length_childIds (hw : s.WellFormed) (hn : s.get? h = some n) :
    (s.childIds n.id).length = n.children.size := by
  rw [← (hw.forall₂_childIds hn).length_eq, Array.length_toList]

/-- The nodes that two stores keep under an id are those of any handles for it. -/
theorem agree_of_id_eq (hs : s.WellFormed) (ht : t.WellFormed) (hn : s.get? h = some n)
    (hm : t.get? k = some m) (hid : n.id = m.id) (ha : s.AgreeAt t root n.id) :
    n.kind = m.kind ∧ s.childIds n.id = t.childIds m.id ∧ n.props.crossAlign = m.props.crossAlign ∧
      n.props.gap = m.props.gap ∧ n.props.padding = m.props.padding ∧
      (root ≠ some n.id → n.props.sizeHint = m.props.sizeHint) := by
  obtain ⟨n', hn', m', hm', hkind, hkids, hcross, hgap, hpadding, hsize⟩ := ha
  rw [hs.node?_eq hn] at hn'
  rw [hid, ht.node?_eq hm] at hm'
  cases hn'
  cases hm'
  refine ⟨hkind, hid ▸ hkids, hcross, hgap, hpadding, fun hroot => ?_⟩
  obtain ⟨hwidth, hheight⟩ := hsize hroot
  rw [Props.sizeHint, Props.sizeHint, hwidth, hheight]

/-- What is laid out below another node is not the root. -/
theorem rootId?_ne_of_mem_shownNodes (hw : s.WellFormed) (hn : s.get? h = some n)
    {c : Handle × Node} (hc : c ∈ shownNodes s n) : s.rootId? ≠ some c.2.id := by
  intro hroot
  obtain ⟨r, hr, hid⟩ := Option.bind_eq_some_iff.mp hroot
  obtain ⟨m, hm, hp, _⟩ := hw.root?_eq_some_iff.mp hr
  rw [id?_of_get? hm, Option.some.injEq] at hid
  have hparent := parentOf_of_mem_shownNodes hw hn hc
  rw [← hid, parentOf_eq hw.toArena hm, hp] at hparent
  cases hparent

theorem forall₂_shownNodes (hs : s.WellFormed) (ht : t.WellFormed) (hn : s.get? h = some n)
    (hm : t.get? k = some m) (hkind : n.kind = m.kind) (hkids : s.childIds n.id = t.childIds m.id) :
    List.Forall₂ (fun c d => c.2.id = d.2.id) (shownNodes s n) (shownNodes t m) := by
  have hids : (shownNodes s n).map (fun c => c.2.id) = (shownNodes t m).map fun d => d.2.id := by
    rw [map_id_shownNodes hs hn, map_id_shownNodes ht hm, Store.shownIds_eq hs.toArena hn,
      Store.shownIds_eq ht.toArena hm, hkind, hkids]
  rwa [← List.forall₂_eq_eq_eq, List.forall₂_map_left_iff, List.forall₂_map_right_iff] at hids

theorem lockstep_agree (hs : s.WellFormed) (ht : t.WellFormed) (hroot : s.rootId? = root) (a : Arithmetic) :
    Lockstep a a s t (fun n m => n.id = m.id) Eq (fun e => s.AgreeAt t root e.id) Eq where
  entry := by
    rintro h k n m r _ depth hn hm hid rfl ha
    obtain ⟨hkind, hkids, _⟩ := agree_of_id_eq hs ht hn hm hid ha
    have hsize : n.children.size = m.children.size := by
      rw [← length_childIds hs hn, hkids, length_childIds ht hm]
    simp only [Node.entry, Node.isLeaf, Array.isEmpty, hid, hkind, hsize]
  nodes := by
    rintro h k n m r _ depth hn hm hid rfl ha
    obtain ⟨hkind, hkids, _⟩ := agree_of_id_eq hs ht hn hm hid ha
    exact forall₂_shownNodes hs ht hn hm hkind hkids
  boxes := by
    rintro h k n m r _ depth hn hm hid rfl ha hbelow
    obtain ⟨hkind, hkids, hcross, hgap, hpadding, _⟩ := agree_of_id_eq hs ht hn hm hid ha
    have hchildren := forall₂_shownNodes hs ht hn hm hkind hkids
    have hagree := forall_left_of_forall₂ (p := fun c : Handle × Node => s.AgreeAt t root c.2.id)
      (fun _ _ h => h) hbelow
    have hhints : (shownNodes s n).map (fun c => c.2.props.sizeHint) =
        (shownNodes t m).map fun d => d.2.props.sizeHint := by
      rw [← List.forall₂_eq_eq_eq, List.forall₂_map_left_iff, List.forall₂_map_right_iff,
        List.forall₂_iff_zip]
      refine ⟨hchildren.length_eq, fun {c d} hcd => ?_⟩
      obtain ⟨hc, hd⟩ := List.of_mem_zip hcd
      obtain ⟨_, _, _, _, _, hsize⟩ := agree_of_id_eq hs ht (get?_of_mem_shownNodes hc)
        (get?_of_mem_shownNodes hd) (List.forall₂_zip hchildren hcd) (hagree c hc)
      exact hsize (hroot ▸ rootId?_ne_of_mem_shownNodes hs hn hc)
    rw [List.forall₂_eq_eq_eq, childBoxes, childBoxes, ← hkind, hhints]
    exact Boxes.ofChildren_congr a n.kind hcross hgap hpadding r _

theorem rootsCorrespond_of_rootId? (hs : s.WellFormed) (ht : t.WellFormed) (hroot : s.rootId? = root)
    (hroot' : t.rootId? = root) : RootsCorrespond s t fun n m => n.id = m.id := by
  have heq := hroot.trans hroot'.symm
  cases hr : s.root? with
  | none =>
      refine Or.inl ⟨hr, ?_⟩
      cases hr' : t.root? with
      | none => rfl
      | some k =>
          obtain ⟨m, hm, _⟩ := ht.root?_eq_some_iff.mp hr'
          rw [rootId?_of_root? hr' hm, rootId?, hr] at heq
          cases heq
  | some h =>
      obtain ⟨n, hn, _⟩ := hs.root?_eq_some_iff.mp hr
      rw [rootId?_of_root? hr hn] at heq
      obtain ⟨k, hr', hid⟩ := Option.bind_eq_some_iff.mp heq.symm
      obtain ⟨m, hm, hmid⟩ := get?_of_id? hid
      exact Or.inr ⟨h, k, n, m, hr, hr', hn, hm, hmid.symm⟩

/-! ## Stores with one forest -/

theorem rootId?_eq (hw : s.WellFormed) : s.rootId? = s.roots.min? := by
  rw [rootId?, Store.root?]
  cases hx : s.roots.min? with
  | none => rfl
  | some x =>
      obtain ⟨h, n, hn, rfl, _⟩ := get?_of_mem_roots hw.toLinked (Std.ExtTreeSet.min?_mem hx)
      have hid := id?_of_get? hn
      rw [Option.bind_some, (hw.handle?_iff n.id h).mpr hid, Option.bind_some, hid]

theorem agreeAt_of_forest_eq (hf : s.forest = t.forest) {x : NodeId} (hn : s.node? x = some n) :
    s.AgreeAt t root x := by
  have hx := congrFun hf x
  simp only [Store.forest, hn, Option.map_some] at hx
  obtain ⟨m, hm, he⟩ := Option.map_eq_some_iff.mp hx.symm
  rw [Element.mk.injEq] at he
  obtain ⟨hkind, hprops, _, hkids, _⟩ := he
  exact ⟨n, hn, m, hm, hkind.symm, hkids.symm, by rw [hprops], by rw [hprops], by rw [hprops],
    fun _ => by rw [hprops]; exact ⟨rfl, rfl⟩⟩

/-- Stores with one forest are laid out alike. -/
theorem solve_congr (hs : s.WellFormed) (ht : t.WellFormed) (hf : s.forest = t.forest)
    (bounds : Rect) : solve s bounds = solve t bounds := by
  have hroot' : t.rootId? = s.rootId? := by
    rw [rootId?_eq hs, rootId?_eq ht, hs.roots_congr ht hf]
  refine ((lockstep_agree hs ht rfl .clamped).solveIn (rootsCorrespond_of_rootId? hs ht rfl hroot') rfl
    fun e he => ?_).eq
  obtain ⟨k, m, hm, hid⟩ := node_of_mem_solveIn he
  exact agreeAt_of_forest_eq hf (hid ▸ hs.node?_eq hm)

end Layout

namespace Store

variable {s t : Store}

/-- Two stores with the same root that agree under each id with an entry in the layout of the first are
laid out alike. -/
theorem Reachable.solve_local (hs : s.Reachable) (ht : t.Reachable) (bounds : Rect)
    {root : Option NodeId} (hroot : s.rootId? = root) (hroot' : t.rootId? = root)
    (hagree : ∀ e ∈ (solve s bounds).entries, s.AgreeAt t root e.id) :
    solve t bounds = solve s bounds :=
  ((lockstep_agree hs.wellFormed ht.wellFormed hroot .clamped).solveIn
    (rootsCorrespond_of_rootId? hs.wellFormed ht.wellFormed hroot hroot') rfl hagree).eq.symm

/-- The frame of two children, with a text and alignments that layout does not read, a width for the
root, another size for the second child, and one more tree. -/
def decorated : List Record :=
  framed ++ [.setProp 1 301 500, .setProp 2 101 2, .setPropStr 4 201 [72, 105], .setProp 3 302 9,
    .createNode 5 1, .setProp 5 103 7]

theorem solve_local_decorated :
    (empty.applyAll framed).2.node? ⟨3⟩ ≠ (empty.applyAll decorated).2.node? ⟨3⟩ ∧
    solve (empty.applyAll decorated).2 ⟨0, 0, 64, 48⟩ = solve (empty.applyAll framed).2 ⟨0, 0, 64, 48⟩ := by
  have hs := Reachable.empty.applyAll framed
  have ht := Reachable.empty.applyAll decorated
  have hn : (empty.applyAll framed).2.get? ⟨0, 0⟩ = some
      { id := ⟨1⟩, kind := .center, children := #[⟨1, 0⟩, ⟨2, 0⟩] } := by decide +kernel
  have hm : (empty.applyAll decorated).2.get? ⟨0, 0⟩ = some
      { id := ⟨1⟩, kind := .center, children := #[⟨1, 0⟩, ⟨2, 0⟩], props := { width := 500 } } := by
    decide +kernel
  have hr := hs.wellFormed.root?_of_first hn rfl rfl
  have hroot := rootId?_of_root? hr hn
  have hroot' := rootId?_of_root? (ht.wellFormed.root?_of_first hm rfl rfl) hm
  refine ⟨by decide +kernel, hs.solve_local ht ⟨0, 0, 64, 48⟩ hroot hroot' ?_⟩
  rw [solve, solveIn_of_some hr]
  decide +kernel

end Store

end RetainedUi
