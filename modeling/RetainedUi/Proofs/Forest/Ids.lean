import RetainedUi.Proofs.Forest.View

/-!
# Neighbours by id

The parent and the children of a live id are those of its node, named by their ids; links by id agree
with each other and run in no circles, as those by handle do.
-/

namespace RetainedUi.Store

variable {s : Store}

theorem childIds_eq (ha : s.Arena) {h : Handle} {n : Node} (hn : s.get? h = some n) :
    s.childIds n.id = n.children.toList.filterMap s.id? := by
  simp only [childIds, ha.node?_eq hn]

theorem parentOf_eq (ha : s.Arena) {h : Handle} {n : Node} (hn : s.get? h = some n) :
    s.parentOf n.id = n.parent.bind s.id? := by
  simp only [parentOf, ha.node?_eq hn, Option.bind_some]

theorem Arena.get?_of_node? (ha : s.Arena) {x : NodeId} {n : Node} (hx : s.node? x = some n) :
    ∃ h, s.get? h = some n ∧ n.id = x := by
  obtain ⟨h, hh, hn⟩ := Option.bind_eq_some_iff.mp hx
  obtain ⟨m, hm, rfl⟩ := ha.get?_of_handle? hh
  rw [hm] at hn
  cases hn
  exact ⟨h, hm, rfl⟩

theorem WellFormed.rooted_parentOf (hw : s.WellFormed) (x : NodeId) : Rooted s.parentOf x := by
  cases hx : s.handle? x with
  | none => exact .top (by simp only [parentOf, node?, hx, Option.bind_none])
  | some h =>
      obtain ⟨n, hn, rfl⟩ := hw.get?_of_handle? hx
      clear hx
      induction hw.rooted h generalizing n with
      | top hp =>
          refine .top ?_
          rw [parentOf_eq hw.toArena hn, ← parent?_of_get? hn, hp, Option.bind_none]
      | under hp _ ih =>
          obtain ⟨m, hm, _⟩ := hw.get?_parent hp
          refine .under ?_ (ih m hm)
          rw [parentOf_eq hw.toArena hn, ← parent?_of_get? hn, hp, Option.bind_some, id?_of_get? hm]

theorem exists_of_mem_childIds (ha : s.Arena) {x y : NodeId} (hy : y ∈ s.childIds x) :
    ∃ h n c m, s.get? h = some n ∧ n.id = x ∧ c ∈ n.children ∧ s.get? c = some m ∧ m.id = y := by
  cases hx : s.handle? x with
  | none =>
      rw [childIds, node?, hx] at hy
      cases hy
  | some h =>
      obtain ⟨n, hn, rfl⟩ := ha.get?_of_handle? hx
      rw [childIds_eq ha hn] at hy
      obtain ⟨c, hc, hid⟩ := List.mem_filterMap.mp hy
      obtain ⟨m, hm, rfl⟩ := get?_of_id? hid
      exact ⟨h, n, c, m, hn, rfl, Array.mem_toList_iff.mp hc, hm, rfl⟩

/-- The children of an id have it as their parent. -/
theorem WellFormed.parentOf_of_mem_childIds (hw : s.WellFormed) {x y : NodeId}
    (hy : y ∈ s.childIds x) : s.parentOf y = some x := by
  obtain ⟨h, n, c, m, hn, rfl, hc, hm, rfl⟩ := exists_of_mem_childIds hw.toArena hy
  have hp := hw.parent?_of_mem hn hc
  rw [parent?_of_get? hm] at hp
  rw [parentOf_eq hw.toArena hm, hp, Option.bind_some, id?_of_get? hn]

theorem WellFormed.mem_childIds_of_parentOf (hw : s.WellFormed) {x y : NodeId}
    (hy : s.parentOf y = some x) : y ∈ s.childIds x := by
  obtain ⟨p, hp, hid⟩ := Option.bind_eq_some_iff.mp hy
  obtain ⟨m, hm, hmp⟩ := Option.bind_eq_some_iff.mp hp
  obtain ⟨c, hc, rfl⟩ := hw.get?_of_node? hm
  obtain ⟨n, hn, hmem⟩ := hw.get?_parent (by rw [parent?_of_get? hc, hmp])
  rw [id?_of_get? hn] at hid
  cases hid
  rw [childIds_eq hw.toArena hn]
  exact List.mem_filterMap.mpr ⟨c, Array.mem_toList_iff.mpr hmem, id?_of_get? hc⟩

theorem WellFormed.mem_childIds_iff (hw : s.WellFormed) {x y : NodeId} :
    y ∈ s.childIds x ↔ s.parentOf y = some x :=
  ⟨hw.parentOf_of_mem_childIds, hw.mem_childIds_of_parentOf⟩

theorem WellFormed.nodup_childIds (hw : s.WellFormed) (x : NodeId) : (s.childIds x).Nodup := by
  cases hx : s.handle? x with
  | none =>
      rw [childIds, node?, hx]
      exact List.nodup_nil
  | some h =>
      obtain ⟨n, hn, rfl⟩ := hw.get?_of_handle? hx
      rw [childIds_eq hw.toArena hn]
      refine List.Nodup.filterMap (fun c d y hc hd => hw.id?_inj hc hd) ?_
      rw [← children_of_get? hn]
      exact hw.nodup_children h

end RetainedUi.Store
