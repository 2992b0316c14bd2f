import RetainedUi.Proofs.Layout.Locality

/-!
# Stores with one forest

Where a store keeps its nodes, and what was in its slots before, shows in no answer and no layout: of
two stores that hold the same forest neither can be told from the other.
-/

namespace RetainedUi.Store

variable {s t : Store}

/-- Two reachable stores with the same forest answer any records alike, hold the same forest and the
same roots afterwards, and are laid out alike in every box. -/
theorem Reachable.same_forest (hs : s.Reachable) (ht : t.Reachable) (hf : s.forest = t.forest)
    (rs : List Record) :
    (s.applyAll rs).1 = (t.applyAll rs).1 ∧
      (s.applyAll rs).2.forest = (t.applyAll rs).2.forest ∧
      (s.applyAll rs).2.parentless = (t.applyAll rs).2.parentless ∧
      ∀ bounds, Layout.solve (s.applyAll rs).2 bounds = Layout.solve (t.applyAll rs).2 bounds := by
  have hs' := hs.wellFormed.applyAll rs
  have ht' := ht.wellFormed.applyAll rs
  have hedit := hs.wellFormed.editAll_forest rs
  rw [hf, ht.wellFormed.editAll_forest rs, Prod.mk.injEq] at hedit
  obtain ⟨hanswers, hforest⟩ := hedit
  refine ⟨hanswers.symm, hforest.symm, ?_, Layout.solve_congr hs' ht' hforest.symm⟩
  rw [parentless, parentless, hs'.roots_congr ht' hforest.symm]

/-- A column beside a text, where the column is new in a slot that was used before. -/
def reused : List Record :=
  [.createNode 1 1, .createNode 2 5, .deleteNode 1, .createNode 1 1]

/-- The same column and text, created in the other order. -/
def fresh : List Record := [.createNode 2 5, .createNode 1 1]

theorem forest_reused : (empty.applyAll reused).2.forest = (empty.applyAll fresh).2.forest := by
  have hreused := (wellFormed_empty.applyAll reused).toArena
  have hfresh := (wellFormed_empty.applyAll fresh).toArena
  have hids : (empty.applyAll reused).2.ids = [⟨1⟩, ⟨2⟩] := by decide
  refine hreused.forest_ext hfresh (by decide) fun x hx => ?_
  rw [hids, List.mem_cons, List.mem_singleton] at hx
  rcases hx with rfl | rfl
  · decide
  · decide

theorem same_forest_reused :
    (empty.applyAll reused).2.handle? ⟨1⟩ ≠ (empty.applyAll fresh).2.handle? ⟨1⟩ ∧
      Layout.solve ((empty.applyAll reused).2.applyAll [.appendChild 1 2]).2 ⟨0, 0, 64, 48⟩ =
        Layout.solve ((empty.applyAll fresh).2.applyAll [.appendChild 1 2]).2 ⟨0, 0, 64, 48⟩ :=
  ⟨by decide, ((Reachable.empty.applyAll reused).same_forest (Reachable.empty.applyAll fresh)
    forest_reused [.appendChild 1 2]).2.2.2 _⟩

end RetainedUi.Store
