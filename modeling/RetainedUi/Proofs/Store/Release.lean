import RetainedUi.Proofs.Store.Slots
import RetainedUi.Proofs.Store.Trees

/-!
# Releasing every node

Releasing takes node after node out and leaves the links between the others as they are. Slots, free
list and index stay right all the while, and when no node is left there is no link left either.
-/

namespace RetainedUi.Store

variable {s : Store}

/-- In `t` the ids of a list are no longer live; the others keep their handles. -/
structure Frees (s : Store) (l : List NodeId) (t : Store) : Prop where
  arena : t.Arena
  handle? : ∀ x, t.handle? x = if x ∈ l then none else s.handle? x
  mem_roots : ∀ x, x ∈ t.roots ↔ x ∈ s.roots ∧ x ∉ l
  clears : s.Clears (· ∈ l) t

/-! ## One node -/

theorem Arena.release (ha : s.Arena) {x : NodeId} {h : Handle} (hx : s.handle? x = some h) :
    ∃ t, s.release x = (1, t) ∧ s.Frees [x] t := by
  obtain ⟨n, hn, rfl⟩ := ha.get?_of_handle? hx
  refine ⟨(s.remove h).2, ?_, ha.remove hn, fun y => ?_, fun y => ?_, ?_⟩
  · simp only [Store.release, hx, remove_of_get? hn]
  · simp only [handle?_remove hn, List.mem_singleton]
  · simp only [mem_roots_remove hn, ne_eq, List.mem_singleton]
  · exact (ha.clears_remove hn).congr fun _ _ _ => List.mem_singleton.symm

/-! ## All nodes -/

theorem Arena.foldl_release (ha : s.Arena) {l : List NodeId} (hl : l.Nodup)
    (hlive : ∀ x ∈ l, ∃ h, s.handle? x = some h) (count : Nat) :
    ∃ t, l.foldl (fun p x => (p.1 + (p.2.release x).1, (p.2.release x).2)) (count, s) =
      (count + l.length, t) ∧ s.Frees l t := by
  induction l generalizing s count with
  | nil =>
      exact ⟨s, rfl, ha, fun _ => by simp, fun _ => by simp,
        (Keeps.refl s).clears fun _ _ _ => List.not_mem_nil⟩
  | cons x l ih =>
      obtain ⟨hnot, hl⟩ := List.nodup_cons.mp hl
      obtain ⟨h, hx⟩ := hlive x List.mem_cons_self
      obtain ⟨u, hu, hfree⟩ := ha.release hx
      have hlive' : ∀ y ∈ l, ∃ h, u.handle? y = some h := by
        intro y hy
        have hyx : y ∉ [x] := fun e => hnot (List.mem_singleton.mp e ▸ hy)
        rw [hfree.handle?, if_neg hyx]
        exact hlive y (List.mem_cons_of_mem x hy)
      obtain ⟨t, ht, hrest⟩ := ih hfree.arena hl hlive' (count + 1)
      refine ⟨t, ?_, hrest.arena, fun y => ?_, fun y => ?_, ?_⟩
      · rw [List.foldl_cons, hu, ht, List.length_cons, Nat.add_right_comm, Nat.add_assoc]
      · rw [hrest.handle?, hfree.handle?]
        by_cases hy : y = x <;> simp [hy]
      · rw [hrest.mem_roots, hfree.mem_roots]
        simp only [List.mem_cons, List.not_mem_nil, or_false, not_or, and_assoc]
      · exact (hfree.clears.trans hrest.clears).congr fun _ _ _ => by simp

/-- Releasing all counts the live nodes and leaves none. -/
theorem Arena.releaseAll (ha : s.Arena) :
    ∃ t, s.releaseAll = (s.size, t) ∧ s.Frees s.ids t := by
  obtain ⟨t, ht, hfree⟩ := ha.foldl_release s.nodup_ids (fun _ hx => mem_ids.mp hx) 0
  refine ⟨t, ?_, hfree⟩
  rw [length_ids, Nat.zero_add] at ht
  exact ht

theorem Frees.get?_eq_none {t : Store} (hf : s.Frees s.ids t) (h : Handle) : t.get? h = none := by
  cases hn : t.get? h with
  | none => rfl
  | some n =>
      have hh := (hf.arena.handle?_iff n.id h).mpr (id?_of_get? hn)
      rw [hf.handle?] at hh
      split at hh
      · cases hh
      · rename_i hnot
        exact absurd (mem_ids.mpr ⟨h, hh⟩) hnot

theorem WellFormed.releaseAll (hw : s.WellFormed) : s.releaseAll.2.WellFormed := by
  obtain ⟨t, ht, hf⟩ := hw.toArena.releaseAll
  have hnone := hf.get?_eq_none
  have hroots : ∀ x, x ∉ t.roots := by
    intro x hx
    obtain ⟨hx, hnot⟩ := (hf.mem_roots x).mp hx
    obtain ⟨h, n, hn, rfl, _⟩ := get?_of_mem_roots hw.toLinked hx
    exact hnot (mem_ids.mpr ⟨h, (hw.handle?_iff n.id h).mpr (id?_of_get? hn)⟩)
  rw [ht]
  exact {
    toArena := hf.arena
    mem_children := fun p c => by
      simp [children_of_get?_none (hnone p), parent?_of_get?_none (hnone c)]
    nodup_children := fun p => by
      rw [children_of_get?_none (hnone p)]; exact List.nodup_nil
    mem_roots := fun x => by
      simp only [hroots x, id?_of_get?_none (hnone _), reduceCtorEq, false_and, exists_false]
    rooted := fun h => .top (parent?_of_get?_none (hnone h)) }

end RetainedUi.Store
