import RetainedUi.Proofs.Edit.Slots

/-!
# Handles over time

The generation of a slot counts the nodes that were taken out of it. A handle therefore finds the node
that it was given for until that is deleted, and after that nothing, until the count comes round.
-/

namespace RetainedUi.Store

variable {s t : Store} {op : Operation} {i g : UInt32} {h : Handle} {x : NodeId}

/-! ## Nodes taken out of a slot -/

/-- The node in a slot of `s` is gone in `t`, and no other is there. -/
def Vacates (s : Store) (i : UInt32) (t : Store) : Prop := s.occupant? i ≠ none ∧ t.occupant? i = none

instance : Decidable (s.Vacates i t) := inferInstanceAs (Decidable (_ ∧ _))

/-- How many nodes operations take out of a slot. -/
def removals (s : Store) (i : UInt32) : List Operation → Nat
  | [] => 0
  | op :: ops => (if s.Vacates i (s.perform op) then 1 else 0) + (s.perform op).removals i ops

/-! ## One operation -/

/-- A node leaves its slot when an operation deletes it, and never otherwise. -/
theorem Effect.vacates_iff (he : Effect s op t) :
    s.Vacates i t ↔ ∃ x, s.occupant? i = some x ∧ op.Deletes x := by
  rcases he.slot i with ⟨⟨x, hx, hdel⟩, hi⟩ | ⟨hnot, hi⟩
  · exact iff_of_true ⟨by rw [hx]; exact Option.some_ne_none x, hi.vacant⟩ ⟨x, hx, hdel⟩
  · refine iff_of_false ?_ fun ⟨x, hx, hdel⟩ => hnot x hx hdel
    rintro ⟨hs, ht⟩
    rcases hi with hi | ⟨y, _, hi⟩
    · exact hs (hi.occupant?.symm.trans ht)
    · exact hs hi.vacant

theorem Effect.generation? (he : Effect s op t) (hg : s.generation? i = some g) :
    t.generation? i = some (if s.Vacates i t then g + 1 else g) := by
  rcases he.slot i with ⟨hdel, hi⟩ | ⟨hnot, hi⟩
  · rw [hi.generation?, hg, if_pos (he.vacates_iff.mpr hdel), Option.map_some]
  · rw [if_neg (mt he.vacates_iff.mp fun ⟨x, hx, hdel⟩ => hnot x hx hdel)]
    rcases hi with hi | ⟨y, _, hi⟩
    · rw [hi.generation?, hg]
    · exact hi.generation? g hg

/-- The node of a handle stays there through an operation that does not delete it. -/
theorem Effect.id?_of_not_deletes (he : Effect s op t) (hx : s.id? h = some x)
    (hdel : ¬ op.Deletes x) : t.id? h = some x := by
  rw [id?_eq_some_iff] at hx ⊢
  rcases he.slot h.index with ⟨⟨y, hy, hdel'⟩, _⟩ | ⟨_, hi | ⟨y, _, hi⟩⟩
  · rw [hx.2, Option.some.injEq] at hy
    exact absurd (hy ▸ hdel') hdel
  · rw [hi.generation?, hi.occupant?]
    exact hx
  · rw [hi.vacant] at hx
    cases hx.2

/-! ## Runs of operations -/

theorem WellFormed.generation?_performAll (hw : s.WellFormed) (hg : s.generation? i = some g)
    (ops : List Operation) :
    (s.performAll ops).generation? i = some (g + .ofNat (s.removals i ops)) := by
  induction ops generalizing s g with
  | nil => exact hg.trans (congrArg some (UInt32.add_zero g).symm)
  | cons op ops ih =>
      have hstep := ih (hw.perform op) ((hw.effect_perform op).generation? hg)
      rw [performAll_cons, hstep, removals, UInt32.ofNat_add, ← UInt32.add_assoc]
      congr 2
      split
      · rfl
      · exact (UInt32.add_zero g).symm

example : (empty.apply (.createNode 1 1)).2.removals 0
    [.apply (.deleteNode 1), .apply (.createNode 2 5), .apply (.deleteNode 2)] = 2 := by decide

theorem WellFormed.id?_performAll (hw : s.WellFormed) (hx : s.id? h = some x) {ops : List Operation}
    (hdel : ∀ op ∈ ops, ¬ op.Deletes x) : (s.performAll ops).id? h = some x := by
  induction ops generalizing s with
  | nil => exact hx
  | cons op ops ih =>
      have hop := (hw.effect_perform op).id?_of_not_deletes hx (hdel op List.mem_cons_self)
      exact ih (hw.perform op) hop fun op' hmem => hdel op' (List.mem_cons_of_mem op hmem)

theorem WellFormed.removals_pos (hw : s.WellFormed) (hx : s.id? h = some x) {ops : List Operation}
    (hdel : ∃ op ∈ ops, op.Deletes x) : 0 < s.removals h.index ops := by
  induction ops generalizing s with
  | nil => obtain ⟨_, hmem, _⟩ := hdel; cases hmem
  | cons op ops ih =>
      have he := hw.effect_perform op
      rw [removals]
      by_cases hop : op.Deletes x
      · rw [if_pos (he.vacates_iff.mpr ⟨x, (id?_eq_some_iff.mp hx).2, hop⟩)]
        omega
      · -- The first deletion of the node comes later, and finds it in the same slot.
        have hlater : ∃ op' ∈ ops, op'.Deletes x := by
          obtain ⟨op', hmem, hop'⟩ := hdel
          rcases List.mem_cons.mp hmem with rfl | hmem
          · exact absurd hop' hop
          · exact ⟨op', hmem, hop'⟩
        have := ih (hw.perform op) (he.id?_of_not_deletes hx hop) hlater
        omega

/-! ## What a handle finds -/

theorem isSome_get?_iff :
    (s.get? h).isSome ↔ s.generation? h.index = some h.generation ∧ s.occupant? h.index ≠ none := by
  simp only [get?, generation?, occupant?]
  cases s.slots[h.index.toNat]? with
  | none => simp
  | some slot => by_cases hg : slot.generation = h.generation <;> simp [hg, Option.isSome_iff_ne_none]

theorem add_ofNat_eq_self_iff (g : UInt32) (n : Nat) : g + .ofNat n = g ↔ UInt32.size ∣ n := by
  rw [UInt32.add_eq_left, UInt32.ofNat_eq_iff_mod_eq_toNat]
  exact Nat.dvd_iff_mod_eq_zero.symm

/-- A handle that was given for a live node finds it as long as that is not deleted. Afterwards it finds
something exactly if there is a node in the slot and the number of the nodes taken out of it is a
multiple of the number of generations, and so nothing once the node is deleted, whatever is in the slot
by then, as long as the generations have not come round. -/
theorem Reachable.handle_finds (hs : s.Reachable) (hx : s.handle? x = some h) (ops : List Operation) :
    ((∀ op ∈ ops, ¬ op.Deletes x) → ∃ n, (s.performAll ops).get? h = some n ∧ n.id = x) ∧
    (((s.performAll ops).get? h).isSome ↔
      (s.performAll ops).occupant? h.index ≠ none ∧ UInt32.size ∣ s.removals h.index ops) ∧
    ((∃ op ∈ ops, op.Deletes x) → s.removals h.index ops < UInt32.size → (s.performAll ops).get? h = none) := by
  have hw := hs.wellFormed
  have hid : s.id? h = some x := (hw.handle?_iff x h).mp hx
  have hsome : ((s.performAll ops).get? h).isSome ↔
      (s.performAll ops).occupant? h.index ≠ none ∧ UInt32.size ∣ s.removals h.index ops := by
    rw [isSome_get?_iff, hw.generation?_performAll (id?_eq_some_iff.mp hid).1, Option.some.injEq,
      add_ofNat_eq_self_iff]
    exact and_comm
  refine ⟨fun hdel => ?_, hsome, fun hdel hlt => ?_⟩
  · obtain ⟨n, hn, hn'⟩ := Option.map_eq_some_iff.mp (hw.id?_performAll hid hdel)
    exact ⟨n, hn, hn'⟩
  · rw [← Option.not_isSome_iff_eq_none, hsome]
    rintro ⟨_, hdvd⟩
    exact absurd (Nat.le_of_dvd (hw.removals_pos hid hdel) hdvd) (Nat.not_le.mpr hlt)

/-- A node is deleted, and its id created again, in the same slot. -/
theorem handle_finds_recreated :
    let s := (empty.apply (.createNode 1 1)).2
    let ops := [.apply (.deleteNode 1), .apply (.createNode 1 5)]
    s.handle? ⟨1⟩ = some ⟨0, 0⟩ ∧ (s.performAll ops).handle? ⟨1⟩ = some ⟨0, 1⟩ ∧
      (s.performAll ops).get? ⟨0, 0⟩ = none := by
  have hs := Reachable.empty.apply (.createNode 1 1)
  have hx : (empty.apply (.createNode 1 1)).2.handle? ⟨1⟩ = some ⟨0, 0⟩ := by decide
  have hfinds := hs.handle_finds hx [.apply (.deleteNode 1), .apply (.createNode 1 5)]
  exact ⟨hx, by decide, hfinds.2.2 ⟨_, List.mem_cons_self, rfl⟩ (by decide)⟩

end RetainedUi.Store
