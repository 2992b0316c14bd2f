import RetainedUi.Proofs.Store.Links

/-!
# Slots over time

What a change of a store does to each of its slots: a slot stays as it is, its node is taken out and
its generation counted up, or a node is put into it while it is empty.
-/

namespace RetainedUi.Store

variable {s t u : Store} {i : UInt32}

/-! ## Looking at a slot -/

/-- The id of the node in a slot, if there is one. -/
def occupant? (s : Store) (i : UInt32) : Option NodeId :=
  s.slots[i.toNat]?.bind fun slot => slot.node.map Node.id

theorem id?_eq_some_iff {h : Handle} {x : NodeId} :
    s.id? h = some x ↔ s.generation? h.index = some h.generation ∧ s.occupant? h.index = some x := by
  simp only [id?, get?, generation?, occupant?]
  cases s.slots[h.index.toNat]? with
  | none => simp
  | some slot => by_cases hg : slot.generation = h.generation <;> simp [hg]

theorem occupant?_eq (s : Store) (i : UInt32) :
    s.occupant? i = (s.generation? i).bind fun g => s.id? ⟨i, g⟩ := by
  simp only [id?, get?, generation?, occupant?]
  cases s.slots[i.toNat]? with
  | none => rfl
  | some slot => simp

theorem generation?_eq_none_iff : s.generation? i = none ↔ s.slots.size ≤ i.toNat := by
  rw [generation?, Option.map_eq_none_iff, Array.getElem?_eq_none_iff]

theorem exists_generation? {x : NodeId} (hx : s.occupant? i = some x) :
    ∃ g, s.generation? i = some g ∧ s.id? ⟨i, g⟩ = some x := by
  rw [occupant?_eq] at hx
  exact Option.bind_eq_some_iff.mp hx

theorem occupant?_eq_none_iff {g : UInt32} (hg : s.generation? i = some g) :
    s.occupant? i = none ↔ s.get? ⟨i, g⟩ = none := by
  rw [occupant?_eq, hg, Option.bind_some, id?, Option.map_eq_none_iff]

theorem Arena.handle?_eq_of_occupant? (ha : s.Arena) {x : NodeId} (hx : s.occupant? i = some x) :
    ∃ g, s.generation? i = some g ∧ s.handle? x = some ⟨i, g⟩ := by
  obtain ⟨g, hg, hid⟩ := exists_generation? hx
  exact ⟨g, hg, (ha.handle?_iff x ⟨i, g⟩).mpr hid⟩

theorem Arena.exists_occupant?_iff (ha : s.Arena) {x : NodeId} :
    (∃ i, s.occupant? i = some x) ↔ ∃ h, s.handle? x = some h := by
  constructor
  · rintro ⟨i, hi⟩
    obtain ⟨g, _, hx⟩ := ha.handle?_eq_of_occupant? hi
    exact ⟨⟨i, g⟩, hx⟩
  · rintro ⟨h, hx⟩
    exact ⟨h.index, (id?_eq_some_iff.mp ((ha.handle?_iff x h).mp hx)).2⟩

/-! ## What becomes of a slot -/

/-- A slot stays as it is. -/
structure KeepsSlot (s t : Store) (i : UInt32) : Prop where
  generation? : t.generation? i = s.generation? i
  occupant? : t.occupant? i = s.occupant? i

/-- The node in a slot is taken out, and the generation counted up. -/
structure EmptiesSlot (s t : Store) (i : UInt32) : Prop where
  generation? : t.generation? i = (s.generation? i).map (· + 1)
  vacant : t.occupant? i = none

/-- A node is put into an empty slot, or into a new one. -/
structure FillsSlot (s : Store) (x : NodeId) (t : Store) (i : UInt32) : Prop where
  generation? : ∀ g, s.generation? i = some g → t.generation? i = some g
  vacant : s.occupant? i = none
  occupant? : t.occupant? i = some x

theorem Keeps.slot (hk : s.Keeps t) (i : UInt32) : s.KeepsSlot t i where
  generation? := hk.generation? i
  occupant? := by simp only [occupant?_eq, hk.generation?, hk.id?]

/-! ## Taking nodes out -/

/-- In `t` the slots whose nodes have certain ids are emptied; the others stay as they are. -/
structure Clears (s : Store) (gone : NodeId → Prop) (t : Store) : Prop where
  slots_size : t.slots.size = s.slots.size
  maxId : t.maxId = s.maxId
  slot : ∀ i, (∃ x, s.occupant? i = some x ∧ gone x) ∧ s.EmptiesSlot t i ∨
    (∀ x, s.occupant? i = some x → ¬ gone x) ∧ s.KeepsSlot t i

variable {gone gone' : NodeId → Prop}

theorem Keeps.clears (hk : s.Keeps t) (hgone : ∀ i x, s.occupant? i = some x → ¬ gone x) :
    s.Clears gone t where
  slots_size := hk.slots_size
  maxId := hk.maxId
  slot i := Or.inr ⟨hgone i, hk.slot i⟩

theorem Clears.congr (hc : s.Clears gone t)
    (h : ∀ i x, s.occupant? i = some x → (gone x ↔ gone' x)) : s.Clears gone' t where
  slots_size := hc.slots_size
  maxId := hc.maxId
  slot i := by
    rcases hc.slot i with ⟨⟨x, hx, hgone⟩, hi⟩ | ⟨hnot, hi⟩
    · exact Or.inl ⟨⟨x, hx, (h i x hx).mp hgone⟩, hi⟩
    · exact Or.inr ⟨fun x hx => mt (h i x hx).mpr (hnot x hx), hi⟩

theorem Clears.trans (hc : s.Clears gone t) (hc' : t.Clears gone' u) :
    s.Clears (fun x => gone x ∨ gone' x) u where
  slots_size := hc'.slots_size.trans hc.slots_size
  maxId := hc'.maxId.trans hc.maxId
  slot i := by
    rcases hc.slot i with ⟨⟨x, hx, hgone⟩, hi⟩ | ⟨hnot, hi⟩
    · -- An emptied slot has nothing more to be taken out.
      rcases hc'.slot i with ⟨⟨y, hy, _⟩, _⟩ | ⟨_, hi'⟩
      · rw [hi.vacant] at hy
        cases hy
      · exact Or.inl ⟨⟨x, hx, Or.inl hgone⟩,
          hi'.generation?.trans hi.generation?, hi'.occupant?.trans hi.vacant⟩
    · rcases hc'.slot i with ⟨⟨y, hy, hgone⟩, hi'⟩ | ⟨hnot', hi'⟩
      · rw [hi.occupant?] at hy
        exact Or.inl ⟨⟨y, hy, Or.inr hgone⟩, by rw [hi'.generation?, hi.generation?], hi'.vacant⟩
      · refine Or.inr ⟨fun x hx => not_or.mpr ⟨hnot x hx, hnot' x ?_⟩,
          hi'.generation?.trans hi.generation?, hi'.occupant?.trans hi.occupant?⟩
        rw [hi.occupant?, hx]

/-- Whose slot stays, stays in it. -/
theorem Clears.occupant?_eq_some_iff (hc : s.Clears gone t) {x : NodeId} :
    t.occupant? i = some x ↔ s.occupant? i = some x ∧ ¬ gone x := by
  rcases hc.slot i with ⟨⟨y, hy, hgone⟩, hi⟩ | ⟨hnot, hi⟩
  · rw [hi.vacant, hy]
    simp only [reduceCtorEq, Option.some.injEq, false_iff, not_and, not_not]
    rintro rfl
    exact hgone
  · rw [hi.occupant?]
    exact ⟨fun hx => ⟨hx, hnot x hx⟩, And.left⟩

theorem Arena.clears_remove (ha : s.Arena) {h : Handle} {n : Node} (hn : s.get? h = some n) :
    s.Clears (· = n.id) (s.remove h).2 where
  slots_size := by rw [remove_of_get? hn]; exact Array.size_modify
  maxId := by rw [remove_of_get? hn]
  slot i := by
    obtain ⟨hg, ho⟩ := id?_eq_some_iff.mp (id?_of_get? hn)
    have hocc : ∀ j, (s.remove h).2.occupant? j = if j = h.index then none else s.occupant? j := by
      intro j
      simp only [occupant?_eq, generation?_remove hn, id?_remove hn]
      by_cases hj : j = h.index
      · -- The generation is new, and no handle of it has been given out.
        have hstale : s.id? ⟨h.index, h.generation + 1⟩ = none := by
          rw [Option.eq_none_iff_forall_ne_some]
          intro x hx
          have hg' := (id?_eq_some_iff.mp hx).1
          rw [hg, Option.some.injEq] at hg'
          simp at hg'
        simp [hj, hstale]
      · have hk : ∀ g, (⟨j, g⟩ : Handle) ≠ h := fun g e => hj (by rw [← e])
        simp only [hj, hk, ↓reduceIte]
    by_cases hi : i = h.index
    · refine Or.inl ⟨⟨n.id, by rw [hi, ho], rfl⟩, ?_, by rw [hocc, if_pos hi]⟩
      rw [generation?_remove hn, if_pos hi, hi, hg, Option.map_some]
    · refine Or.inr ⟨fun x hx hxn => hi ?_, by rw [generation?_remove hn, if_neg hi],
        by rw [hocc, if_neg hi]⟩
      obtain ⟨g, _, hx⟩ := exists_generation? hx
      rw [← ha.id?_inj (hxn ▸ hx) (id?_of_get? hn)]

theorem Linked.clears_delete (hl : s.Linked) (ha : s.Arena) {h : Handle} {n : Node}
    (hn : s.get? h = some n) : s.Clears (· = n.id) (s.delete h) := by
  have hdetach : s.Clears (fun _ => False) (s.detach h) :=
    (keeps_detach s h).clears fun _ _ _ => not_false
  have hremove := (ha.of_keeps (keeps_detach s h)).clears_remove (hl.get?_detach_self hn)
  have horphan : ((s.detach h).remove h).2.Clears (fun _ => False) (s.delete h) := by
    rw [hl.delete_eq hn]
    exact (keeps_foldl_orphan _ _).clears fun _ _ _ => not_false
  exact ((hdetach.trans hremove).trans horphan).congr fun _ _ _ => by simp

/-! ## Putting a node in -/

/-- In `t` a node of id `x` is put into a slot, and the other slots stay as they are. The slots become
more only when the live nodes would be more than them. -/
structure Fills (s : Store) (x : NodeId) (t : Store) : Prop where
  slots_size : t.slots.size = max s.slots.size t.size
  maxId : t.maxId = raiseMax s.maxId x
  slot : ∃ j, s.FillsSlot x t j ∧ ∀ i, i ≠ j → s.KeepsSlot t i

theorem Puts.slot {h : Handle} {n : Node} (hp : s.Puts h n t) (hvacant : s.occupant? h.index = none)
    (hself : ∀ g, s.generation? h.index = some g → g = h.generation)
    (hother : ∀ i, i ≠ h.index → t.generation? i = s.generation? i) :
    ∃ j, s.FillsSlot n.id t j ∧ ∀ i, i ≠ j → s.KeepsSlot t i := by
  have hn : t.get? h = some n := by rw [hp.get?, if_pos rfl]
  obtain ⟨hg, ho⟩ := id?_eq_some_iff.mp (id?_of_get? hn)
  refine ⟨h.index, ⟨fun g hg' => by rw [hg, hself g hg'], hvacant, ho⟩, fun i hi => ⟨hother i hi, ?_⟩⟩
  have hk : ∀ g, (⟨i, g⟩ : Handle) ≠ h := fun g e => hi (by rw [← e])
  simp only [occupant?_eq, hother i hi, hp.id?, hk, ↓reduceIte]

theorem Arena.fills_of_free (ha : s.Arena) {x : NodeId} (hn : s.handle? x = none) {i : UInt32}
    {rest : List UInt32} (hf : s.free = i :: rest) (kind : NodeKind) :
    s.Fills x (s.insert x kind).2 := by
  obtain ⟨g, hg, hstale⟩ := (ha.mem_free i).mp (hf ▸ List.mem_cons_self)
  have hp := puts_of_free hf hg hstale x kind
  have hslots : (s.insert x kind).2.slots.size = s.slots.size := by
    rw [Store.insert_of_free hf]; exact Array.size_modify
  refine ⟨?_, by rw [Store.insert_of_free hf], hp.slot ((occupant?_eq_none_iff hg).mpr hstale) ?_ ?_⟩
  · have hle := ha.slots_size
    rw [hf, List.length_cons] at hle
    rw [hslots, hp.size hn]
    omega
  · intro g' hg'
    rw [hg] at hg'
    exact (Option.some.inj hg').symm
  · intro j hj
    have hne : i.toNat ≠ j.toNat := fun e => hj (UInt32.toNat_inj.mp e).symm
    simp only [Store.insert_of_free hf, generation?, Array.getElem?_modify, hne, ↓reduceIte]

theorem Arena.fills_of_full (ha : s.Arena) {x : NodeId} (hx : x.Valid) (hn : s.handle? x = none)
    (hf : s.free = []) (kind : NodeKind) : s.Fills x (s.insert x kind).2 := by
  have hsize : s.slots.size = s.size := by rw [ha.slots_size, hf, List.length_nil, Nat.add_zero]
  have hlt : s.slots.size < UInt32.size := by
    rw [hsize]; exact Nat.lt_trans (ha.size_lt_count hx hn) (by decide)
  have hnat : (UInt32.ofNat s.slots.size).toNat = s.slots.size := UInt32.toNat_ofNat_of_lt' hlt
  have hp := puts_of_full hf hlt x kind
  have hnew : s.generation? (.ofNat s.slots.size) = none :=
    generation?_eq_none_iff.mpr (Nat.le_of_eq hnat.symm)
  refine ⟨?_, by rw [Store.insert_of_full hf hlt], hp.slot ?_ ?_ ?_⟩
  · rw [hp.size hn, Store.insert_of_full hf hlt, ← hsize]
    exact (Array.size_push _).trans (Nat.max_eq_right (Nat.le_succ _)).symm
  · rw [occupant?_eq, hnew, Option.bind_none]
  · intro g hg
    rw [hnew] at hg
    cases hg
  · intro j hj
    have hne : j.toNat ≠ s.slots.size := fun e => hj (UInt32.toNat_inj.mp (e.trans hnat.symm))
    simp only [Store.insert_of_full hf hlt, generation?, Array.getElem?_push, hne, ↓reduceIte]

/-- Putting in a node for an id that is not live fills one slot, used before or new. -/
theorem Arena.fills_insert (ha : s.Arena) {x : NodeId} (hx : x.Valid) (hn : s.handle? x = none)
    (kind : NodeKind) : s.Fills x (s.insert x kind).2 := by
  cases hf : s.free with
  | cons i rest => exact ha.fills_of_free hn hf kind
  | nil => exact ha.fills_of_full hx hn hf kind

end RetainedUi.Store
