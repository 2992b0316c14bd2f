import Mathlib.Data.List.Induction
import RetainedUi.Proofs.Edit.Slots

/-!
# What slots tell of the past

A store has as many slots as nodes were ever live at once, and remembers the highest id that was ever
created. Both are read off the run of operations that led to it.
-/

namespace RetainedUi

/-! ## The highest id -/

/-- The id is the highest of those with a property; without an id, none has it. -/
def IsHighest (p : NodeId → Prop) : Option NodeId → Prop
  | none => ∀ x, ¬ p x
  | some m => p m ∧ ∀ x, p x → x.value ≤ m.value

variable {p q : NodeId → Prop} {highest : Option NodeId}

theorem IsHighest.congr (h : IsHighest p highest) (hpq : ∀ x, p x ↔ q x) : IsHighest q highest := by
  obtain rfl : p = q := funext fun x => propext (hpq x)
  exact h

theorem IsHighest.raise (h : IsHighest p highest) (x : NodeId) :
    IsHighest (fun y => p y ∨ y = x) (Store.raiseMax highest x) := by
  cases highest with
  | none =>
      refine ⟨Or.inr rfl, ?_⟩
      rintro y (hy | rfl)
      · exact absurd hy (h y)
      · exact UInt32.le_refl _
  | some m =>
      obtain ⟨hm, hle⟩ := h
      simp only [Store.raiseMax]
      split
      · rename_i hlt
        refine ⟨Or.inr rfl, ?_⟩
        rintro y (hy | rfl)
        · exact UInt32.le_trans (hle y hy) (UInt32.le_of_lt hlt)
        · exact UInt32.le_refl _
      · rename_i hlt
        refine ⟨Or.inl hm, ?_⟩
        rintro y (hy | rfl)
        · exact hle y hy
        · exact UInt32.not_lt.mp hlt

namespace Store

variable {s t : Store} {op : Operation}

/-! ## One operation -/

/-- The slots become more only when more nodes are live than there were slots. -/
theorem Effect.slots_size (he : Effect s op t) (ht : t.Arena) :
    t.slots.size = max s.slots.size t.size := by
  cases he with
  | clears live slots =>
      have hle := ht.slots_size
      have hsize := slots.slots_size
      omega
  | fills creates deletes slots => exact slots.slots_size

theorem Effect.occupant? (he : Effect s op t) {i : UInt32} {x : NodeId}
    (hx : t.occupant? i = some x) : s.occupant? i = some x ∨ op.Creates s x := by
  rcases he.slot i with ⟨_, hi⟩ | ⟨_, hi | ⟨y, hy, hi⟩⟩
  · rw [hi.vacant] at hx
    cases hx
  · exact Or.inl (hi.occupant?.symm.trans hx)
  · rw [hi.occupant?, Option.some.injEq] at hx
    exact Or.inr (hx ▸ hy)

theorem Effect.isHighest (he : Effect s op t) (h : IsHighest p s.maxId)
    (hlive : ∀ x k, s.handle? x = some k → p x) :
    IsHighest (fun x => p x ∨ op.Creates s x) t.maxId := by
  cases he with
  | clears live slots =>
      rw [slots.maxId]
      refine h.congr fun x => (or_iff_left_of_imp fun hx => ?_).symm
      obtain ⟨k, hk⟩ := live x hx
      exact hlive x k hk
  | fills creates deletes slots =>
      rw [slots.maxId]
      exact (h.raise _).congr fun x => or_congr_right (creates x).symm

/-! ## Runs of operations -/

/-- An operation of a run that starts with an empty store created the id. -/
def Created (ops : List Operation) (x : NodeId) : Prop :=
  ∃ before op, before ++ [op] <+: ops ∧ op.Creates (empty.performAll before) x

theorem created_concat {ops : List Operation} {x : NodeId} :
    Created (ops ++ [op]) x ↔ Created ops x ∨ op.Creates (empty.performAll ops) x := by
  simp only [Created, List.prefix_concat_iff, or_and_right, exists_or]
  rw [or_comm]
  refine or_congr_right ⟨?_, fun h => ⟨ops, op, rfl, h⟩⟩
  rintro ⟨before, op', heq, hcreates⟩
  obtain ⟨hbefore, hop⟩ := List.append_inj' heq rfl
  cases hop
  exact hbefore ▸ hcreates

theorem created_of_live (ops : List Operation) {x : NodeId} {h : Handle}
    (hx : (empty.performAll ops).handle? x = some h) : Created ops x := by
  induction ops using List.reverseRecOn generalizing h with
  | nil => simp [performAll, empty, handle?] at hx
  | append_singleton ops op ih =>
      have hw := wellFormed_empty.performAll ops
      rw [performAll_concat] at hx
      obtain ⟨i, hi⟩ := (hw.perform op).exists_occupant?_iff.mpr ⟨h, hx⟩
      refine created_concat.mpr (((hw.effect_perform op).occupant? hi).imp_left fun hi' => ?_)
      obtain ⟨k, hk⟩ := hw.exists_occupant?_iff.mp ⟨i, hi'⟩
      exact ih hk

theorem isHighest_maxId (ops : List Operation) :
    IsHighest (Created ops) (empty.performAll ops).maxId := by
  induction ops using List.reverseRecOn with
  | nil => rintro x ⟨before, op, hpre, _⟩; simp at hpre
  | append_singleton ops op ih =>
      have he := (wellFormed_empty.performAll ops).effect_perform op
      rw [performAll_concat]
      exact (he.isHighest ih fun x _ => created_of_live ops).congr fun _ => created_concat.symm

/-- There are as many slots as nodes were ever live at once. -/
theorem slots_size_eq_peak (ops : List Operation) :
    (∃ before, before <+: ops ∧ (empty.performAll before).size = (empty.performAll ops).slots.size) ∧
      ∀ before, before <+: ops → (empty.performAll before).size ≤ (empty.performAll ops).slots.size := by
  induction ops using List.reverseRecOn with
  | nil =>
      refine ⟨⟨[], List.prefix_rfl, rfl⟩, fun before hpre => ?_⟩
      rw [List.prefix_nil.mp hpre]
      exact Nat.le_refl _
  | append_singleton ops op ih =>
      obtain ⟨⟨peak, hpeak, hsize⟩, hle⟩ := ih
      have hw := wellFormed_empty.performAll ops
      -- The peak stays where it was, unless more nodes are live now than there were slots.
      have hstep := (hw.effect_perform op).slots_size (hw.perform op).toArena
      rw [← performAll_concat] at hstep
      constructor
      · rcases Nat.le_total (empty.performAll (ops ++ [op])).size
          (empty.performAll ops).slots.size with hle' | hle'
        · exact ⟨peak, hpeak.trans (List.prefix_append ops [op]), by omega⟩
        · exact ⟨ops ++ [op], List.prefix_rfl, by omega⟩
      · intro before hpre
        rcases List.prefix_concat_iff.mp hpre with rfl | hpre
        · omega
        · have := hle before hpre
          omega

/-! ## The bookkeeping -/

theorem ids_ascend (s : Store) : s.ids.Pairwise fun x y => x.value < y.value :=
  s.index.ordered_keys.imp fun h => Std.compare_eq_lt (α := UInt32) |>.mp h

theorem Arena.mem_free_iff (ha : s.Arena) {i : UInt32} :
    i ∈ s.free ↔ i.toNat < s.slots.size ∧ s.occupant? i = none := by
  rw [ha.mem_free]
  cases hg : s.generation? i with
  | none =>
      have hle := generation?_eq_none_iff.mp hg
      simp only [reduceCtorEq, false_and, exists_false, false_iff, not_and]
      omega
  | some g =>
      have hlt : i.toNat < s.slots.size := by
        by_contra hge
        rw [generation?_eq_none_iff.mpr (by omega)] at hg
        cases hg
      simp only [Option.some.injEq, exists_eq_left', hlt, true_and, occupant?_eq_none_iff hg]

/-- Releasing all nodes counts them, and leaves none. -/
theorem WellFormed.releaseAll_empties (hw : s.WellFormed) :
    s.releaseAll.1 = s.size ∧ s.releaseAll.2.size = 0 ∧ s.releaseAll.2.parentless = [] ∧
      (∀ i, s.releaseAll.2.occupant? i = none) ∧ s.releaseAll.2.releaseAll.1 = 0 := by
  have hw' := hw.releaseAll
  obtain ⟨t, ht, hf⟩ := hw.toArena.releaseAll
  rw [ht] at hw' ⊢
  have hnone := hf.get?_eq_none
  have hsize : t.size = 0 := hw'.size_eq_zero_iff.mpr hnone
  refine ⟨rfl, hsize, ?_, fun i => ?_, ?_⟩
  · rw [parentless, List.eq_nil_iff_forall_not_mem]
    intro x hx
    obtain ⟨h, hid, _⟩ := (hw'.mem_roots x).mp (Std.ExtTreeSet.mem_toList.mp hx)
    rw [id?_of_get?_none (hnone h)] at hid
    cases hid
  · rw [Option.eq_none_iff_forall_ne_some]
    intro x hx
    obtain ⟨hx, hnot⟩ := hf.clears.occupant?_eq_some_iff.mp hx
    exact hnot (mem_ids.mpr (hw.exists_occupant?_iff.mp ⟨i, hx⟩))
  · obtain ⟨u, hu, _⟩ := hf.arena.releaseAll
    rw [hu, hsize]

/-- After any run of operations the index leads from each live id to the slot that holds its node, at
the slot's generation, and no two slots hold the same id; the free list names each empty slot once;
there are as many slots as nodes were ever live at once; the highest id is that of all that were
created; the live ids are listed in ascending order; and releasing all nodes counts them and leaves
nothing to be released. -/
theorem bookkeeping_agrees (ops : List Operation) :
    let s := empty.performAll ops
    (∀ x h, s.handle? x = some h ↔
      s.generation? h.index = some h.generation ∧ s.occupant? h.index = some x) ∧
    (∀ i j x, s.occupant? i = some x → s.occupant? j = some x → i = j) ∧
    s.free.Nodup ∧ (∀ i, i ∈ s.free ↔ i.toNat < s.slots.size ∧ s.occupant? i = none) ∧
    (∃ before, before <+: ops ∧ (empty.performAll before).size = s.slots.size) ∧
    (∀ before, before <+: ops → (empty.performAll before).size ≤ s.slots.size) ∧
    s.slots.size ≤ 2147483647 ∧
    IsHighest (Created ops) s.maxId ∧
    (s.ids.Pairwise fun x y => x.value < y.value) ∧
    (∀ x, x ∈ s.ids ↔ ∃ i, s.occupant? i = some x) ∧ s.ids.length = s.size ∧
    s.releaseAll.1 = s.size ∧ s.releaseAll.2.size = 0 ∧ s.releaseAll.2.parentless = [] ∧
    (∀ i, s.releaseAll.2.occupant? i = none) ∧ s.releaseAll.2.releaseAll.1 = 0 := by
  have hw := wellFormed_empty.performAll ops
  obtain ⟨hreached, hpeak⟩ := slots_size_eq_peak ops
  refine ⟨fun x h => ?_, fun i j x hi hj => ?_, hw.nodup_free, fun i => hw.mem_free_iff, hreached, hpeak,
    hw.slots_le, isHighest_maxId ops, ids_ascend _, fun x => ?_, length_ids _, hw.releaseAll_empties⟩
  · rw [hw.handle?_iff, id?_eq_some_iff]
  · obtain ⟨g, _, hg⟩ := hw.handle?_eq_of_occupant? hi
    obtain ⟨g', _, hg'⟩ := hw.handle?_eq_of_occupant? hj
    rw [hg] at hg'
    cases hg'
    rfl
  · rw [mem_ids, hw.exists_occupant?_iff]

end Store

end RetainedUi
