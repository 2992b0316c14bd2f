import Mathlib.Data.List.Nodup
import Mathlib.Data.List.Perm.Subperm
import RetainedUi.Proofs.Store.View

/-!
# Slots, free list and index

The three agree in every store that edits produce: the index leads from each live id to the handle
that finds it, and the free list names the empty slots. There are at most as many slots as ids, so
a slot number never runs out.
-/

namespace RetainedUi

/-! ## Ids -/

namespace NodeId

/-- How many ids there are. -/
def count : Nat := 2147483647

/-- The id is one that words name. -/
def Valid (x : NodeId) : Prop := 0 < x.value.toNat ∧ x.value.toNat ≤ count

theorem valid_of_ofWord? {w : Int32} {x : NodeId} (h : ofWord? w = some x) : x.Valid := by
  simp only [ofWord?] at h
  split at h
  · rename_i hw
    cases h
    have hpos : 0 < w.toBitVec.toInt := by simpa [Int32.lt_iff_toInt_lt] using hw
    have hlt := w.toBitVec.isLt
    simp only [BitVec.toInt_eq_toNat_cond] at hpos
    show 0 < w.toBitVec.toNat ∧ w.toBitVec.toNat ≤ 2147483647
    split at hpos <;> omega
  · cases h

theorem length_le_count {l : List NodeId} (hl : l.Nodup) (hv : ∀ x ∈ l, x.Valid) :
    l.length ≤ count := by
  have hnodup : (l.map fun x => x.value.toNat).Nodup := by
    refine hl.map fun x y hxy => ?_
    cases x; cases y
    exact congrArg NodeId.mk (UInt32.toNat_inj.mp hxy)
  have hsub : (l.map fun x => x.value.toNat) ⊆ List.range' 1 count := by
    intro v hvl
    obtain ⟨x, hx, rfl⟩ := List.mem_map.mp hvl
    obtain ⟨hpos, hle⟩ := hv x hx
    exact List.mem_range'_1.mpr ⟨hpos, by omega⟩
  simpa only [List.length_map, List.length_range'] using (hnodup.subperm hsub).length_le

end NodeId

namespace Store

variable {s t : Store}

/-! ## The invariant -/

/-- Slots, free list and index of a store agree. -/
structure Arena (s : Store) : Prop where
  handle?_iff : ∀ x h, s.handle? x = some h ↔ s.id? h = some x
  valid : ∀ h x, s.id? h = some x → x.Valid
  nodup_free : s.free.Nodup
  mem_free : ∀ i, i ∈ s.free ↔ ∃ g, s.generation? i = some g ∧ s.get? ⟨i, g⟩ = none
  slots_size : s.slots.size = s.size + s.free.length
  slots_le : s.slots.size ≤ NodeId.count

theorem Arena.id?_inj (ha : s.Arena) {h k : Handle} {x : NodeId} (hh : s.id? h = some x)
    (hk : s.id? k = some x) : h = k :=
  Option.some.inj (((ha.handle?_iff x h).mpr hh).symm.trans ((ha.handle?_iff x k).mpr hk))

theorem Arena.node?_eq (ha : s.Arena) {h : Handle} {n : Node} (hn : s.get? h = some n) :
    s.node? n.id = some n := by
  rw [node?, (ha.handle?_iff n.id h).mpr (id?_of_get? hn), Option.bind_some, hn]

theorem Arena.get?_of_handle? (ha : s.Arena) {x : NodeId} {h : Handle}
    (hx : s.handle? x = some h) : ∃ n, s.get? h = some n ∧ n.id = x :=
  get?_of_id? ((ha.handle?_iff x h).mp hx)

theorem Arena.of_keeps (ha : s.Arena) (hk : s.Keeps t) : t.Arena where
  handle?_iff x h := by rw [hk.handle?, hk.id?, ha.handle?_iff]
  valid h x hx := ha.valid h x (by rwa [hk.id?] at hx)
  nodup_free := by rw [hk.free]; exact ha.nodup_free
  mem_free i := by simp only [hk.free, hk.generation?, hk.get?_eq_none_iff, ha.mem_free]
  slots_size := by rw [hk.slots_size, hk.free, size, hk.index]; exact ha.slots_size
  slots_le := by rw [hk.slots_size]; exact ha.slots_le

theorem arena_empty : empty.Arena where
  handle?_iff x h := by simp [handle?, id?, get?, empty]
  valid h x hx := by simp [id?, get?, empty] at hx
  nodup_free := List.nodup_nil
  mem_free i := by simp [empty, generation?]
  slots_size := by simp [empty, size]
  slots_le := Nat.zero_le _

/-! ## Live ids -/

theorem nodup_ids (s : Store) : s.ids.Nodup :=
  s.index.distinct_keys.imp fun h => by simpa using h

theorem length_ids (s : Store) : s.ids.length = s.size := s.index.length_keys

theorem mem_ids {x : NodeId} : x ∈ s.ids ↔ ∃ h, s.handle? x = some h := by
  rw [ids, Std.ExtTreeMap.mem_keys, Std.ExtTreeMap.mem_iff_isSome_getElem?,
    Option.isSome_iff_exists]
  rfl

theorem Arena.valid_of_mem_ids (ha : s.Arena) {x : NodeId} (hx : x ∈ s.ids) : x.Valid := by
  obtain ⟨h, hh⟩ := mem_ids.mp hx
  exact ha.valid h x ((ha.handle?_iff x h).mp hh)

/-- While an id is left, not all of the ids are live. -/
theorem Arena.size_lt_count (ha : s.Arena) {x : NodeId} (hx : x.Valid) (hn : s.handle? x = none) :
    s.size < NodeId.count := by
  have hnot : x ∉ s.ids := by
    rw [mem_ids, hn]; exact nofun
  have hle := NodeId.length_le_count (List.nodup_cons.mpr ⟨hnot, s.nodup_ids⟩)
    (List.forall_mem_cons.mpr ⟨hx, fun y hy => ha.valid_of_mem_ids hy⟩)
  rw [List.length_cons, length_ids] at hle
  omega

/-! ## Putting a node in -/

/-- In `t` the handle `h`, stale in `s`, finds the parentless node `n`; nothing else has changed. -/
structure Puts (s : Store) (h : Handle) (n : Node) (t : Store) : Prop where
  stale : s.get? h = none
  get? : ∀ k, t.get? k = if k = h then some n else s.get? k
  index : t.index = s.index.insert n.id h
  roots : t.roots = s.roots.insert n.id

theorem Puts.id? {h : Handle} {n : Node} (hp : s.Puts h n t) (k : Handle) :
    t.id? k = if k = h then some n.id else s.id? k := by
  simp only [Store.id?, hp.get?]
  split <;> rfl

theorem Puts.handle? {h : Handle} {n : Node} (hp : s.Puts h n t) (x : NodeId) :
    t.handle? x = if x = n.id then some h else s.handle? x := by
  simp only [Store.handle?, hp.index, Std.ExtTreeMap.getElem?_insert, Std.compare_eq_iff_eq,
    @eq_comm _ n.id]

theorem Puts.size {h : Handle} {n : Node} (hp : s.Puts h n t) (hn : s.handle? n.id = none) :
    t.size = s.size + 1 := by
  have hnot : ¬ s.index.contains n.id = true := by
    rw [Std.ExtTreeMap.contains_eq_isSome_getElem?, show s.index[n.id]? = none from hn]
    exact nofun
  rw [Store.size, hp.index, Std.ExtTreeMap.size_insert, if_neg hnot, Store.size]

theorem Arena.handle?_iff_of_puts (ha : s.Arena) {h : Handle} {n : Node} (hp : s.Puts h n t)
    (hn : s.handle? n.id = none) (x : NodeId) (k : Handle) :
    t.handle? x = some k ↔ t.id? k = some x := by
  rw [hp.handle?, hp.id?]
  by_cases hx : x = n.id <;> by_cases hk : k = h
  · simp [hx, hk]
  · have hno : s.id? k ≠ some x := fun e => by
      rw [← ha.handle?_iff, hx, hn] at e; cases e
    simp [hx, hk, Ne.symm hk, hx ▸ hno]
  · have hno : s.handle? x ≠ some h := fun e => by
      rw [ha.handle?_iff, id?_of_get?_none hp.stale] at e; cases e
    simp [hk, hx, Ne.symm hx, hno]
  · simp [hx, hk, ha.handle?_iff]

theorem insert_of_free {i : UInt32} {rest : List UInt32} (hf : s.free = i :: rest) (x : NodeId)
    (kind : NodeKind) :
    s.insert x kind = (some ⟨i, (s.generation? i).getD 0⟩, { s with
      slots := s.slots.modify i.toNat fun slot => { slot with node := some { id := x, kind } }
      free := rest
      index := s.index.insert x ⟨i, (s.generation? i).getD 0⟩
      roots := s.roots.insert x
      maxId := raiseMax s.maxId x }) := by
  obtain ⟨slots, free, index, roots, maxId⟩ := s
  cases hf
  rfl

theorem insert_of_full (hf : s.free = []) (hlt : s.slots.size < UInt32.size) (x : NodeId)
    (kind : NodeKind) :
    s.insert x kind = (some ⟨.ofNat s.slots.size, 0⟩, { s with
      slots := s.slots.push { node := some { id := x, kind } }
      free := []
      index := s.index.insert x ⟨.ofNat s.slots.size, 0⟩
      roots := s.roots.insert x
      maxId := raiseMax s.maxId x }) := by
  obtain ⟨slots, free, index, roots, maxId⟩ := s
  cases hf
  simp only [insert, hlt, ↓reduceIte]

theorem puts_of_free {i g : UInt32} {rest : List UInt32} (hf : s.free = i :: rest)
    (hg : s.generation? i = some g) (hn : s.get? ⟨i, g⟩ = none) (x : NodeId) (kind : NodeKind) :
    s.Puts ⟨i, g⟩ { id := x, kind } (s.insert x kind).2 := by
  rw [insert_of_free hf, hg, Option.getD_some]
  obtain ⟨slot, hslot, rfl⟩ := Option.map_eq_some_iff.mp hg
  refine ⟨hn, fun k => ?_, rfl, rfl⟩
  simp only [get?, Array.getElem?_modify]
  by_cases hi : i.toNat = k.index.toNat
  · have hk : k = ⟨i, slot.generation⟩ ↔ slot.generation = k.generation := by
      cases k; simp_all [UInt32.toNat_inj, eq_comm]
    simp only [← hi, hslot, ↓reduceIte, Option.map_some, hk]
    split <;> rfl
  · have hk : k ≠ ⟨i, slot.generation⟩ := fun e => hi (by rw [e])
    simp only [hi, hk, ↓reduceIte]

theorem puts_of_full (hf : s.free = []) (hlt : s.slots.size < UInt32.size) (x : NodeId)
    (kind : NodeKind) :
    s.Puts ⟨.ofNat s.slots.size, 0⟩ { id := x, kind } (s.insert x kind).2 := by
  rw [insert_of_full hf hlt]
  have hnat : (UInt32.ofNat s.slots.size).toNat = s.slots.size := UInt32.toNat_ofNat_of_lt' hlt
  refine ⟨?_, fun k => ?_, rfl, rfl⟩
  · simp only [get?, hnat, Array.getElem?_size]
  simp only [get?, Array.getElem?_push]
  by_cases hi : k.index.toNat = s.slots.size
  · have hidx : k.index = .ofNat s.slots.size := UInt32.toNat_inj.mp (hi.trans hnat.symm)
    have hk : k = ⟨.ofNat s.slots.size, 0⟩ ↔ k.generation = 0 :=
      ⟨fun e => by rw [e], fun e => by rw [← hidx, ← e]⟩
    simp only [hi, ↓reduceIte, hk, @eq_comm _ (0 : UInt32), Array.getElem?_size]
  · have hk : k ≠ ⟨.ofNat s.slots.size, 0⟩ := fun e => hi (by rw [e, hnat])
    simp only [hi, hk, ↓reduceIte]

theorem Arena.of_puts (ha : s.Arena) {h : Handle} {n : Node} (hp : s.Puts h n t)
    (hv : n.id.Valid) (hn : s.handle? n.id = none) (hnodup : t.free.Nodup)
    (hmem : ∀ i, i ∈ t.free ↔ ∃ g, t.generation? i = some g ∧ t.get? ⟨i, g⟩ = none)
    (hsize : t.slots.size = s.size + 1 + t.free.length) (hle : t.slots.size ≤ NodeId.count) :
    t.Arena where
  handle?_iff := ha.handle?_iff_of_puts hp hn
  valid k y hy := by
    rw [hp.id?] at hy
    split at hy
    · cases hy; exact hv
    · exact ha.valid k y hy
  nodup_free := hnodup
  mem_free := hmem
  slots_size := by rw [hp.size hn]; exact hsize
  slots_le := hle

theorem Arena.insert_of_free (ha : s.Arena) {x : NodeId} (hx : x.Valid) (hn : s.handle? x = none)
    {i : UInt32} {rest : List UInt32} (hf : s.free = i :: rest) (kind : NodeKind) :
    ∃ h t, s.insert x kind = (some h, t) ∧ t.Arena ∧ s.Puts h { id := x, kind } t := by
  obtain ⟨g, hg, hstale⟩ := (ha.mem_free i).mp (hf ▸ List.mem_cons_self)
  obtain ⟨hnot, hrest⟩ := List.nodup_cons.mp (hf ▸ ha.nodup_free)
  have hp := puts_of_free hf hg hstale x kind
  have hgen : ∀ j, (s.insert x kind).2.generation? j = s.generation? j := fun j => by
    simp only [Store.insert_of_free hf, generation?, Array.getElem?_modify]
    split <;> cases s.slots[j.toNat]? <;> rfl
  have hfree : (s.insert x kind).2.free = rest := by rw [Store.insert_of_free hf]
  have hslots : (s.insert x kind).2.slots.size = s.slots.size := by
    rw [Store.insert_of_free hf]; exact Array.size_modify
  refine ⟨⟨i, g⟩, (s.insert x kind).2, by rw [Store.insert_of_free hf, hg]; rfl, ?_, hp⟩
  refine ha.of_puts hp hx hn (hfree ▸ hrest) (fun j => ?_) ?_ (hslots ▸ ha.slots_le)
  · simp only [hfree, hgen, hp.get?]
    constructor
    · intro hj
      obtain ⟨g', hg', hn'⟩ := (ha.mem_free j).mp (hf ▸ List.mem_cons_of_mem i hj)
      have hne : (⟨j, g'⟩ : Handle) ≠ ⟨i, g⟩ := fun e => by cases e; exact hnot hj
      exact ⟨g', hg', by rw [if_neg hne, hn']⟩
    · rintro ⟨g', hg', hn'⟩
      split at hn'
      · cases hn'
      · rename_i hne
        rcases List.mem_cons.mp (hf ▸ (ha.mem_free j).mpr ⟨g', hg', hn'⟩) with rfl | hj
        · rw [hg] at hg'; cases hg'; exact absurd rfl hne
        · exact hj
  · rw [hslots, hfree, ha.slots_size, hf, List.length_cons]; omega

theorem Arena.insert_of_full (ha : s.Arena) {x : NodeId} (hx : x.Valid) (hn : s.handle? x = none)
    (hf : s.free = []) (kind : NodeKind) :
    ∃ h t, s.insert x kind = (some h, t) ∧ t.Arena ∧ s.Puts h { id := x, kind } t := by
  have hlt := ha.size_lt_count hx hn
  have hsize : s.slots.size = s.size := by rw [ha.slots_size, hf, List.length_nil, Nat.add_zero]
  have h32 : s.slots.size < UInt32.size := by rw [hsize]; exact Nat.lt_trans hlt (by decide)
  have hnat : (UInt32.ofNat s.slots.size).toNat = s.slots.size := UInt32.toNat_ofNat_of_lt' h32
  have hp := puts_of_full hf h32 x kind
  have hfree : (s.insert x kind).2.free = [] := by rw [Store.insert_of_full hf h32]
  have hslots : (s.insert x kind).2.slots.size = s.slots.size + 1 := by
    rw [Store.insert_of_full hf h32]; exact Array.size_push _
  refine ⟨_, (s.insert x kind).2, by rw [Store.insert_of_full hf h32], ?_, hp⟩
  refine ha.of_puts hp hx hn (hfree ▸ List.nodup_nil) (fun j => ?_) ?_ ?_
  · simp only [hfree, List.not_mem_nil, false_iff, not_exists, not_and]
    intro g hg hn'
    rw [hp.get?] at hn'
    split at hn'
    · cases hn'
    rename_i hne
    simp only [Store.insert_of_full hf h32, generation?, Array.getElem?_push] at hg
    split at hg
    · rename_i hj
      cases hg
      exact hne (by rw [← UInt32.toNat_inj.mp (hj.trans hnat.symm)])
    · exact List.not_mem_nil (hf ▸ (ha.mem_free j).mpr ⟨g, hg, hn'⟩)
  · rw [hslots, hfree, hsize, List.length_nil, Nat.add_zero]
  · rw [hslots, hsize]; exact hlt

/-- Putting in a node for an id that is not live succeeds, whether a slot is used again or added. -/
theorem Arena.insert (ha : s.Arena) {x : NodeId} (hx : x.Valid) (hn : s.handle? x = none)
    (kind : NodeKind) :
    ∃ h t, s.insert x kind = (some h, t) ∧ t.Arena ∧ s.Puts h { id := x, kind } t := by
  cases hf : s.free with
  | cons i rest => exact ha.insert_of_free hx hn hf kind
  | nil => exact ha.insert_of_full hx hn hf kind

/-! ## Taking a node out -/

theorem remove_of_get? {h : Handle} {n : Node} (hn : s.get? h = some n) :
    s.remove h = (some n, { s with
      slots := s.slots.modify h.index.toNat fun slot => { generation := slot.generation + 1 }
      free := h.index :: s.free
      index := s.index.erase n.id
      roots := s.roots.erase n.id }) := by
  simp only [remove, hn]

theorem get?_remove {h : Handle} {n : Node} (hn : s.get? h = some n) (k : Handle) :
    (s.remove h).2.get? k = if k = h then none else s.get? k := by
  simp only [remove_of_get? hn, get?, Array.getElem?_modify]
  by_cases hi : h.index.toNat = k.index.toNat
  · have hg := generation?_of_get? hn
    have hidx := UInt32.toNat_inj.mp hi
    simp only [generation?, hi] at hg
    obtain ⟨slot, hslot, hg⟩ := Option.map_eq_some_iff.mp hg
    have hk : k = h ↔ slot.generation = k.generation := by
      cases h; cases k; simp_all [eq_comm]
    simp only [hi, ↓reduceIte, hslot, Option.map_some, ite_self, hk]
    split <;> simp_all
  · have hk : k ≠ h := fun e => hi (by rw [e])
    simp only [hi, hk, ↓reduceIte]

theorem id?_remove {h : Handle} {n : Node} (hn : s.get? h = some n) (k : Handle) :
    (s.remove h).2.id? k = if k = h then none else s.id? k := by
  simp only [id?, get?_remove hn]
  split <;> rfl

theorem handle?_remove {h : Handle} {n : Node} (hn : s.get? h = some n) (x : NodeId) :
    (s.remove h).2.handle? x = if x = n.id then none else s.handle? x := by
  simp only [remove_of_get? hn, handle?, Std.ExtTreeMap.getElem?_erase, Std.compare_eq_iff_eq,
    @eq_comm _ n.id]

theorem generation?_remove {h : Handle} {n : Node} (hn : s.get? h = some n) (i : UInt32) :
    (s.remove h).2.generation? i =
      if i = h.index then some (h.generation + 1) else s.generation? i := by
  simp only [remove_of_get? hn, generation?, Array.getElem?_modify, UInt32.toNat_inj,
    @eq_comm _ h.index]
  split
  · rename_i hi
    obtain ⟨slot, hslot, hg⟩ := Option.map_eq_some_iff.mp (generation?_of_get? hn)
    rw [hi, hslot, ← hg]
    rfl
  · rfl

theorem mem_roots_remove {h : Handle} {n : Node} (hn : s.get? h = some n) {x : NodeId} :
    x ∈ (s.remove h).2.roots ↔ x ∈ s.roots ∧ x ≠ n.id := by
  simp only [remove_of_get? hn, Std.ExtTreeSet.mem_erase, ne_eq, Std.compare_eq_iff_eq,
    @eq_comm _ n.id, and_comm]

theorem Arena.remove (ha : s.Arena) {h : Handle} {n : Node} (hn : s.get? h = some n) :
    (s.remove h).2.Arena := by
  have hfree : (s.remove h).2.free = h.index :: s.free := by rw [remove_of_get? hn]
  have hslots : (s.remove h).2.slots.size = s.slots.size := by
    rw [remove_of_get? hn]; exact Array.size_modify
  have hnot : h.index ∉ s.free := fun hmem => by
    obtain ⟨g, hg, hnone⟩ := (ha.mem_free h.index).mp hmem
    rw [generation?_of_get? hn] at hg
    cases hg
    rw [hn] at hnone
    cases hnone
  exact {
    handle?_iff := fun x k => by
      rw [handle?_remove hn, id?_remove hn]
      have hid := id?_of_get? hn
      by_cases hx : x = n.id <;> by_cases hk : k = h
      · simp [hx, hk]
      · have hno : s.id? k ≠ some n.id := fun e => hk (ha.id?_inj e hid)
        simp [hx, hk, hno]
      · have hno : s.handle? x ≠ some h := fun e => by
          rw [ha.handle?_iff, hid] at e; exact hx (Option.some.inj e).symm
        simp [hx, hk, hno]
      · simp only [hx, hk, ↓reduceIte, ha.handle?_iff]
    valid := fun k y hy => by
      rw [id?_remove hn] at hy
      split at hy
      · cases hy
      · exact ha.valid k y hy
    nodup_free := hfree ▸ List.nodup_cons.mpr ⟨hnot, ha.nodup_free⟩
    mem_free := fun i => by
      simp only [hfree, List.mem_cons, generation?_remove hn, get?_remove hn]
      by_cases hi : i = h.index
      · -- The handle of the next generation has never been given out.
        have hnext : (⟨i, h.generation + 1⟩ : Handle) ≠ h := fun e => by
          have := congrArg Handle.generation e; simp at this
        have hstale : s.get? ⟨i, h.generation + 1⟩ = none := by
          cases hm : s.get? ⟨i, h.generation + 1⟩ with
          | none => rfl
          | some m => exact absurd (eq_of_index_eq hm hn hi) hnext
        simp [hi, hi ▸ hnext, hi ▸ hstale]
      · have hk : ∀ g, (⟨i, g⟩ : Handle) ≠ h := fun g e => hi (by rw [← e])
        simp only [hi, hk, false_or, ↓reduceIte, ha.mem_free]
    slots_size := by
      have hmem : s.index.contains n.id = true := by
        rw [Std.ExtTreeMap.contains_eq_isSome_getElem?]
        exact Option.isSome_iff_exists.mpr ⟨h, (ha.handle?_iff n.id h).mpr (id?_of_get? hn)⟩
      have hpos : s.size ≠ 0 := fun e => by
        have hids : s.ids = [] := List.length_eq_zero_iff.mp (s.length_ids.trans e)
        have := mem_ids.mpr ⟨h, (ha.handle?_iff n.id h).mpr (id?_of_get? hn)⟩
        rw [hids] at this
        cases this
      have hsize : (s.remove h).2.size = s.size - 1 := by
        rw [remove_of_get? hn, size, Std.ExtTreeMap.size_erase, if_pos hmem, size]
      rw [hslots, hfree, hsize, ha.slots_size, List.length_cons]
      omega
    slots_le := hslots ▸ ha.slots_le }

end Store

end RetainedUi
