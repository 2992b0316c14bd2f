import RetainedUi.Scene.Store

/-!
# What the store operations change

A store is seen through its handles: what each one finds, and which slot generations there are. Each
operation that changes nodes in place is described by what every handle finds afterwards; all else
it keeps.
-/

namespace RetainedUi.Store

variable {s t u : Store}

/-! ## Looking up -/

/-- How often a slot has been emptied, if there is a slot of that number. -/
def generation? (s : Store) (i : UInt32) : Option UInt32 := s.slots[i.toNat]?.map Slot.generation

theorem generation?_of_get? {h : Handle} {n : Node} (hn : s.get? h = some n) :
    s.generation? h.index = some h.generation := by
  simp only [get?, generation?] at hn ⊢
  split at hn
  · rename_i slot hslot
    split at hn
    · rename_i hg; rw [hslot, Option.map_some, hg]
    · cases hn
  · cases hn

/-- At most one handle finds something in a slot. -/
theorem eq_of_index_eq {h k : Handle} {n m : Node} (hn : s.get? h = some n) (hm : s.get? k = some m)
    (hi : h.index = k.index) : h = k := by
  have hg := generation?_of_get? hn
  rw [hi, generation?_of_get? hm] at hg
  cases h; cases k; cases hg; cases hi; rfl

theorem children_of_get? {h : Handle} {n : Node} (hn : s.get? h = some n) :
    s.children h = n.children := by
  simp only [children, hn]

theorem parent?_of_get? {h : Handle} {n : Node} (hn : s.get? h = some n) :
    s.parent? h = n.parent := by
  simp only [parent?, hn]

theorem id?_of_get? {h : Handle} {n : Node} (hn : s.get? h = some n) : s.id? h = some n.id := by
  simp only [id?, hn, Option.map_some]

theorem get?_of_id? {h : Handle} {x : NodeId} (hx : s.id? h = some x) :
    ∃ n, s.get? h = some n ∧ n.id = x :=
  Option.map_eq_some_iff.mp hx

theorem get?_of_parent? {h p : Handle} (hp : s.parent? h = some p) :
    ∃ n, s.get? h = some n ∧ n.parent = some p := by
  simp only [parent?] at hp
  split at hp
  · rename_i n hn; exact ⟨n, hn, hp⟩
  · cases hp

theorem get?_of_mem_children {h c : Handle} (hc : c ∈ s.children h) :
    ∃ n, s.get? h = some n ∧ c ∈ n.children := by
  simp only [children] at hc
  split at hc
  · rename_i n hn; exact ⟨n, hn, hc⟩
  · simp at hc

theorem children_of_get?_none {h : Handle} (hn : s.get? h = none) : s.children h = #[] := by
  simp only [children, hn]

theorem parent?_of_get?_none {h : Handle} (hn : s.get? h = none) : s.parent? h = none := by
  simp only [parent?, hn]

theorem id?_of_get?_none {h : Handle} (hn : s.get? h = none) : s.id? h = none := by
  simp only [id?, hn, Option.map_none]

/-! ## What stays -/

/-- Every slot of `s` holds the same id at the same generation in `t`, and the bookkeeping is the
same. -/
structure Keeps (s t : Store) : Prop where
  id? : ∀ h, t.id? h = s.id? h
  generation? : ∀ i, t.generation? i = s.generation? i
  slots_size : t.slots.size = s.slots.size
  free : t.free = s.free
  index : t.index = s.index
  maxId : t.maxId = s.maxId

theorem Keeps.refl (s : Store) : s.Keeps s := ⟨fun _ => rfl, fun _ => rfl, rfl, rfl, rfl, rfl⟩

theorem Keeps.trans (h : s.Keeps t) (h' : t.Keeps u) : s.Keeps u where
  id? k := (h'.id? k).trans (h.id? k)
  generation? i := (h'.generation? i).trans (h.generation? i)
  slots_size := h'.slots_size.trans h.slots_size
  free := h'.free.trans h.free
  index := h'.index.trans h.index
  maxId := h'.maxId.trans h.maxId

theorem Keeps.handle? (h : s.Keeps t) (x : NodeId) : t.handle? x = s.handle? x := by
  simp only [Store.handle?, h.index]

theorem Keeps.get?_eq_none_iff (h : s.Keeps t) (k : Handle) : t.get? k = none ↔ s.get? k = none := by
  have hid := h.id? k
  simp only [Store.id?] at hid
  rw [← Option.map_eq_none_iff (f := Node.id), hid, Option.map_eq_none_iff]

/-- Changing the set of roots keeps the slots. -/
theorem Keeps.roots (h : s.Keeps t) (roots : Std.ExtTreeSet NodeId) :
    s.Keeps { t with roots } :=
  ⟨h.id?, h.generation?, h.slots_size, h.free, h.index, h.maxId⟩

/-! ## Changing a node in place -/

theorem get?_modify (s : Store) (h : Handle) (f : Node → Node) (k : Handle) :
    (s.modify h f).get? k = (s.get? k).map fun n => if k = h then f n else n := by
  simp only [get?, modify, Array.getElem?_modify]
  by_cases hi : h.index.toNat = k.index.toNat
  · have hkh : k = h ↔ k.generation = h.generation := by
      cases h; cases k; simp_all [UInt32.toNat_inj]
    simp only [hi, ↓reduceIte]
    cases s.slots[k.index.toNat]? with
    | none => rfl
    | some slot =>
        simp only [Option.map_some, hkh]
        by_cases hs : slot.generation = h.generation <;> by_cases hk : slot.generation = k.generation
        · simp [hs, ← hk]
        · simp only [hs, hs ▸ hk, ↓reduceIte, Option.map_none]
        · have hne : ¬ k.generation = h.generation := fun e => hs (hk.trans e)
          simp [hk, hne]
        · simp [hs, hk]
  · have hkh : k ≠ h := fun e => hi (by rw [e])
    simp only [hi, hkh, ↓reduceIte]
    cases s.slots[k.index.toNat]? with
    | none => rfl
    | some slot => simp

theorem modify_congr {h : Handle} {n : Node} {f g : Node → Node} (hn : s.get? h = some n)
    (hfg : f n = g n) : s.modify h f = s.modify h g := by
  refine congrArg (fun slots => { s with slots }) (Array.ext_getElem? fun i => ?_)
  rw [Array.getElem?_modify, Array.getElem?_modify]
  split
  · rename_i hi
    simp only [get?, hi] at hn
    split at hn
    · rename_i slot hslot
      split at hn
      · rw [hslot, Option.map_some, Option.map_some, hn, Option.map_some, Option.map_some, hfg]
      · cases hn
    · cases hn
  · rfl

theorem modify_modify (s : Store) (h : Handle) (f g : Node → Node) :
    (s.modify h f).modify h g = s.modify h (g ∘ f) := by
  refine congrArg (fun slots => { s with slots }) (Array.ext_getElem? fun i => ?_)
  simp only [modify, Array.getElem?_modify]
  split
  · rw [Option.map_map]
    refine congrArg (Option.map · _) (funext fun slot => ?_)
    by_cases hg : slot.generation = h.generation
    · simp only [Function.comp_apply, hg, ↓reduceIte, Option.map_map]
    · simp only [Function.comp_apply, hg, ↓reduceIte]
  · rfl

theorem modify_id (s : Store) (h : Handle) : s.modify h id = s := by
  refine congrArg (fun slots => { s with slots }) (Array.ext_getElem? fun i => ?_)
  simp only [Array.getElem?_modify, Option.map_id, id_eq, ite_self, Option.map_id_fun']

theorem keeps_modify (s : Store) (h : Handle) (f : Node → Node) (hf : ∀ n, (f n).id = n.id) :
    s.Keeps (s.modify h f) where
  id? k := by
    simp only [Store.id?, get?_modify, Option.map_map]
    congr 1
    funext n
    by_cases hk : k = h <;> simp [hk, hf]
  generation? i := by
    simp only [Store.generation?, modify, Array.getElem?_modify]
    split
    · cases s.slots[i.toNat]? with
      | none => rfl
      | some slot => simp only [Option.map_some]; split <;> rfl
    · rfl
  slots_size := Array.size_modify
  free := rfl
  index := rfl
  maxId := rfl

/-! ## Changing links -/

theorem get?_orphan (s : Store) (h k : Handle) :
    (s.orphan h).get? k = (s.get? k).map fun n => if k = h then { n with parent := none } else n := by
  simp only [orphan]
  split
  · exact get?_modify s h _ k
  · rename_i hn
    by_cases hk : k = h
    · simp only [hk, hn, Option.map_none]
    · simp only [hk, ↓reduceIte, Option.map_id_fun', id_eq]

theorem keeps_orphan (s : Store) (h : Handle) : s.Keeps (s.orphan h) := by
  simp only [orphan]
  split
  · exact (keeps_modify s h _ fun _ => by rfl).roots _
  · exact .refl s

theorem mem_roots_orphan {h : Handle} {x : NodeId} :
    x ∈ (s.orphan h).roots ↔ x ∈ s.roots ∨ s.id? h = some x := by
  simp only [orphan]
  split
  · rename_i n hn
    simp only [Std.ExtTreeSet.mem_insert, Std.compare_eq_iff_eq, id?_of_get? hn, Option.some.injEq,
      or_comm]
    rfl
  · rename_i hn
    simp only [id?_of_get?_none hn, reduceCtorEq, or_false]

theorem get?_linkParent (s : Store) (p h k : Handle) :
    (s.linkParent p h).get? k =
      (s.get? k).map fun n => if k = h then { n with parent := some p } else n := by
  simp only [linkParent]
  split
  · exact get?_modify s h _ k
  · rename_i hn
    by_cases hk : k = h
    · simp only [hk, hn, Option.map_none]
    · simp only [hk, ↓reduceIte, Option.map_id_fun', id_eq]

theorem keeps_linkParent (s : Store) (p h : Handle) : s.Keeps (s.linkParent p h) := by
  simp only [linkParent]
  split
  · exact (keeps_modify s h _ fun _ => by rfl).roots _
  · exact .refl s

theorem mem_roots_linkParent {p h : Handle} {x : NodeId} :
    x ∈ (s.linkParent p h).roots ↔ x ∈ s.roots ∧ s.id? h ≠ some x := by
  simp only [linkParent]
  split
  · rename_i n hn
    simp only [Std.ExtTreeSet.mem_erase, ne_eq, Std.compare_eq_iff_eq, id?_of_get? hn,
      Option.some.injEq, and_comm]
    rfl
  · rename_i hn
    simp only [id?_of_get?_none hn, ne_eq, reduceCtorEq, not_false_eq_true, and_true]

theorem get?_attachLast (s : Store) (p h k : Handle) :
    (s.attachLast p h).get? k = (s.get? k).map fun n => { n with
      children := if k = p then n.children.push h else n.children
      parent := if k = h then some p else n.parent } := by
  simp only [attachLast, get?_linkParent, get?_modify, Option.map_map]
  congr 1
  funext n
  simp only [Function.comp_apply]
  split <;> split <;> rfl

theorem keeps_attachLast (s : Store) (p h : Handle) : s.Keeps (s.attachLast p h) :=
  (keeps_modify s p _ fun _ => by rfl).trans (keeps_linkParent _ p h)

theorem mem_roots_attachLast {p h : Handle} {x : NodeId} :
    x ∈ (s.attachLast p h).roots ↔ x ∈ s.roots ∧ s.id? h ≠ some x := by
  rw [attachLast, mem_roots_linkParent, (keeps_modify s p _ fun _ => by rfl).id? h]
  rfl

end RetainedUi.Store
