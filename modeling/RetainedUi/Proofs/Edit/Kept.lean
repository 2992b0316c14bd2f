import RetainedUi.Proofs.Edit.Slots
import RetainedUi.Proofs.Forest.Effects

/-!
# Edits that keep every slot

A store is known by which id is in which slot and by the forest it holds. Of an edit that keeps the slots
all is said by what becomes of the forest; one that leaves that too has changed nothing, down to the order
in which slots are used again.
-/

namespace RetainedUi.Store

variable {s t : Store}

/-! ## Stores known by slots and forest -/

theorem Keeps.slots_eq (hk : s.Keeps t) (hs : s.Arena) (hget : ∀ h, t.get? h = s.get? h) :
    t.slots = s.slots := by
  refine Array.ext hk.slots_size fun i hi hi' => ?_
  have hle := hs.slots_le
  have hnat : (UInt32.ofNat i).toNat = i :=
    UInt32.toNat_ofNat_of_lt' (Nat.lt_of_lt_of_le hi' (Nat.le_trans hle (by decide)))
  have hgen := hk.generation? (.ofNat i)
  simp only [Store.generation?, hnat, Array.getElem?_eq_getElem hi, Array.getElem?_eq_getElem hi',
    Option.map_some, Option.some.injEq] at hgen
  have hnode := hget ⟨.ofNat i, s.slots[i].generation⟩
  simp only [get?, hnat, Array.getElem?_eq_getElem hi, Array.getElem?_eq_getElem hi', hgen,
    ↓reduceIte] at hnode
  cases ht : t.slots[i]
  cases hs : s.slots[i]
  rw [ht, hs] at hgen hnode
  cases hgen
  cases hnode
  rfl

theorem Keeps.eq_of_get? (hk : s.Keeps t) (hs : s.Arena) (hget : ∀ h, t.get? h = s.get? h)
    (hroots : t.roots = s.roots) : t = s := by
  have hslots := hk.slots_eq hs hget
  have hfree := hk.free
  have hindex := hk.index
  have hmax := hk.maxId
  cases s
  cases t
  cases hslots; cases hfree; cases hindex; cases hroots; cases hmax
  rfl

theorem WellFormed.children_eq_of_forest (hs : s.WellFormed) (ht : t.WellFormed) (hk : s.Keeps t)
    {h : Handle} {n m : Node} (hn : s.get? h = some n) (hm : t.get? h = some m)
    (he : s.element n = t.element m) : m.children = n.children := by
  have hkids := Layout.forall₂_children hs ht hn hm he
  have hlive : ∀ c ∈ n.children.toList, ∃ y, s.id? c = some y := by
    intro c hc
    obtain ⟨l, hl⟩ := hs.live_of_mem_children hn c (Array.mem_toList_iff.mp hc)
    exact ⟨l.id, id?_of_get? hl⟩
  have heq : List.Forall₂ Eq n.children.toList m.children.toList := by
    refine List.Forall₂.imp ?_ ((List.forall₂_and_left _ _).mpr ⟨hlive, hkids⟩)
    rintro c d ⟨⟨y, hy⟩, hcd⟩
    rw [hk.id?, hy] at hcd
    exact hs.id?_inj hy hcd.symm
  rw [List.forall₂_eq_eq_eq] at heq
  exact Array.toList_inj.mp heq.symm

theorem WellFormed.get?_eq_of_forest (hs : s.WellFormed) (ht : t.WellFormed) (hk : s.Keeps t)
    (hf : t.forest = s.forest) (h : Handle) : t.get? h = s.get? h := by
  have htwins := fun k => Layout.twins hs ht hf.symm (hk.id? k).symm
  have hchildren : ∀ k, t.children k = s.children k := by
    intro k
    rcases htwins k with ⟨hn, hm⟩ | ⟨n, m, hn, hm, _, he⟩
    · rw [children_of_get?_none hn, children_of_get?_none hm]
    · rw [children_of_get? hn, children_of_get? hm, hs.children_eq_of_forest ht hk hn hm he]
  -- A parent is known from the other end of the link.
  have hparent : ∀ k, t.parent? k = s.parent? k := fun k => Option.ext fun p => by
    rw [← ht.mem_children, ← hs.mem_children, hchildren]
  rcases htwins h with ⟨hn, hm⟩ | ⟨n, m, hn, hm, hid, he⟩
  · rw [hn, hm]
  have hc := hchildren h
  have hp := hparent h
  rw [children_of_get? hn, children_of_get? hm] at hc
  rw [parent?_of_get? hn, parent?_of_get? hm] at hp
  have hkind : n.kind = m.kind := congrArg Element.kind he
  have hprops : n.props = m.props := congrArg Element.props he
  have htext : n.text = m.text := congrArg Element.text he
  rw [hn, hm]
  cases n
  cases m
  cases hid; cases hkind; cases hprops; cases htext; cases hc; cases hp
  rfl

theorem WellFormed.eq_of_forest (hs : s.WellFormed) (ht : t.WellFormed) (hk : s.Keeps t)
    (hf : t.forest = s.forest) : t = s :=
  hk.eq_of_get? hs.toArena (hs.get?_eq_of_forest ht hk hf) (ht.roots_congr hs hf)

theorem WellFormed.eq_of_childIds (hs : s.WellFormed) (ht : t.WellFormed) (hk : s.Keeps t)
    (hcontent : ∀ x, t.content x = s.content x) (hchildren : ∀ x, t.childIds x = s.childIds x) :
    t = s := by
  have hparent : ∀ x, t.parentOf x = s.parentOf x := fun x => Option.ext fun p => by
    rw [← ht.mem_childIds_iff, ← hs.mem_childIds_iff, hchildren]
  refine hs.eq_of_forest ht hk (Forest.eq_of_parts (fun x => ?_) (fun x => ?_) fun x => ?_)
  · rw [← content_eq_forest, ← content_eq_forest, hcontent]
  · rw [← childIds_eq_forest, ← childIds_eq_forest, hchildren]
  · rw [← parentOf_eq_forest, ← parentOf_eq_forest, hparent]

/-! ## Records that leave the forest -/

open Edit

/-- A record that is granted without a change of the forest puts no node in and takes none out. -/
theorem Arena.keeps_of_edit_eq_self (ha : s.Arena) {r : Record}
    (h : s.forest.edit r = .ok s.forest) : s.Keeps (s.apply r).2 := by
  cases r with
  | createNode word code =>
      simp only [Forest.edit] at h
      split at h
      · cases h
      rename_i x hx
      split at h
      · cases h
      cases hh : s.handle? x with
      | some k => exact ha.keeps_createNode hx hh code
      | none =>
          have hnone := ha.forest_eq_none_iff.mpr hh
          rw [hnone] at h
          have hself := congrFun (Except.ok.inj h) x
          rw [Forest.insert, if_pos rfl, hnone] at hself
          cases hself
  | deleteNode word =>
      obtain ⟨x, e, _, he, hdel⟩ := Forest.exists_of_bind_resolve h
      have hself := congrFun (Except.ok.inj hdel) x
      rw [Forest.delete, if_pos rfl, he] at hself
      cases hself
  | setProp word key value => exact stays_setProp word key value s
  | appendChild parent child | insertChild parent child _ => exact stays_appendChild parent child s
  | removeChild parent child => exact stays_removeChild parent child s
  | replaceChild parent old new => exact stays_replaceChild parent old new s
  | setPropStr word key payload => exact stays_setPropStr word key payload s

theorem WellFormed.exists_of_edit (hw : s.WellFormed) {r : Record} {f : Forest}
    (h : s.forest.edit r = .ok f) (hk : s.Keeps (s.apply r).2) :
    ∃ t, s.apply r = (.ok (), t) ∧ t.WellFormed ∧ s.Keeps t ∧ t.forest = f := by
  have hafter := hw.apply r
  obtain ⟨t, ht, hforest⟩ := hw.apply_of_ok h
  rw [ht] at hk hafter
  exact ⟨t, ht, hafter, hk, hforest⟩

theorem WellFormed.apply_eq_self (hw : s.WellFormed) {r : Record}
    (h : s.forest.edit r = .ok s.forest) : s.apply r = (.ok (), s) := by
  obtain ⟨t, ht, hafter, hkeeps, hforest⟩ := hw.exists_of_edit h (hw.keeps_of_edit_eq_self h)
  rw [ht, hw.eq_of_forest hafter hkeeps hforest]

end RetainedUi.Store
