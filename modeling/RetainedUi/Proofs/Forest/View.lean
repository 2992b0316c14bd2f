import RetainedUi.Proofs.Forest.Basic
import RetainedUi.Proofs.Store.Trees

/-!
# The forest that a store holds

Each store operation changes the forest as the operation of the same name on forests does: handles
are exchanged for ids throughout, and different live handles have different ids.
-/

namespace RetainedUi

/-! ## Lists under a partial map -/

section Lists

variable {α β : Type} [DecidableEq α] [DecidableEq β] {g : α → Option β} {a : α} {b : β}

theorem filterMap_erase (ha : g a = some b) (hg : ∀ x, g x = some b → x = a) (l : List α) :
    (l.erase a).filterMap g = (l.filterMap g).erase b := by
  induction l with
  | nil => rfl
  | cons x l ih =>
      by_cases hx : x = a
      · rw [hx, List.erase_cons_head, List.filterMap_cons_some ha, List.erase_cons_head]
      rw [List.erase_cons_tail (by simpa using hx)]
      cases hgx : g x with
      | none => rw [List.filterMap_cons_none hgx, List.filterMap_cons_none hgx, ih]
      | some y =>
          have hy : y ≠ b := fun e => hx (hg x (e ▸ hgx))
          rw [List.filterMap_cons_some hgx, List.filterMap_cons_some hgx,
            List.erase_cons_tail (by simpa using hy), ih]

theorem filterMap_replace {c : α} {d : β} (ha : g a = some b) (hc : g c = some d)
    (hg : ∀ x, g x = some b → x = a) (l : List α) :
    (l.replace a c).filterMap g = (l.filterMap g).replace b d := by
  induction l with
  | nil => rfl
  | cons x l ih =>
      by_cases hx : x = a
      · rw [hx, List.replace_cons_self, List.filterMap_cons_some ha, List.filterMap_cons_some hc,
          List.replace_cons_self]
      have hax : (a == x) = false := by simpa using Ne.symm hx
      simp only [List.replace_cons, hax]
      cases hgx : g x with
      | none => rw [List.filterMap_cons_none hgx, List.filterMap_cons_none hgx, ih]
      | some y =>
          have hy : (b == y) = false := by
            simpa using fun e : b = y => hx (hg x (e ▸ hgx))
          simp only [List.filterMap_cons_some hgx, List.replace_cons, hy, ih]

theorem set_idxOf? {l : List α} {i : Nat} (h : l.idxOf? a = some i) (x : α) :
    l.set i x = l.replace a x := by
  induction l generalizing i with
  | nil => cases h
  | cons y l ih =>
      rw [List.idxOf?_cons] at h
      by_cases hy : y = a
      · simp only [hy, beq_self_eq_true, ↓reduceIte, Option.some.injEq] at h
        rw [← h, List.set_cons_zero, hy, List.replace_cons_self]
      · have hya : (y == a) = false := by simpa using hy
        have hay : (a == y) = false := by simpa using Ne.symm hy
        simp only [hya, Bool.false_eq_true, ↓reduceIte] at h
        obtain ⟨j, hj, rfl⟩ := Option.map_eq_some_iff.mp h
        simp only [List.set_cons_succ, List.replace_cons, hay, ih hj]

end Lists

namespace Store

variable {s t : Store}

/-! ## Elements -/

/-- A node with its neighbours named by their ids. -/
def element (s : Store) (n : Node) : Element where
  kind := n.kind
  props := n.props
  text := n.text
  children := n.children.toList.filterMap s.id?
  parent := n.parent.bind s.id?

theorem Arena.forest_eq (ha : s.Arena) {h : Handle} {n : Node} (hn : s.get? h = some n) :
    s.forest n.id = some (s.element n) := by
  have hnode := ha.node?_eq hn
  simp only [forest, hnode, Option.map_some, childIds, parentOf, Option.bind_some, element]

theorem Arena.forest_eq_none_iff (ha : s.Arena) {x : NodeId} :
    s.forest x = none ↔ s.handle? x = none := by
  cases hx : s.handle? x with
  | none => simp only [forest, node?, hx, Option.bind_none, Option.map_none]
  | some h =>
      obtain ⟨n, hn, rfl⟩ := ha.get?_of_handle? hx
      simp only [ha.forest_eq hn, reduceCtorEq]

theorem Arena.exists_of_forest (ha : s.Arena) {x : NodeId} {e : Element} (hx : s.forest x = some e) :
    ∃ h n, s.get? h = some n ∧ n.id = x ∧ s.element n = e := by
  cases hh : s.handle? x with
  | none => rw [ha.forest_eq_none_iff.mpr hh] at hx; cases hx
  | some h =>
      obtain ⟨n, hn, rfl⟩ := ha.get?_of_handle? hh
      rw [ha.forest_eq hn] at hx
      exact ⟨h, n, hn, rfl, Option.some.inj hx⟩

theorem Arena.forest_ext (hs : s.Arena) (ht : t.Arena) (hids : s.ids = t.ids)
    (h : ∀ x ∈ s.ids, s.forest x = t.forest x) : s.forest = t.forest := by
  have hnone : ∀ {u : Store} {x}, u.Arena → x ∉ u.ids → u.forest x = none := by
    intro u x hu hx
    rw [hu.forest_eq_none_iff, Option.eq_none_iff_forall_ne_some]
    exact fun k hk => hx (mem_ids.mpr ⟨k, hk⟩)
  funext x
  by_cases hx : x ∈ s.ids
  · exact h x hx
  · rw [hnone hs hx, hnone ht (hids ▸ hx)]

theorem Keeps.element (hk : s.Keeps t) (n : Node) : t.element n = s.element n := by
  simp only [Store.element, funext hk.id?]

/-- Forests follow from what handles find: both stores have the same live ids, and the elements
change alike. -/
theorem Arena.forest_of_map (ha : s.Arena) (hk : s.Keeps t) {g : Handle → Node → Node}
    {G : NodeId → Element → Element} (hg : ∀ k, t.get? k = (s.get? k).map (g k))
    (hG : ∀ k n, s.get? k = some n → s.element (g k n) = G n.id (s.element n)) :
    t.forest = fun x => (s.forest x).map (G x) := by
  have ha' := ha.of_keeps hk
  funext x
  cases hx : s.handle? x with
  | none =>
      rw [ha.forest_eq_none_iff.mpr hx, ha'.forest_eq_none_iff.mpr (by rw [hk.handle?, hx])]
      rfl
  | some h =>
      obtain ⟨n, hn, rfl⟩ := ha.get?_of_handle? hx
      have hm : t.get? h = some (g h n) := by rw [hg, hn, Option.map_some]
      have hid : (g h n).id = n.id := by
        have hid := hk.id? h
        rw [id?_of_get? hm, id?_of_get? hn] at hid
        exact Option.some.inj hid
      rw [← hid, ha'.forest_eq hm, hid, ha.forest_eq hn, Option.map_some, hk.element, hG h n hn]

theorem Arena.eq_iff_id_eq (ha : s.Arena) {h k : Handle} {n m : Node} (hn : s.get? h = some n)
    (hm : s.get? k = some m) : h = k ↔ n.id = m.id := by
  constructor
  · rintro rfl
    rw [hn] at hm
    cases hm
    rfl
  · intro hid
    exact ha.id?_inj (id?_of_get? hn) (hid ▸ id?_of_get? hm)

theorem Arena.eq_of_id? (ha : s.Arena) {c : Handle} {x : NodeId} (hc : s.id? c = some x) :
    ∀ k, s.id? k = some x → k = c :=
  fun _ hk => ha.id?_inj hk hc

/-! ## Operations -/

theorem Arena.forest_modify (ha : s.Arena) {h : Handle} {n : Node} (hn : s.get? h = some n)
    {f : Node → Node} {F : Element → Element} (hid : ∀ m, (f m).id = m.id)
    (hF : ∀ m, s.element (f m) = F (s.element m)) :
    (s.modify h f).forest = s.forest.adjust n.id F := by
  refine ha.forest_of_map (keeps_modify s h f hid) (get?_modify s h f) fun k m hm => ?_
  simp only [ha.eq_iff_id_eq hm hn]
  split
  · exact hF m
  · rfl

theorem WellFormed.forest_detach (hw : s.WellFormed) {c : Handle} {n : Node}
    (hn : s.get? c = some n) : (s.detach c).forest = s.forest.detach n.id := by
  have hid := id?_of_get? hn
  refine hw.forest_of_map (keeps_detach s c) (hw.get?_detach c) fun k m hm => ?_
  simp only [element, toList_erase, filterMap_erase hid (hw.eq_of_id? hid), hw.eq_iff_id_eq hm hn]
  split <;> rfl

theorem Arena.forest_attachLast (ha : s.Arena) {p c : Handle} {n m : Node}
    (hp : s.get? p = some n) (hc : s.get? c = some m) :
    (s.attachLast p c).forest = s.forest.attachLast n.id m.id := by
  refine ha.forest_of_map (keeps_attachLast s p c) (get?_attachLast s p c) fun k l hl => ?_
  simp only [element, ha.eq_iff_id_eq hl hp, ha.eq_iff_id_eq hl hc]
  congr 1
  · split
    · simp only [Array.toList_push, List.filterMap_append, List.filterMap_cons, id?_of_get? hc,
        List.filterMap_nil]
    · rfl
  · split
    · exact id?_of_get? hp
    · rfl

theorem Arena.forest_replaceAt (ha : s.Arena) {p old new : Handle} {n m l : Node} {pos : Nat}
    (hp : s.get? p = some n) (hold : s.get? old = some m) (hnew : s.get? new = some l)
    (hpos : n.children.idxOf? old = some pos) :
    (s.replaceAt p pos new).forest = s.forest.replaceChild n.id m.id l.id := by
  have hidx : n.children.toList.idxOf? old = some pos := by
    rcases hc : n.children with ⟨l⟩
    simpa [hc] using hpos
  have ho : (s.children p)[pos]? = some old := by
    rw [children_of_get? hp]
    exact getElem?_of_idxOf? hpos
  have hid := id?_of_get? hold
  refine ha.forest_of_map (keeps_replaceAt s p pos new) (get?_replaceAt ho new) fun k q hq => ?_
  simp only [element, ha.eq_iff_id_eq hq hp, ha.eq_iff_id_eq hq hold, ha.eq_iff_id_eq hq hnew]
  congr 1
  · split
    · rename_i hqp
      have hkp := (ha.eq_iff_id_eq hq hp).mpr hqp
      rw [hkp, hp] at hq
      cases hq
      rw [Array.toList_setIfInBounds, set_idxOf? hidx,
        filterMap_replace hid (id?_of_get? hnew) (ha.eq_of_id? hid)]
    · rfl
  · split
    · exact id?_of_get? hp
    · split <;> rfl

theorem WellFormed.forest_delete (hw : s.WellFormed) {h : Handle} {n : Node}
    (hn : s.get? h = some n) : (s.delete h).forest = s.forest.delete n.id := by
  have ha := hw.arena_delete hw.toArena hn
  have hid := id?_of_get? hn
  funext x
  rw [Forest.delete]
  cases hx : (s.delete h).handle? x with
  | none =>
      rw [ha.forest_eq_none_iff.mpr hx]
      rw [hw.handle?_delete hn] at hx
      split
      · rfl
      · rename_i hne
        rw [if_neg hne] at hx
        rw [hw.forest_eq_none_iff.mpr hx, Option.map_none]
  | some k =>
      rw [hw.handle?_delete hn] at hx
      split at hx
      · cases hx
      rename_i hne
      obtain ⟨m, hm, rfl⟩ := hw.get?_of_handle? hx
      have hk : k ≠ h := fun e => hne ((hw.eq_iff_id_eq hm hn).mp e)
      have hm' := hw.get?_delete hn k
      rw [if_neg hk, hm, Option.map_some] at hm'
      rw [if_neg hne, hw.forest_eq hm, Option.map_some]
      refine (ha.forest_eq hm').trans (congrArg some ?_)
      simp only [element]
      congr 1
      · -- The node itself is gone from the children, and the others keep their ids.
        have hnodup : m.children.toList.Nodup := children_of_get? hm ▸ hw.nodup_children k
        rw [← filterMap_erase hid (hw.eq_of_id? hid), toList_erase]
        refine List.filterMap_congr fun c hc => ?_
        rw [hw.id?_delete hn, if_neg ((List.Nodup.mem_erase_iff hnodup).mp hc).1]
      · have hpar : m.parent.bind s.id? = some n.id ↔ m.parent = some h := by
          constructor
          · intro hp
            obtain ⟨p, hp, hpid⟩ := Option.bind_eq_some_iff.mp hp
            rw [hp, hw.id?_inj hpid hid]
          · intro hp
            rw [hp, Option.bind_some, hid]
        simp only [hpar]
        split
        · rfl
        · rename_i hp
          refine Option.bind_congr fun p hmp => ?_
          rw [hw.id?_delete hn, if_neg fun e => hp (hmp.trans (congrArg some e))]

theorem WellFormed.forest_puts (hw : s.WellFormed) (ht : t.Arena) {h : Handle} {x : NodeId}
    {kind : NodeKind} (hp : s.Puts h { id := x, kind } t) :
    t.forest = s.forest.insert x { kind } := by
  have hself : t.get? h = some { id := x, kind } := by rw [hp.get?, if_pos rfl]
  funext y
  rw [Forest.insert]
  by_cases hy : y = x
  · rw [if_pos hy, hy]
    refine (ht.forest_eq hself).trans (congrArg some ?_)
    simp only [element, List.filterMap_nil, Option.bind_none]
  rw [if_neg hy]
  have hh : t.handle? y = s.handle? y := by rw [hp.handle?, if_neg hy]
  cases hk : s.handle? y with
  | none => rw [hw.forest_eq_none_iff.mpr hk, ht.forest_eq_none_iff.mpr (hh.trans hk)]
  | some k =>
      obtain ⟨m, hm, rfl⟩ := hw.get?_of_handle? hk
      have hkh : k ≠ h := fun e => by rw [e, hp.stale] at hm; cases hm
      have hm' : t.get? k = some m := by rw [hp.get?, if_neg hkh, hm]
      -- No link leads to the handle that was stale.
      have hid : ∀ c, s.get? c ≠ none → t.id? c = s.id? c := fun c hc => by
        rw [hp.id?, if_neg fun e => hc (by rw [e, hp.stale])]
      rw [ht.forest_eq hm', hw.forest_eq hm]
      simp only [element]
      congr 2
      · refine List.filterMap_congr fun c hc => hid c ?_
        have hpar := hw.parent?_of_mem hm (Array.mem_toList_iff.mp hc)
        intro hnone
        rw [parent?_of_get?_none hnone] at hpar
        cases hpar
      · cases hpar : m.parent with
        | none => rfl
        | some p =>
            obtain ⟨q, hq, _⟩ := hw.get?_parent (by rw [parent?_of_get? hm, hpar])
            exact hid p (by rw [hq]; exact nofun)

/-! ## What the forest tells -/

theorem WellFormed.mem_roots_iff (hw : s.WellFormed) {x : NodeId} :
    x ∈ s.roots ↔ ∃ e, s.forest x = some e ∧ e.parent = none := by
  constructor
  · intro hx
    obtain ⟨h, n, hn, rfl, hp⟩ := get?_of_mem_roots hw.toLinked hx
    exact ⟨_, hw.forest_eq hn, by rw [element, hp, Option.bind_none]⟩
  · rintro ⟨e, he, hpe⟩
    obtain ⟨h, n, hn, rfl, rfl⟩ := hw.exists_of_forest he
    refine mem_roots_of_get? hw.toLinked hn ?_
    cases hp : n.parent with
    | none => rfl
    | some p =>
        obtain ⟨m, hm, _⟩ := hw.get?_parent (by rw [parent?_of_get? hn, hp])
        rw [element, hp, Option.bind_some, id?_of_get? hm] at hpe
        cases hpe

theorem WellFormed.roots_congr (hs : s.WellFormed) (ht : t.WellFormed) (hf : s.forest = t.forest) :
    s.roots = t.roots :=
  Std.ExtTreeSet.ext_mem fun x => by rw [hs.mem_roots_iff, ht.mem_roots_iff, hf]

theorem Arena.mem_children_iff (ha : s.Arena) {h c : Handle} {n m : Node} (hn : s.get? h = some n)
    (hm : s.get? c = some m) : c ∈ s.children h ↔ m.id ∈ (s.element n).children := by
  simp only [children_of_get? hn, element, List.mem_filterMap, Array.mem_toList_iff]
  constructor
  · intro hc
    exact ⟨c, hc, id?_of_get? hm⟩
  · rintro ⟨k, hk, hid⟩
    rwa [ha.id?_inj (id?_of_get? hm) hid]

theorem WellFormed.climb_forest (hw : s.WellFormed) {h : Handle} {n : Node} (hn : s.get? h = some n)
    (k : Nat) : climb s.forest.parent? k n.id = (climb s.parent? k h).bind s.id? := by
  induction k generalizing h n with
  | zero => exact (id?_of_get? hn).symm
  | succ k ih =>
      have hup : s.forest.parent? n.id = (s.parent? h).bind s.id? := by
        rw [Forest.parent?, hw.forest_eq hn, parent?_of_get? hn]
        rfl
      cases hp : s.parent? h with
      | none =>
          rw [hp] at hup
          rw [climb_succ_of_top hup, climb_succ_of_top hp, Option.bind_none]
      | some p =>
          obtain ⟨m, hm, _⟩ := hw.get?_parent hp
          rw [hp, Option.bind_some, id?_of_get? hm] at hup
          rw [climb_succ_of_up hup, climb_succ_of_up hp, ih hm]

theorem WellFormed.above_forest_iff (hw : s.WellFormed) {h a : Handle} {n m : Node}
    (hn : s.get? h = some n) (hm : s.get? a = some m) :
    Above s.forest.parent? m.id n.id ↔ Above s.parent? a h := by
  constructor
  · rintro ⟨k, hk⟩
    rw [hw.climb_forest hn] at hk
    obtain ⟨r, hr, hid⟩ := Option.bind_eq_some_iff.mp hk
    rw [hw.id?_inj hid (id?_of_get? hm)] at hr
    exact ⟨k, hr⟩
  · rintro ⟨k, hk⟩
    exact ⟨k, by rw [hw.climb_forest hn, hk, Option.bind_some, id?_of_get? hm]⟩

end Store

end RetainedUi
