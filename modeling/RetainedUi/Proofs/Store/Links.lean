import RetainedUi.Proofs.Store.Arena

/-!
# Parents, children and roots

A link is kept at both of its ends, and the parentless ids are kept beside the nodes. The invariant
says that all three agree; every edit of links is shown to keep it and to change what handles find in
one uniform way.
-/

namespace RetainedUi

/-! ## Lists of children -/

theorem toList_erase (l : Array Handle) (a : Handle) : (l.erase a).toList = l.toList.erase a := by
  rcases l with ⟨l⟩
  rw [List.erase_toArray]

theorem mem_erase_iff {l : Array Handle} (hl : l.toList.Nodup) {a c : Handle} :
    c ∈ l.erase a ↔ c ≠ a ∧ c ∈ l := by
  rw [← Array.mem_toList_iff, toList_erase, hl.mem_erase_iff, Array.mem_toList_iff]

theorem nodup_erase {l : Array Handle} (hl : l.toList.Nodup) (a : Handle) :
    (l.erase a).toList.Nodup := by
  rw [toList_erase]
  exact hl.erase a

theorem getElem?_of_idxOf? {l : Array Handle} {a : Handle} {i : Nat} (h : l.idxOf? a = some i) :
    l[i]? = some a := by
  rcases l with ⟨l⟩
  rw [List.idxOf?_toArray] at h
  obtain ⟨hi, hget, _⟩ := List.idxOf?_eq_some_iff.mp h
  rw [List.getElem?_toArray, List.getElem?_eq_getElem hi, hget]

/-- A list around the element at a place, which may be exchanged. -/
theorem exists_append_of_getElem? {α : Type} {l : List α} {i : Nat} {a : α} (h : l[i]? = some a) :
    ∃ b c, l = b ++ a :: c ∧ ∀ x, l.set i x = b ++ x :: c := by
  obtain ⟨hi, rfl⟩ := List.getElem?_eq_some_iff.mp h
  refine ⟨l.take i, l.drop (i + 1), ?_, fun x => ?_⟩
  · rw [← List.drop_eq_getElem_cons hi, List.take_append_drop]
  · rw [List.set_eq_take_append_cons_drop, if_pos hi]

theorem mem_setIfInBounds_iff {l : Array Handle} (hl : l.toList.Nodup) {i : Nat} {a : Handle}
    (ha : l[i]? = some a) {x c : Handle} : c ∈ l.setIfInBounds i x ↔ c = x ∨ c ≠ a ∧ c ∈ l := by
  rcases l with ⟨l⟩
  obtain ⟨b, d, rfl, hset⟩ := exists_append_of_getElem? (by simpa using ha)
  have hne : ∀ k, k ∈ b ∨ k ∈ d → k ≠ a := by
    rw [List.nodup_append, List.nodup_cons] at hl
    rintro k (hk | hk) rfl
    · exact hl.2.2 k hk k List.mem_cons_self rfl
    · exact hl.2.1.1 hk
  simp only [List.setIfInBounds_toArray, hset, List.mem_toArray, List.mem_append, List.mem_cons]
  constructor
  · rintro (h | h | h)
    · exact Or.inr ⟨hne c (Or.inl h), Or.inl h⟩
    · exact Or.inl h
    · exact Or.inr ⟨hne c (Or.inr h), Or.inr (Or.inr h)⟩
  · rintro (h | ⟨h, h' | h' | h'⟩)
    · exact Or.inr (Or.inl h)
    · exact Or.inl h'
    · exact absurd h' h
    · exact Or.inr (Or.inr h')

theorem nodup_setIfInBounds {l : Array Handle} (hl : l.toList.Nodup) {x : Handle} (hx : x ∉ l)
    (i : Nat) : (l.setIfInBounds i x).toList.Nodup := by
  rw [Array.toList_setIfInBounds]
  exact hl.set fun h => hx (Array.mem_toList_iff.mp h)

namespace Store

variable {s t : Store}

/-! ## The invariant -/

/-- Both ends of every link agree, and the roots are the ids without a parent. -/
structure Linked (s : Store) : Prop where
  mem_children : ∀ p c, c ∈ s.children p ↔ s.parent? c = some p
  nodup_children : ∀ p, (s.children p).toList.Nodup
  mem_roots : ∀ x, x ∈ s.roots ↔ ∃ h, s.id? h = some x ∧ s.parent? h = none

theorem linked_empty : empty.Linked where
  mem_children p c := by simp [children, parent?, get?, empty]
  nodup_children p := by simp [children, get?, empty]
  mem_roots x := by simp [id?, get?, empty]

theorem Linked.parent?_of_mem (hl : s.Linked) {p c : Handle} {n : Node} (hn : s.get? p = some n)
    (hc : c ∈ n.children) : s.parent? c = some p :=
  (hl.mem_children p c).mp (by rwa [children_of_get? hn])

theorem Linked.get?_parent (hl : s.Linked) {c p : Handle} (hp : s.parent? c = some p) :
    ∃ n, s.get? p = some n ∧ c ∈ n.children :=
  get?_of_mem_children ((hl.mem_children p c).mpr hp)

/-! ## Taking a node from its parent -/

theorem keeps_detach (s : Store) (c : Handle) : s.Keeps (s.detach c) := by
  simp only [detach]
  split
  · exact (keeps_modify s _ _ fun _ => by rfl).trans (keeps_orphan _ c)
  · exact .refl s

/-- Detaching takes a handle out of every list of children and takes its parent away. -/
theorem Linked.get?_detach (hl : s.Linked) (c k : Handle) :
    (s.detach c).get? k = (s.get? k).map fun n => { n with
      children := n.children.erase c
      parent := if k = c then none else n.parent } := by
  cases hn : s.get? k with
  | none =>
      have hnone := ((keeps_detach s c).get?_eq_none_iff k).mpr hn
      rw [hnone, Option.map_none]
  | some n =>
      simp only [detach]
      split
      · rename_i p hp
        have herase : k ≠ p → n.children.erase c = n.children := fun hk =>
          Array.erase_of_not_mem fun hc =>
            hk (Option.some.inj ((hl.parent?_of_mem hn hc).symm.trans hp))
        simp only [get?_orphan, get?_modify, hn, Option.map_some]
        by_cases hk : k = p
        · simp only [hk, ↓reduceIte]; split <;> rfl
        · simp only [hk, ↓reduceIte, herase hk]; split <;> rfl
      · rename_i hp
        have herase : n.children.erase c = n.children := Array.erase_of_not_mem fun hc => by
          rw [hl.parent?_of_mem hn hc] at hp; cases hp
        have hparent : (if k = c then none else n.parent) = n.parent := by
          split
          · rename_i hk; rw [← hk, parent?_of_get? hn] at hp; exact hp.symm
          · rfl
        rw [hn, Option.map_some, herase, hparent]

theorem Linked.get?_detach_of_get? (hl : s.Linked) {k : Handle} {n : Node} (hn : s.get? k = some n)
    (c : Handle) : (s.detach c).get? k = some { n with
      children := n.children.erase c
      parent := if k = c then none else n.parent } := by
  rw [hl.get?_detach, hn, Option.map_some]

theorem Linked.children_detach (hl : s.Linked) (c k : Handle) :
    (s.detach c).children k = (s.children k).erase c := by
  simp only [children, hl.get?_detach]
  cases s.get? k <;> simp

theorem Linked.parent?_detach (hl : s.Linked) (c k : Handle) :
    (s.detach c).parent? k = if k = c then none else s.parent? k := by
  simp only [parent?, hl.get?_detach]
  cases s.get? k <;> simp

theorem Linked.mem_roots_detach (hl : s.Linked) {c : Handle} {x : NodeId} :
    x ∈ (s.detach c).roots ↔ x ∈ s.roots ∨ s.id? c = some x := by
  simp only [detach]
  split
  · rw [mem_roots_orphan, (keeps_modify s _ _ fun _ => by rfl).id? c]; rfl
  · rename_i hp
    refine ⟨Or.inl, ?_⟩
    rintro (hx | hx)
    · exact hx
    · exact (hl.mem_roots x).mpr ⟨c, hx, hp⟩

theorem Linked.detach (hl : s.Linked) (c : Handle) : (s.detach c).Linked where
  mem_children p k := by
    rw [hl.children_detach, hl.parent?_detach, mem_erase_iff (hl.nodup_children p), hl.mem_children]
    by_cases hk : k = c <;> simp [hk]
  nodup_children p := by rw [hl.children_detach]; exact nodup_erase (hl.nodup_children p) c
  mem_roots x := by
    simp only [hl.mem_roots_detach, hl.mem_roots, (keeps_detach s c).id?, hl.parent?_detach]
    constructor
    · rintro (⟨k, hid, hp⟩ | hid)
      · exact ⟨k, hid, by rw [hp, ite_self]⟩
      · exact ⟨c, hid, if_pos rfl⟩
    · rintro ⟨k, hid, hp⟩
      split at hp
      · rename_i hk; exact Or.inr (hk ▸ hid)
      · exact Or.inl ⟨k, hid, hp⟩

/-! ## Giving a parentless node a parent -/

theorem children_attachLast {p : Handle} {n : Node} (hn : s.get? p = some n) (c k : Handle) :
    (s.attachLast p c).children k = if k = p then (s.children k).push c else s.children k := by
  simp only [children, get?_attachLast]
  by_cases hk : k = p
  · simp only [hk, hn, Option.map_some, ↓reduceIte]
  · simp only [hk, ↓reduceIte]
    cases s.get? k <;> rfl

theorem parent?_attachLast {c : Handle} {n : Node} (hn : s.get? c = some n) (p k : Handle) :
    (s.attachLast p c).parent? k = if k = c then some p else s.parent? k := by
  simp only [parent?, get?_attachLast]
  by_cases hk : k = c
  · simp only [hk, hn, Option.map_some, ↓reduceIte]
  · simp only [hk, ↓reduceIte]
    cases s.get? k <;> rfl

theorem Linked.attachLast (hl : s.Linked) (ha : s.Arena) {p c : Handle} {n m : Node}
    (hp : s.get? p = some n) (hc : s.get? c = some m) (hroot : s.parent? c = none) :
    (s.attachLast p c).Linked where
  mem_children q k := by
    rw [children_attachLast hp, parent?_attachLast hc]
    by_cases hq : q = p <;> by_cases hk : k = c
    · simp [hq, hk]
    · simp [hq, hk, hl.mem_children]
    · simp [hq, Ne.symm hq, hk, hl.mem_children, hroot]
    · simp [hq, hk, hl.mem_children]
  nodup_children q := by
    rw [children_attachLast hp]
    split
    · have hnot : c ∉ s.children q := fun h => by rw [hl.mem_children, hroot] at h; cases h
      rw [Array.toList_push, List.nodup_append]
      refine ⟨hl.nodup_children q, List.nodup_cons.mpr ⟨List.not_mem_nil, List.nodup_nil⟩, ?_⟩
      rintro a ha b hb rfl
      rw [List.mem_singleton.mp hb] at ha
      exact hnot (Array.mem_toList_iff.mp ha)
    · exact hl.nodup_children q
  mem_roots x := by
    simp only [mem_roots_attachLast, hl.mem_roots, (keeps_attachLast s p c).id?,
      parent?_attachLast hc]
    constructor
    · rintro ⟨⟨k, hid, hk⟩, hne⟩
      have hkc : k ≠ c := fun e => hne (e ▸ hid)
      exact ⟨k, hid, by rw [if_neg hkc, hk]⟩
    · rintro ⟨k, hid, hk⟩
      split at hk
      · cases hk
      · rename_i hkc
        exact ⟨⟨k, hid, hk⟩, fun e => hkc (ha.id?_inj hid e)⟩

/-! ## Putting a parentless node in the place of a child -/

theorem get?_replaceAt {p old : Handle} {pos : Nat} (ho : (s.children p)[pos]? = some old)
    (new k : Handle) : (s.replaceAt p pos new).get? k = (s.get? k).map fun n => { n with
      children := if k = p then n.children.setIfInBounds pos new else n.children
      parent := if k = new then some p else if k = old then none else n.parent } := by
  simp only [replaceAt, ho, get?_linkParent, get?_orphan, get?_modify, Option.map_map]
  congr 1
  funext n
  simp only [Function.comp_apply]
  split <;> split <;> split <;> rfl

theorem keeps_replaceAt (s : Store) (p : Handle) (pos : Nat) (new : Handle) :
    s.Keeps (s.replaceAt p pos new) := by
  simp only [replaceAt]
  split
  · exact ((keeps_modify s p _ fun _ => by rfl).trans (keeps_orphan _ _)).trans
      (keeps_linkParent _ p new)
  · exact .refl s

theorem mem_roots_replaceAt {p old new : Handle} {pos : Nat} (ho : (s.children p)[pos]? = some old)
    {x : NodeId} : x ∈ (s.replaceAt p pos new).roots ↔
      (x ∈ s.roots ∨ s.id? old = some x) ∧ s.id? new ≠ some x := by
  simp only [replaceAt, ho]
  rw [mem_roots_linkParent, mem_roots_orphan, (keeps_orphan _ old).id?,
    (keeps_modify s p _ fun _ => by rfl).id?, (keeps_modify s p _ fun _ => by rfl).id?]
  rfl

theorem children_replaceAt {p old : Handle} {pos : Nat} (ho : (s.children p)[pos]? = some old)
    (new k : Handle) : (s.replaceAt p pos new).children k =
      if k = p then (s.children k).setIfInBounds pos new else s.children k := by
  simp only [children, get?_replaceAt ho]
  cases s.get? k <;> simp

theorem parent?_replaceAt {p old new : Handle} {n : Node} {pos : Nat}
    (ho : (s.children p)[pos]? = some old) (hn : s.get? new = some n) (k : Handle) :
    (s.replaceAt p pos new).parent? k =
      if k = new then some p else if k = old then none else s.parent? k := by
  simp only [parent?, get?_replaceAt ho]
  by_cases hk : k = new
  · simp only [hk, hn, Option.map_some, ↓reduceIte]
  · simp only [hk, ↓reduceIte]
    cases s.get? k <;> simp

theorem Linked.replaceAt (hl : s.Linked) (ha : s.Arena) {p old new : Handle} {n : Node} {pos : Nat}
    (ho : (s.children p)[pos]? = some old) (hn : s.get? new = some n)
    (hroot : s.parent? new = none) : (s.replaceAt p pos new).Linked := by
  have hold : s.parent? old = some p := (hl.mem_children p old).mp (Array.mem_of_getElem? ho)
  have hne : old ≠ new := fun e => by rw [e, hroot] at hold; cases hold
  have hnot : ∀ q, new ∉ s.children q := fun q h => by
    rw [hl.mem_children, hroot] at h; cases h
  exact {
    mem_children := fun q k => by
      rw [children_replaceAt ho, parent?_replaceAt ho hn]
      by_cases hq : q = p
      · rw [hq, if_pos rfl, mem_setIfInBounds_iff (hl.nodup_children p) ho, hl.mem_children]
        by_cases hk : k = new <;> by_cases hk' : k = old <;> simp [hk, hk']
      · rw [if_neg hq, hl.mem_children]
        by_cases hk : k = new
        · simp [hk, hroot, Ne.symm hq]
        · by_cases hk' : k = old
          · simp [hk', hold, hne, Ne.symm hq]
          · simp [hk, hk']
    nodup_children := fun q => by
      rw [children_replaceAt ho]
      split
      · exact nodup_setIfInBounds (hl.nodup_children q) (hnot q) pos
      · exact hl.nodup_children q
    mem_roots := fun x => by
      simp only [mem_roots_replaceAt ho, hl.mem_roots, (keeps_replaceAt s p pos new).id?,
        parent?_replaceAt ho hn]
      constructor
      · rintro ⟨⟨k, hid, hk⟩ | hid, hx⟩
        · have hkn : k ≠ new := fun e => hx (e ▸ hid)
          exact ⟨k, hid, by rw [if_neg hkn, hk, ite_self]⟩
        · exact ⟨old, hid, by rw [if_neg hne, if_pos rfl]⟩
      · rintro ⟨k, hid, hk⟩
        split at hk
        · cases hk
        · rename_i hkn
          refine ⟨?_, fun e => hkn (ha.id?_inj hid e)⟩
          split at hk
          · rename_i hko; exact Or.inr (hko ▸ hid)
          · exact Or.inl ⟨k, hid, hk⟩ }

/-! ## Taking a node out -/

/-- Takes a node from its parent and out of the store; its children become roots. -/
def delete (s : Store) (h : Handle) : Store :=
  match (s.detach h).remove h with
  | (some n, t) => n.children.foldl orphan t
  | (none, t) => t

theorem get?_foldl_orphan (l : List Handle) (s : Store) (k : Handle) :
    (l.foldl orphan s).get? k =
      (s.get? k).map fun n => if k ∈ l then { n with parent := none } else n := by
  induction l generalizing s with
  | nil => simp
  | cons h l ih =>
      rw [List.foldl_cons, ih, get?_orphan, Option.map_map]
      congr 1
      funext n
      by_cases hk : k = h <;> by_cases hm : k ∈ l <;> simp [hk, hm]

theorem keeps_foldl_orphan (l : List Handle) (s : Store) : s.Keeps (l.foldl orphan s) := by
  induction l generalizing s with
  | nil => exact .refl s
  | cons h l ih => exact (keeps_orphan s h).trans (ih _)

theorem mem_roots_foldl_orphan {l : List Handle} {x : NodeId} :
    x ∈ (l.foldl orphan s).roots ↔ x ∈ s.roots ∨ ∃ c ∈ l, s.id? c = some x := by
  induction l generalizing s with
  | nil => simp
  | cons h l ih =>
      rw [List.foldl_cons, ih, mem_roots_orphan]
      simp [(keeps_orphan s h).id?, or_assoc]

theorem Linked.get?_detach_self (hl : s.Linked) {h : Handle} {n : Node} (hn : s.get? h = some n) :
    (s.detach h).get? h = some { n with children := (s.children h).erase h, parent := none } := by
  rw [hl.get?_detach_of_get? hn, children_of_get? hn, if_pos rfl]

theorem Linked.delete_eq (hl : s.Linked) {h : Handle} {n : Node} (hn : s.get? h = some n) :
    s.delete h = ((s.children h).erase h).toList.foldl orphan ((s.detach h).remove h).2 := by
  simp only [delete, remove_of_get? (hl.get?_detach_self hn), Array.foldl_toList]

theorem Linked.mem_erase_children (hl : s.Linked) {h k : Handle} :
    k ∈ ((s.children h).erase h).toList ↔ k ≠ h ∧ s.parent? k = some h := by
  rw [Array.mem_toList_iff, mem_erase_iff (hl.nodup_children h), hl.mem_children]

/-- Deleting takes a handle out of the store, out of every list of children, and from every node
that had it as its parent. -/
theorem Linked.get?_delete (hl : s.Linked) {h : Handle} {n : Node} (hn : s.get? h = some n)
    (k : Handle) : (s.delete h).get? k = if k = h then none else (s.get? k).map fun m => { m with
      children := m.children.erase h
      parent := if m.parent = some h then none else m.parent } := by
  rw [hl.delete_eq hn, get?_foldl_orphan, get?_remove (hl.get?_detach_self hn)]
  by_cases hk : k = h
  · simp only [hk, ↓reduceIte, Option.map_none]
  simp only [hk, ↓reduceIte, hl.get?_detach, hl.mem_erase_children]
  cases hm : s.get? k with
  | none => rfl
  | some m =>
      have hp := parent?_of_get? hm
      simp only [Option.map_some, hp, ne_eq, hk, not_false_eq_true, true_and]
      split <;> rfl

theorem Linked.children_delete (hl : s.Linked) {h : Handle} {n : Node} (hn : s.get? h = some n)
    (k : Handle) : (s.delete h).children k = if k = h then #[] else (s.children k).erase h := by
  simp only [children, hl.get?_delete hn]
  by_cases hk : k = h
  · simp only [hk, ↓reduceIte]
  · simp only [hk, ↓reduceIte]
    cases s.get? k <;> simp

theorem Linked.parent?_delete (hl : s.Linked) {h : Handle} {n : Node} (hn : s.get? h = some n)
    (k : Handle) : (s.delete h).parent? k =
      if k = h ∨ s.parent? k = some h then none else s.parent? k := by
  simp only [parent?, hl.get?_delete hn]
  by_cases hk : k = h
  · simp only [hk, ↓reduceIte, true_or]
  · simp only [hk, ↓reduceIte, false_or]
    cases s.get? k <;> simp

theorem Linked.id?_delete (hl : s.Linked) {h : Handle} {n : Node} (hn : s.get? h = some n)
    (k : Handle) : (s.delete h).id? k = if k = h then none else s.id? k := by
  simp only [id?, hl.get?_delete hn]
  split
  · rfl
  · cases s.get? k <;> rfl

theorem Linked.arena_delete (hl : s.Linked) (ha : s.Arena) {h : Handle} {n : Node}
    (hn : s.get? h = some n) : (s.delete h).Arena := by
  rw [hl.delete_eq hn]
  exact ((ha.of_keeps (keeps_detach s h)).remove (hl.get?_detach_self hn)).of_keeps
    (keeps_foldl_orphan _ _)

theorem Linked.handle?_delete (hl : s.Linked) {h : Handle} {n : Node} (hn : s.get? h = some n)
    (x : NodeId) : (s.delete h).handle? x = if x = n.id then none else s.handle? x := by
  rw [hl.delete_eq hn, (keeps_foldl_orphan _ _).handle?, handle?_remove (hl.get?_detach_self hn),
    (keeps_detach s h).handle?]

theorem Linked.free_delete (hl : s.Linked) {h : Handle} {n : Node} (hn : s.get? h = some n) :
    (s.delete h).free = h.index :: s.free := by
  rw [hl.delete_eq hn, (keeps_foldl_orphan _ _).free, remove_of_get? (hl.get?_detach_self hn)]
  exact congrArg _ (keeps_detach s h).free

theorem Linked.mem_roots_delete (hl : s.Linked) {h : Handle} {n : Node} (hn : s.get? h = some n)
    {x : NodeId} : x ∈ (s.delete h).roots ↔
      x ∈ s.roots ∧ x ≠ n.id ∨ ∃ c, c ≠ h ∧ s.parent? c = some h ∧ s.id? c = some x := by
  have hid := id?_of_get? hn
  have hchild : (∃ c ∈ ((s.children h).erase h).toList, ((s.detach h).remove h).2.id? c = some x) ↔
      ∃ c, c ≠ h ∧ s.parent? c = some h ∧ s.id? c = some x := by
    refine exists_congr fun c => ?_
    rw [hl.mem_erase_children, id?_remove (hl.get?_detach_self hn), (keeps_detach s h).id?]
    by_cases hc : c = h <;> simp [hc]
  rw [hl.delete_eq hn, mem_roots_foldl_orphan, hchild, mem_roots_remove (hl.get?_detach_self hn),
    hl.mem_roots_detach, hid]
  by_cases hx : x = n.id
  · simp [hx]
  · simp [hx, Ne.symm hx]

theorem Linked.delete (hl : s.Linked) (ha : s.Arena) {h : Handle} {n : Node}
    (hn : s.get? h = some n) : (s.delete h).Linked where
  mem_children p k := by
    rw [hl.children_delete hn, hl.parent?_delete hn]
    by_cases hp : p = h
    · rw [if_pos hp, hp]
      by_cases hk : k = h ∨ s.parent? k = some h
      · simp [hk]
      · simp only [hk, ↓reduceIte, Array.not_mem_empty, false_iff]
        exact fun e => hk (Or.inr e)
    · rw [if_neg hp, mem_erase_iff (hl.nodup_children p), hl.mem_children]
      by_cases hk : k = h
      · simp [hk]
      · by_cases hkp : s.parent? k = some h
        · simp [hk, hkp, Ne.symm hp]
        · simp [hk, hkp]
  nodup_children p := by
    rw [hl.children_delete hn]
    split
    · exact List.nodup_nil
    · exact nodup_erase (hl.nodup_children p) h
  mem_roots x := by
    have hid := id?_of_get? hn
    simp only [hl.mem_roots_delete hn, hl.mem_roots, hl.id?_delete hn, hl.parent?_delete hn]
    constructor
    · rintro (⟨⟨k, hk, hp⟩, hx⟩ | ⟨c, hc, hp, hx⟩)
      · have hkh : k ≠ h := fun e => hx (Option.some.inj ((e ▸ hk).symm.trans hid))
        exact ⟨k, by rw [if_neg hkh, hk], by rw [hp, ite_self]⟩
      · exact ⟨c, by rw [if_neg hc, hx], by rw [if_pos (Or.inr hp)]⟩
    · rintro ⟨k, hk, hp⟩
      split at hk
      · cases hk
      · rename_i hkh
        split at hp
        · rename_i hor
          exact Or.inr ⟨k, hkh, hor.resolve_left hkh, hk⟩
        · have hx : x ≠ n.id := fun e => hkh (ha.id?_inj (e ▸ hk) hid)
          exact Or.inl ⟨⟨k, hk, hp⟩, hx⟩

/-! ## Putting a node in -/

theorem Puts.children {h : Handle} {n : Node} (hp : s.Puts h n t) (hc : n.children = #[])
    (k : Handle) : t.children k = s.children k := by
  by_cases hk : k = h
  · rw [hk, children_of_get?_none hp.stale, Store.children, hp.get?, if_pos rfl]; exact hc
  · simp only [Store.children, hp.get?, hk, ↓reduceIte]

theorem Puts.parent? {h : Handle} {n : Node} (hp : s.Puts h n t) (hr : n.parent = none)
    (k : Handle) : t.parent? k = s.parent? k := by
  by_cases hk : k = h
  · rw [hk, parent?_of_get?_none hp.stale, Store.parent?, hp.get?, if_pos rfl]; exact hr
  · simp only [Store.parent?, hp.get?, hk, ↓reduceIte]

theorem Linked.of_puts (hl : s.Linked) {h : Handle} {n : Node} (hp : s.Puts h n t)
    (hc : n.children = #[]) (hr : n.parent = none) : t.Linked where
  mem_children p k := by rw [hp.children hc, hp.parent? hr, hl.mem_children]
  nodup_children p := by rw [hp.children hc]; exact hl.nodup_children p
  mem_roots x := by
    simp only [hp.roots, Std.ExtTreeSet.mem_insert, Std.compare_eq_iff_eq, hl.mem_roots, hp.id?,
      hp.parent? hr]
    constructor
    · rintro (rfl | ⟨k, hid, hk⟩)
      · exact ⟨h, if_pos rfl, parent?_of_get?_none hp.stale⟩
      · have hkh : k ≠ h := fun e => by rw [e, id?_of_get?_none hp.stale] at hid; cases hid
        exact ⟨k, by rw [if_neg hkh, hid], hk⟩
    · rintro ⟨k, hid, hk⟩
      split at hid
      · exact Or.inl (Option.some.inj hid)
      · exact Or.inr ⟨k, hid, hk⟩

end Store

end RetainedUi
