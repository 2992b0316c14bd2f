import RetainedUi.Proofs.Ancestry
import RetainedUi.Proofs.Store.Links

/-!
# Trees in a store

No way up runs in circles. With this the links of a store form trees, the bounded test for ancestors
is exact, and every store that is not empty has a root.
-/

namespace RetainedUi.Store

variable {s t : Store}

/-- Slots, links and ways up of a store are in order. -/
structure WellFormed (s : Store) : Prop extends Arena s, Linked s where
  rooted : ∀ h, Rooted s.parent? h

theorem wellFormed_empty : empty.WellFormed where
  toArena := arena_empty
  toLinked := linked_empty
  rooted h := .top (by simp [parent?, get?, empty])

theorem Linked.live_of_mem_children (hl : s.Linked) {h : Handle} {n : Node}
    (hn : s.get? h = some n) : ∀ c ∈ n.children, ∃ m, s.get? c = some m := by
  intro c hc
  obtain ⟨m, hm, _⟩ := get?_of_parent? (hl.parent?_of_mem hn hc)
  exact ⟨m, hm⟩

/-! ## The way up from a node -/

theorem Linked.live_of_climb (hl : s.Linked) {k : Nat} {h r : Handle} {n : Node}
    (hn : s.get? h = some n) (hr : climb s.parent? k h = some r) : ∃ m, s.get? r = some m := by
  induction k generalizing h n with
  | zero => cases hr; exact ⟨n, hn⟩
  | succ k ih =>
      cases hp : s.parent? h with
      | none => rw [climb_succ_of_top hp] at hr; cases hr
      | some p =>
          obtain ⟨m, hm, _⟩ := hl.get?_parent hp
          exact ih hm (by rwa [climb_succ_of_up hp] at hr)

/-- The way up from a live node has fewer steps than there are live nodes. -/
theorem WellFormed.climb_lt_size (hw : s.WellFormed) {k : Nat} {h r : Handle} {n : Node}
    (hn : s.get? h = some n) (hr : climb s.parent? k h = some r) : k < s.size := by
  have hlt : k < (s.ids.filterMap s.handle?).length := by
    refine (hw.rooted h).lt_length hr fun i y hy => ?_
    obtain ⟨m, hm⟩ := hw.live_of_climb hn hy
    have hy := (hw.handle?_iff m.id y).mpr (id?_of_get? hm)
    exact List.mem_filterMap.mpr ⟨m.id, mem_ids.mpr ⟨y, hy⟩, hy⟩
  have hle := List.length_filterMap_le s.handle? s.ids
  rw [length_ids] at hle
  omega

theorem WellFormed.climb_slots_size (hw : s.WellFormed) {h : Handle} {n : Node}
    (hn : s.get? h = some n) : climb s.parent? s.slots.size h = none := by
  cases hr : climb s.parent? s.slots.size h with
  | none => rfl
  | some r =>
      have hlt := hw.climb_lt_size hn hr
      have hle := hw.slots_size
      omega

/-! ## The test for ancestors -/

/-- The rounds run out where each of them comes to a handle, and to another than `a`. -/
theorem meets?_eq_none_iff {rounds : Nat} {a : Handle} {o : Option Handle} :
    s.meets? a rounds o = none ↔
      ∀ k < rounds, ∃ y, o.bind (climb s.parent? k) = some y ∧ y ≠ a := by
  -- Each round begins where the last one's parent link leads, so the start varies.
  induction rounds generalizing o with
  | zero => simp [meets?]
  | succ rounds ih =>
      rw [Nat.forall_lt_succ_left]
      cases o with
      | none => simp [meets?]
      | some h =>
          by_cases ha : h = a
          · simp [meets?, climb, ha]
          · simp [meets?, climb, ha, ih]

/-- `a` is met where one of the rounds comes to it. -/
theorem meets?_eq_true_iff {rounds : Nat} {a : Handle} {o : Option Handle} :
    s.meets? a rounds o = some true ↔ ∃ k < rounds, o.bind (climb s.parent? k) = some a := by
  induction rounds generalizing o with
  | zero => simp [meets?]
  | succ rounds ih =>
      rw [Nat.exists_lt_succ_left]
      cases o with
      | none => simp [meets?]
      | some h =>
          by_cases ha : h = a
          · simp [meets?, climb, ha]
          · simp [meets?, climb, ha, ih]

/-- With a round to see that the way up ends, a climb tells exactly what is on it. -/
theorem exists_meets? {rounds : Nat} {h : Handle} (hr : climb s.parent? rounds h = none)
    (a : Handle) : ∃ met, s.meets? a (rounds + 1) (some h) = some met ∧
      (met = true ↔ Above s.parent? a h) := by
  have hknown : s.meets? a (rounds + 1) (some h) ≠ none := fun hnone => by
    obtain ⟨y, hy, _⟩ := meets?_eq_none_iff.mp hnone rounds (Nat.lt_succ_self rounds)
    rw [Option.bind_some, hr] at hy
    cases hy
  obtain ⟨met, hmet⟩ := Option.ne_none_iff_exists'.mp hknown
  refine ⟨met, hmet, ?_⟩
  rw [← Option.some.injEq, ← hmet, meets?_eq_true_iff]
  constructor
  · rintro ⟨k, _, hk⟩
    exact ⟨k, hk⟩
  · rintro ⟨k, hk⟩
    refine ⟨k, ?_, hk⟩
    -- Past the end of the way nothing is reached.
    by_contra hlt
    rw [climb_eq_none_of_le hr (by omega)] at hk
    cases hk

/-- The climb from a live node is never left open, and the test answers what it finds. -/
theorem WellFormed.meets?_eq (hw : s.WellFormed) {h : Handle} {n : Node} (hn : s.get? h = some n)
    (a : Handle) :
    s.meets? a (s.slots.size + 1) (some h) = some (s.isAncestorOrSelf a h) := by
  obtain ⟨met, hmet, _⟩ := exists_meets? (hw.climb_slots_size hn) a
  rw [isAncestorOrSelf, hmet, Option.getD_some]

/-- The test for ancestors is exact. -/
theorem WellFormed.isAncestorOrSelf_iff (hw : s.WellFormed) {a h : Handle} {n : Node}
    (hn : s.get? h = some n) : s.isAncestorOrSelf a h = true ↔ Above s.parent? a h := by
  obtain ⟨met, hmet, habove⟩ := exists_meets? (hw.climb_slots_size hn) a
  rw [isAncestorOrSelf, hmet, Option.getD_some, habove]

/-! ## The root -/

theorem WellFormed.exists_top (hw : s.WellFormed) {h : Handle} {n : Node} (hn : s.get? h = some n) :
    ∃ k r m, climb s.parent? k h = some r ∧ s.get? r = some m ∧ m.parent = none := by
  obtain ⟨k, r, hr, htop⟩ := (hw.rooted h).exists_top
  obtain ⟨m, hm⟩ := hw.live_of_climb hn hr
  exact ⟨k, r, m, hr, hm, by rw [← parent?_of_get? hm, htop]⟩

theorem mem_roots_of_get? (hl : s.Linked) {h : Handle} {n : Node} (hn : s.get? h = some n)
    (hp : n.parent = none) : n.id ∈ s.roots :=
  (hl.mem_roots n.id).mpr ⟨h, id?_of_get? hn, by rw [parent?_of_get? hn, hp]⟩

theorem get?_of_mem_roots (hl : s.Linked) {x : NodeId} (hx : x ∈ s.roots) :
    ∃ h n, s.get? h = some n ∧ n.id = x ∧ n.parent = none := by
  obtain ⟨h, hid, hp⟩ := (hl.mem_roots x).mp hx
  obtain ⟨n, hn, rfl⟩ := get?_of_id? hid
  exact ⟨h, n, hn, rfl, by rw [← parent?_of_get? hn, hp]⟩

/-- The root is the parentless node with the least id. -/
theorem WellFormed.root?_eq_some_iff (hw : s.WellFormed) {r : Handle} :
    s.root? = some r ↔ ∃ n, s.get? r = some n ∧ n.parent = none ∧
      ∀ h m, s.get? h = some m → m.parent = none → n.id.value ≤ m.id.value := by
  have hle : ∀ x y : NodeId, (compare x y).isLE ↔ x.value ≤ y.value := fun x y =>
    Std.LawfulOrderOrd.isLE_compare x.value y.value
  simp only [root?, Option.bind_eq_some_iff, Std.ExtTreeSet.min?_eq_some_iff_mem_and_forall, hle]
  constructor
  · rintro ⟨x, ⟨hx, hmin⟩, hr⟩
    obtain ⟨h, n, hn, rfl, hp⟩ := get?_of_mem_roots hw.toLinked hx
    have hr' := (hw.handle?_iff n.id h).mpr (id?_of_get? hn)
    rw [hr] at hr'
    cases hr'
    exact ⟨n, hn, hp, fun k m hm hpm => hmin m.id (mem_roots_of_get? hw.toLinked hm hpm)⟩
  · rintro ⟨n, hn, hp, hmin⟩
    refine ⟨n.id, ⟨mem_roots_of_get? hw.toLinked hn hp, fun y hy => ?_⟩,
      (hw.handle?_iff n.id r).mpr (id?_of_get? hn)⟩
    obtain ⟨h, m, hm, rfl, hpm⟩ := get?_of_mem_roots hw.toLinked hy
    exact hmin h m hm hpm

/-- No id is less than 1. -/
theorem WellFormed.root?_of_first (hw : s.WellFormed) {h : Handle} {n : Node} (hn : s.get? h = some n)
    (hp : n.parent = none) (hid : n.id = ⟨1⟩) : s.root? = some h := by
  refine hw.root?_eq_some_iff.mpr ⟨n, hn, hp, fun k m hm _ => ?_⟩
  rw [hid]
  exact UInt32.le_iff_toNat_le.mpr (hw.valid k m.id (id?_of_get? hm)).1

theorem WellFormed.exists_root (hw : s.WellFormed) {h : Handle} {n : Node}
    (hn : s.get? h = some n) : ∃ r, s.root? = some r := by
  obtain ⟨_, _, m, _, hm, hp⟩ := hw.exists_top hn
  obtain ⟨x, hx⟩ := Option.isSome_iff_exists.mp
    (Std.ExtTreeSet.isSome_min?_of_mem (mem_roots_of_get? hw.toLinked hm hp))
  obtain ⟨k, n, hk, rfl, _⟩ := get?_of_mem_roots hw.toLinked (Std.ExtTreeSet.min?_mem hx)
  exact ⟨k, by rw [root?, hx, Option.bind_some, (hw.handle?_iff n.id k).mpr (id?_of_get? hk)]⟩

theorem WellFormed.size_eq_zero_iff (hw : s.WellFormed) : s.size = 0 ↔ ∀ h, s.get? h = none := by
  rw [← length_ids, List.length_eq_zero_iff, List.eq_nil_iff_forall_not_mem]
  constructor
  · intro hids h
    cases hn : s.get? h with
    | none => rfl
    | some n =>
        exact absurd (mem_ids.mpr ⟨h, (hw.handle?_iff n.id h).mpr (id?_of_get? hn)⟩) (hids n.id)
  · intro hnone x hx
    obtain ⟨h, hh⟩ := mem_ids.mp hx
    obtain ⟨n, hn, _⟩ := hw.get?_of_handle? hh
    rw [hnone h] at hn
    cases hn

/-! ## Edits that keep the trees -/

theorem WellFormed.detach (hw : s.WellFormed) (c : Handle) : (s.detach c).WellFormed where
  toArena := hw.toArena.of_keeps (keeps_detach s c)
  toLinked := hw.toLinked.detach c
  rooted h := (hw.rooted h).cut fun k => by
    rw [hw.parent?_detach]
    split
    · exact Or.inr rfl
    · exact Or.inl rfl

theorem WellFormed.above_of_detach (hw : s.WellFormed) {a c h : Handle}
    (ha : Above (s.detach c).parent? a h) : Above s.parent? a h :=
  ha.mono fun k p hp => by
    rw [hw.parent?_detach] at hp
    split at hp
    · cases hp
    · exact hp

theorem WellFormed.append (hw : s.WellFormed) {p c : Handle} {n m : Node} (hp : s.get? p = some n)
    (hc : s.get? c = some m) (hnot : ¬ Above s.parent? c p) :
    ((s.detach c).attachLast p c).WellFormed := by
  have hd := hw.detach c
  have hp' := hw.get?_detach_of_get? hp c
  have hc' := hw.get?_detach_of_get? hc c
  have hroot : (s.detach c).parent? c = none := by rw [hw.parent?_detach, if_pos rfl]
  exact {
    toArena := hd.toArena.of_keeps (keeps_attachLast _ p c)
    toLinked := hd.toLinked.attachLast hd.toArena hp' hc' hroot
    rooted := Rooted.link
      (fun k hk => by rw [parent?_attachLast hc', if_neg hk])
      (by rw [parent?_attachLast hc', if_pos rfl])
      (fun ha => hnot (hw.above_of_detach ha)) hd.rooted }

theorem WellFormed.replace (hw : s.WellFormed) {p old new : Handle} {n : Node} {pos : Nat}
    (hn : s.get? new = some n) (hpos : ((s.detach new).children p)[pos]? = some old)
    (hnot : ¬ Above s.parent? new p) : ((s.detach new).replaceAt p pos new).WellFormed := by
  have hd := hw.detach new
  have hn' := hw.get?_detach_of_get? hn new
  have hroot : (s.detach new).parent? new = none := by rw [hw.parent?_detach, if_pos rfl]
  let cut : Handle → Option Handle := fun k => if k = old then none else (s.detach new).parent? k
  have hcut : ∀ k, Rooted cut k := fun k => (hd.rooted k).cut fun j => by
    simp only [cut]
    split
    · exact Or.inr rfl
    · exact Or.inl rfl
  have hless : ∀ j q, cut j = some q → (s.detach new).parent? j = some q := fun j q hq => by
    simp only [cut] at hq
    split at hq
    · cases hq
    · exact hq
  exact {
    toArena := hd.toArena.of_keeps (keeps_replaceAt _ p pos new)
    toLinked := hd.toLinked.replaceAt hd.toArena hpos hn' hroot
    rooted := Rooted.link
      (fun k hk => by rw [parent?_replaceAt hpos hn', if_neg hk])
      (by rw [parent?_replaceAt hpos hn', if_pos rfl])
      (fun ha => hnot (hw.above_of_detach (ha.mono hless))) hcut }

theorem WellFormed.delete (hw : s.WellFormed) {h : Handle} {n : Node} (hn : s.get? h = some n) :
    (s.delete h).WellFormed where
  toArena := hw.toLinked.arena_delete hw.toArena hn
  toLinked := hw.toLinked.delete hw.toArena hn
  rooted k := (hw.rooted k).cut fun j => by
    rw [hw.parent?_delete hn]
    split
    · exact Or.inr rfl
    · exact Or.inl rfl

theorem WellFormed.of_puts (hw : s.WellFormed) (ht : t.Arena) {h : Handle} {n : Node}
    (hp : s.Puts h n t) (hc : n.children = #[]) (hr : n.parent = none) : t.WellFormed where
  toArena := ht
  toLinked := hw.toLinked.of_puts hp hc hr
  rooted k := (hw.rooted k).cut fun j => Or.inl (hp.parent? hr j)

theorem WellFormed.modify (hw : s.WellFormed) (h : Handle) {f : Node → Node}
    (hid : ∀ n, (f n).id = n.id) (hc : ∀ n, (f n).children = n.children)
    (hp : ∀ n, (f n).parent = n.parent) : (s.modify h f).WellFormed := by
  have hchildren : ∀ k, (s.modify h f).children k = s.children k := fun k => by
    simp only [children, get?_modify]
    cases s.get? k with
    | none => rfl
    | some n => by_cases hk : k = h <;> simp [hk, hc]
  have hparent : ∀ k, (s.modify h f).parent? k = s.parent? k := fun k => by
    simp only [parent?, get?_modify]
    cases s.get? k with
    | none => rfl
    | some n => by_cases hk : k = h <;> simp [hk, hp]
  have hkeeps := keeps_modify s h f hid
  exact {
    toArena := hw.toArena.of_keeps hkeeps
    mem_children := fun p c => by rw [hchildren, hparent, hw.mem_children]
    nodup_children := fun p => by rw [hchildren]; exact hw.nodup_children p
    mem_roots := fun x => by
      simp only [hkeeps.id?, hparent]
      exact hw.mem_roots x
    rooted := fun k => (hw.rooted k).cut fun j => Or.inl (hparent j) }

end RetainedUi.Store
