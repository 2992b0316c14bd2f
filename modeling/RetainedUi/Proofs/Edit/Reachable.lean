import RetainedUi.Proofs.Edit.Refinement
import RetainedUi.Proofs.Layout.Forest
import RetainedUi.Proofs.Store.Release

/-!
# Reachable stores

What holds of every store that records lead to, refused ones among them: both sides of each link
agree, the set of roots is that of the nodes without a parent, no way up runs in circles, and the
test for ancestors has rounds enough to be exact.
-/

namespace RetainedUi.Store

/-- The stores that records and releases lead to. -/
inductive Reachable : Store → Prop
  | empty : Reachable .empty
  | apply {s : Store} (r : Record) : Reachable s → Reachable (s.apply r).2
  | releaseAll {s : Store} : Reachable s → Reachable s.releaseAll.2

variable {s : Store}

theorem Reachable.wellFormed (hs : s.Reachable) : s.WellFormed := by
  induction hs with
  | empty => exact wellFormed_empty
  | apply r _ ih => exact ih.apply r
  | releaseAll _ ih => exact ih.releaseAll

theorem Reachable.applyAll (hs : s.Reachable) (rs : List Record) : (s.applyAll rs).2.Reachable := by
  induction rs generalizing s with
  | nil => exact hs
  | cons r rs ih => exact ih (hs.apply r)

/-! ## Links -/

/-- Every child of a live node is live, has that node as its parent and is listed once; every parent
of a live node is live and lists it; no node is in two lists; the roots are the ids of the live nodes
without a parent. -/
theorem Reachable.links_agree (hs : s.Reachable) :
    (∀ p n, s.get? p = some n → n.children.toList.Nodup ∧
      ∀ c ∈ n.children, ∃ m, s.get? c = some m ∧ m.parent = some p) ∧
    (∀ c m p, s.get? c = some m → m.parent = some p → ∃ n, s.get? p = some n ∧ c ∈ n.children) ∧
    (∀ p q n m c, s.get? p = some n → s.get? q = some m → c ∈ n.children → c ∈ m.children → p = q) ∧
    ∀ x, x ∈ s.roots ↔ ∃ h n, s.get? h = some n ∧ n.id = x ∧ n.parent = none := by
  have hw := hs.wellFormed
  refine ⟨fun p n hn => ⟨?_, fun c hc => ?_⟩, fun c m p hm hp => ?_, ?_, fun x => ⟨?_, ?_⟩⟩
  · rw [← children_of_get? hn]
    exact hw.nodup_children p
  · exact get?_of_parent? (hw.parent?_of_mem hn hc)
  · exact hw.get?_parent (by rw [parent?_of_get? hm, hp])
  · intro p q n m c hn hm hc hc'
    have hp := hw.parent?_of_mem hn hc
    rw [hw.parent?_of_mem hm hc'] at hp
    exact (Option.some.inj hp).symm
  · exact get?_of_mem_roots hw.toLinked
  · rintro ⟨h, n, hn, rfl, hp⟩
    exact mem_roots_of_get? hw.toLinked hn hp

/-- A parent with one child, and a third node. -/
def sample : List Record :=
  [.createNode 1 1, .createNode 2 5, .createNode 3 2, .appendChild 1 2]

theorem links_agree_sample :
    (∃ m, (empty.applyAll sample).2.get? ⟨1, 0⟩ = some m ∧ m.parent = some ⟨0, 0⟩) ∧
      (⟨3⟩ : NodeId) ∈ (empty.applyAll sample).2.roots := by
  have hs := Reachable.empty.applyAll sample
  have hn : (empty.applyAll sample).2.get? ⟨0, 0⟩ =
      some { id := ⟨1⟩, kind := .column, children := #[⟨1, 0⟩] } := by decide
  have hm : (empty.applyAll sample).2.get? ⟨2, 0⟩ = some { id := ⟨3⟩, kind := .row } := by decide
  obtain ⟨hchildren, _, _, hroots⟩ := hs.links_agree
  exact ⟨(hchildren _ _ hn).2 _ (by simp), (hroots _).mpr ⟨_, _, hm, rfl, rfl⟩⟩

/-! ## Ways up -/

/-- No live node is above itself, and from every live node the way up ends at a live node without a
parent, in fewer steps than there are live nodes. A store that is not empty therefore has a root, the
live node without a parent whose id is least, and only an empty one has an empty layout. -/
theorem Reachable.ways_up_end (hs : s.Reachable) :
    (∀ h n, s.get? h = some n →
      (∀ k, climb s.parent? (k + 1) h ≠ some h) ∧
      ∃ k r m, k < s.size ∧ climb s.parent? k h = some r ∧ s.get? r = some m ∧ m.parent = none) ∧
    (s.size ≠ 0 → ∃ r n, s.root? = some r ∧ s.get? r = some n ∧ n.parent = none ∧
      ∀ h m, s.get? h = some m → m.parent = none → n.id.value ≤ m.id.value) ∧
    ∀ bounds, (Layout.solve s bounds).entries = [] ↔ s.size = 0 := by
  have hw := hs.wellFormed
  refine ⟨fun h n hn => ⟨(hw.rooted h).climb_ne_self, ?_⟩, fun hsize => ?_,
    Layout.entries_solve_eq_nil_iff hw⟩
  · obtain ⟨k, r, m, hr, hm, hp⟩ := hw.exists_top hn
    exact ⟨k, r, m, hw.climb_lt_size hn hr, hr, hm, hp⟩
  · rw [ne_eq, hw.size_eq_zero_iff, not_forall] at hsize
    obtain ⟨h, hh⟩ := hsize
    obtain ⟨n, hn⟩ := Option.ne_none_iff_exists'.mp hh
    obtain ⟨r, hr⟩ := hw.exists_root hn
    obtain ⟨m, hm, hp, hmin⟩ := hw.root?_eq_some_iff.mp hr
    exact ⟨r, m, hr, hm, hp, hmin⟩

theorem ways_up_end_sample :
    (∃ k r m, k < (empty.applyAll sample).2.size ∧
      climb (empty.applyAll sample).2.parent? k ⟨1, 0⟩ = some r ∧
      (empty.applyAll sample).2.get? r = some m ∧ m.parent = none) ∧
    (Layout.solve (empty.applyAll sample).2 ⟨0, 0, 64, 48⟩).entries ≠ [] := by
  have hs := Reachable.empty.applyAll sample
  have hn : (empty.applyAll sample).2.get? ⟨1, 0⟩ =
      some { id := ⟨2⟩, kind := .text, parent := some ⟨0, 0⟩ } := by decide
  obtain ⟨hup, _, hsolve⟩ := hs.ways_up_end
  exact ⟨(hup _ _ hn).2, fun hnil => absurd ((hsolve _).mp hnil) (by decide)⟩

/-! ## The test for ancestors -/

/-- Asked about a live node, the test tells exactly whether `a`, which may be stale, is that node or
on the way up from it. There is a round for each node on that way and one to see that it ends, so the
climb is never left open, and the test always gives what the climb has found. -/
theorem Reachable.ancestors_exact (hs : s.Reachable) {a h : Handle} {n : Node}
    (hn : s.get? h = some n) :
    (s.isAncestorOrSelf a h = true ↔ a = h ∨ ∃ k, climb s.parent? (k + 1) h = some a) ∧
      climb s.parent? s.slots.size h = none ∧
      s.meets? a (s.slots.size + 1) (some h) = some (s.isAncestorOrSelf a h) := by
  have hw := hs.wellFormed
  refine ⟨?_, hw.climb_slots_size hn, hw.meets?_eq hn a⟩
  rw [hw.isAncestorOrSelf_iff hn, Above, ← Nat.or_exists_add_one, climb, Option.some.injEq, eq_comm]

/-- Nodes in every slot that make one chain; the slot in the middle has been used before. -/
def fullChain : List Record :=
  [.createNode 1 1, .createNode 2 1, .createNode 3 1, .deleteNode 2, .createNode 4 1,
    .appendChild 1 4, .appendChild 4 3]

/-- All the rounds are used up where a stale handle is sought from the end of a full chain; one round
less would leave the climb open. -/
theorem ancestors_exact_fullChain :
    (empty.applyAll fullChain).2.isAncestorOrSelf ⟨0, 0⟩ ⟨2, 0⟩ = true ∧
      (empty.applyAll fullChain).2.isAncestorOrSelf ⟨2, 0⟩ ⟨0, 0⟩ = false ∧
      (empty.applyAll fullChain).2.isAncestorOrSelf ⟨1, 0⟩ ⟨2, 0⟩ = false ∧
      (empty.applyAll fullChain).2.meets? ⟨1, 0⟩ 3 (some ⟨2, 0⟩) = none := by
  have hs := Reachable.empty.applyAll fullChain
  have htop : (empty.applyAll fullChain).2.get? ⟨0, 0⟩ =
      some { id := ⟨1⟩, kind := .column, children := #[⟨1, 1⟩] } := by decide
  have hend : (empty.applyAll fullChain).2.get? ⟨2, 0⟩ =
      some { id := ⟨3⟩, kind := .column, parent := some ⟨1, 1⟩ } := by decide
  refine ⟨(hs.ancestors_exact hend).1.mpr (Or.inr ⟨1, by decide⟩), ?_, ?_, by decide⟩
  · rw [← Option.some.injEq, ← (hs.ancestors_exact htop).2.2]
    decide
  · rw [← Option.some.injEq, ← (hs.ancestors_exact hend).2.2]
    decide

end RetainedUi.Store
