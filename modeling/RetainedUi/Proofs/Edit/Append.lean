import RetainedUi.Proofs.Edit.Reachable
import RetainedUi.Proofs.Forest.Effects

/-!
# Appending a child

A node that is appended to another one leaves the place it had and comes last among its new siblings, with
all that is under it. Nothing else changes.
-/

namespace RetainedUi.Store

variable {s t : Store} {p c : NodeId}

/-- From `s` to `t` the id `c` moves to the end of the children of `p` with what is under it, and nothing
else changes. -/
structure Appends (s : Store) (p c : NodeId) (t : Store) : Prop where
  children_parent : t.childIds p = (s.childIds p).filter (· ≠ c) ++ [c]
  children_former : ∀ q, s.parentOf c = some q → q ≠ p → t.childIds q = (s.childIds q).filter (· ≠ c)
  children_other : ∀ x, x ≠ p → s.parentOf c ≠ some x → t.childIds x = s.childIds x
  parent_child : t.parentOf c = some p
  parent_other : ∀ x, x ≠ c → t.parentOf x = s.parentOf x
  parentless : t.parentless = s.parentless.filter (· ≠ c)
  content : ∀ x, t.content x = s.content x
  /-- The same ids are under `c`, with the same children. -/
  subtree : ∀ x, (Above t.parentOf c x ↔ Above s.parentOf c x) ∧
    (Above s.parentOf c x → t.childIds x = s.childIds x)

theorem WellFormed.appends (hs : s.WellFormed) (ht : t.WellFormed) (hp : s.forest p ≠ none)
    (hc : s.forest c ≠ none) (habove : ¬ Above s.parentOf c p)
    (hforest : t.forest = (s.forest.detach c).attachLast p c) : s.Appends p c t := by
  have hparent : ∀ x, t.parentOf x = if x = c then some p else s.parentOf x := by
    intro x
    rw [parentOf_eq_forest, parentOf_eq_forest, hforest,
      Forest.parent?_attachLast _ _ _ (mt Forest.detach_eq_none_iff.mp hc), Forest.parent?_detach]
    split <;> rfl
  have hchildren : ∀ x, t.childIds x =
      (s.childIds x).filter (· ≠ c) ++ if x = p then [c] else [] := by
    intro x
    rw [← hs.erase_childIds, childIds_eq_forest, childIds_eq_forest, hforest,
      Forest.children_attachLast _ _ _ (mt Forest.detach_eq_none_iff.mp hp), Forest.children_detach]
  have hcontent : ∀ x, t.content x = s.content x := by
    intro x
    rw [content_eq_forest, content_eq_forest, hforest, Forest.content_attachLast, Forest.content_detach]
  have hother : ∀ x, x ≠ p → s.parentOf c ≠ some x → t.childIds x = s.childIds x := by
    intro x hxp hx
    rw [hchildren, if_neg hxp, List.append_nil, hs.filter_childIds hx]
  have hup : ∀ x, x ≠ c → t.parentOf x = s.parentOf x := by
    intro x hx
    rw [hparent, if_neg hx]
  refine ⟨?_, ?_, hother, ?_, hup, ?_, hcontent, fun x => ⟨⟨?_, ?_⟩, fun hx => ?_⟩⟩
  · rw [hchildren, if_pos rfl]
  · intro q _ hq
    rw [hchildren, if_neg hq, List.append_nil]
  · rw [hparent, if_pos rfl]
  · refine parentless_eq_of_mem (s.parentless_ascend.filter _) fun x => ?_
    rw [List.mem_filter, ht.mem_parentless_iff, hs.mem_parentless_iff, hcontent, hparent]
    by_cases hx : x = c <;> simp [hx]
  · exact Above.of_eq_off fun y hy => (hup y hy).symm
  · exact Above.of_eq_off hup
  · -- Neither the new parent nor the former one is below `c`.
    refine hother x (fun hxp => habove (hxp ▸ hx)) fun hpar => ?_
    exact (hs.rooted_parentOf c).not_above_of_up hpar hx

/-- Appending a child is answered by the first of the words that names no live id, else by whether the
child is the parent or above it, and no index matters. Where it is refused nothing changes, and else the
child moves with what is under it to the end of the children of the parent. -/
theorem Reachable.appendChild_effect (hs : s.Reachable) (parent child : Int32) :
    let out := s.apply (.appendChild parent child)
    (∀ index, s.apply (.insertChild parent child index) = out) ∧
      (∀ e, s.named parent = .error e → out = (.error e, s)) ∧
      (∀ p e, s.named parent = .ok p → s.named child = .error e → out = (.error e, s)) ∧
      ∀ p c, s.named parent = .ok p → s.named child = .ok c →
        (Above s.parentOf c p → out = (.error (.wouldCycle p c), s)) ∧
        (¬ Above s.parentOf c p → out.1 = .ok () ∧ s.Appends p c out.2) := by
  intro out
  have hw := hs.wellFormed
  refine ⟨fun _ => rfl, fun e he => hw.apply_of_error (bind_resolve_of_error he _), fun p e hp he => ?_,
    fun p c hp hc => ?_⟩
  · obtain ⟨_, _, hparent⟩ := exists_bind_resolve_eq hp
    exact hw.apply_of_error ((hparent _).trans (bind_resolve_of_error he _))
  · obtain ⟨a, ha, hparent⟩ := exists_bind_resolve_eq hp
    obtain ⟨b, hb, hchild⟩ := exists_bind_resolve_eq hc
    have hup : s.parentOf = s.forest.parent? := funext s.parentOf_eq_forest
    refine ⟨fun habove => ?_, fun habove => ?_⟩
    · exact hw.apply_of_error ((hparent _).trans ((hchild _).trans (if_pos (hup ▸ habove))))
    have hedit : s.forest.edit (.appendChild parent child) =
        .ok ((s.forest.detach c).attachLast p c) :=
      (hparent _).trans ((hchild _).trans (if_neg (hup ▸ habove)))
    obtain ⟨t, ht, hforest⟩ := hw.apply_of_ok hedit
    have hleft : t.WellFormed := by
      have hafter := hw.apply (.appendChild parent child)
      rwa [ht] at hafter
    simp only [out, ht, true_and]
    exact hw.appends hleft (by rw [ha]; exact nofun) (by rw [hb]; exact nofun) habove hforest

/-- A text is moved from a column to a row. -/
theorem appendChild_effect_sample :
    let s := (empty.applyAll sample).2
    s.named 3 = .ok ⟨3⟩ ∧ s.named 2 = .ok ⟨2⟩ ∧ ¬ Above s.parentOf ⟨2⟩ ⟨3⟩ ∧
      (s.apply (.appendChild 3 2)).1 = .ok () ∧
      (s.apply (.appendChild 3 2)).2.childIds ⟨3⟩ = [⟨2⟩] ∧
      (s.apply (.appendChild 3 2)).2.childIds ⟨1⟩ = [] ∧
      s.apply (.appendChild 1 4) = (.error (.unknownNode ⟨4⟩), s) := by
  intro s
  have hs : s.Reachable := Reachable.empty.applyAll sample
  have hrow : s.named 3 = .ok ⟨3⟩ := by decide
  have htext : s.named 2 = .ok ⟨2⟩ := by decide
  have habove : ¬ Above s.parentOf ⟨2⟩ ⟨3⟩ := by
    have htop : s.parentOf ⟨3⟩ = none := by decide
    rw [above_iff, htop]
    simp
  obtain ⟨_, _, _, hmove⟩ := hs.appendChild_effect 3 2
  obtain ⟨hok, hmoved⟩ := (hmove _ _ hrow htext).2 habove
  obtain ⟨_, _, hunknown, _⟩ := hs.appendChild_effect 1 4
  refine ⟨hrow, htext, habove, hok, ?_, ?_, hunknown ⟨1⟩ _ (by decide) (by decide)⟩
  · rw [hmoved.children_parent]
    decide
  · rw [hmoved.children_former ⟨1⟩ (by decide) (by decide)]
    decide

end RetainedUi.Store
