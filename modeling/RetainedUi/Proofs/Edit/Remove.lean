import RetainedUi.Proofs.Edit.Append
import RetainedUi.Proofs.Edit.Kept

/-!
# Removing a child

A child becomes a root, with all that is under it, and its siblings keep their order. What was appended
and is removed again leaves no trace.
-/

namespace RetainedUi.Store

variable {s t : Store} {p c : NodeId} {parent child : Int32}

/-- From `s` to `t` the child `c` of `p` becomes a root with what is under it, and nothing else changes. -/
structure Removes (s : Store) (p c : NodeId) (t : Store) : Prop where
  keeps : s.Keeps t
  children_parent : t.childIds p = (s.childIds p).filter (· ≠ c)
  children_other : ∀ x, x ≠ p → t.childIds x = s.childIds x
  parent_child : t.parentOf c = none
  parent_other : ∀ x, x ≠ c → t.parentOf x = s.parentOf x
  parentless : ∀ x, x ∈ t.parentless ↔ x ∈ s.parentless ∨ x = c
  content : ∀ x, t.content x = s.content x
  under : s.KeepsUnder c t

theorem WellFormed.removes (hs : s.WellFormed) (ht : t.WellFormed) (hk : s.Keeps t)
    (hp : s.parentOf c = some p) (hforest : t.forest = s.forest.detach c) : s.Removes p c t := by
  have hparent : ∀ x, t.parentOf x = if x = c then none else s.parentOf x := by
    intro x
    rw [parentOf_eq_forest, parentOf_eq_forest, hforest, Forest.parent?_detach]
  have hchildren : ∀ x, t.childIds x = (s.childIds x).filter (· ≠ c) := by
    intro x
    rw [← hs.erase_childIds, childIds_eq_forest, childIds_eq_forest, hforest, Forest.children_detach]
  have hcontent : ∀ x, t.content x = s.content x := by
    intro x
    rw [content_eq_forest, content_eq_forest, hforest, Forest.content_detach]
  have hother : ∀ x, x ≠ p → t.childIds x = s.childIds x := by
    intro x hx
    have hne : s.parentOf c ≠ some x := by
      rw [hp]
      exact fun e => hx (Option.some.inj e).symm
    rw [hchildren, hs.filter_childIds hne]
  have hup : ∀ x, x ≠ c → t.parentOf x = s.parentOf x := by
    intro x hx
    rw [hparent, if_neg hx]
  refine ⟨hk, hchildren p, hother, ?_, hup, fun x => ?_, hcontent, KeepsUnder.of_cut ?_ ?_ ?_⟩
  · rw [hparent, if_pos rfl]
  · rw [ht.mem_parentless_iff, hs.mem_parentless_iff, hcontent, hparent]
    by_cases hx : x = c
    · simp [hx, isSome_content_of_parentOf hp]
    · simp [hx]
  · intro x q hq
    rw [hparent] at hq
    split at hq
    · cases hq
    · exact hq
  · exact fun x hx _ => hup x hx
  · intro x hx
    refine hother x fun hxp => ?_
    exact (hs.rooted_parentOf c).not_above_of_up hp (hxp ▸ hx)

/-! ## Words that name nodes -/

theorem WellFormed.edit_removeChild (hw : s.WellFormed) (hp : s.named parent = .ok p)
    (hc : s.named child = .ok c) : s.forest.edit (.removeChild parent child) =
      if s.parentOf c = some p then .ok (s.forest.detach c) else .error (.notAChild p c) := by
  obtain ⟨a, ha, hparent⟩ := exists_bind_resolve_eq hp
  obtain ⟨b, _, hchild⟩ := exists_bind_resolve_eq hc
  refine (hparent _).trans ((hchild _).trans ?_)
  simp only [hw.mem_children_iff_parentOf ha]

theorem WellFormed.apply_removeChild (hw : s.WellFormed) (hp : s.named parent = .ok p)
    (hc : s.named child = .ok c) (hlink : s.parentOf c = some p) :
    ∃ t, s.apply (.removeChild parent child) = (.ok (), t) ∧ t.WellFormed ∧ s.Removes p c t := by
  have hedit := (hw.edit_removeChild hp hc).trans (if_pos hlink)
  obtain ⟨t, ht, hleft, hk, hforest⟩ :=
    hw.exists_of_edit hedit (Edit.stays_removeChild parent child s)
  exact ⟨t, ht, hleft, hw.removes hleft hk hlink hforest⟩

theorem WellFormed.apply_appendChild (hw : s.WellFormed) (hp : s.named parent = .ok p)
    (hc : s.named child = .ok c) (habove : ¬ Above s.parentOf c p) :
    ∃ t, s.apply (.appendChild parent child) = (.ok (), t) ∧ t.WellFormed ∧ s.Keeps t ∧
      s.Appends p c t := by
  obtain ⟨a, ha, hparent⟩ := exists_bind_resolve_eq hp
  obtain ⟨b, hb, hchild⟩ := exists_bind_resolve_eq hc
  have hup : s.parentOf = s.forest.parent? := funext s.parentOf_eq_forest
  have hedit : s.forest.edit (.appendChild parent child) =
      .ok ((s.forest.detach c).attachLast p c) :=
    (hparent _).trans ((hchild _).trans (if_neg (hup ▸ habove)))
  obtain ⟨t, ht, hleft, hk, hforest⟩ :=
    hw.exists_of_edit hedit (Edit.stays_appendChild parent child s)
  refine ⟨t, ht, hleft, hk, hw.appends hleft ?_ ?_ habove hforest⟩
  · rw [ha]; exact nofun
  · rw [hb]; exact nofun

theorem WellFormed.eq_of_append_remove {u : Store} (hs : s.WellFormed) (hu : u.WellFormed)
    (hk : s.Keeps t) (ha : s.Appends p c t) (hr : t.Removes p c u) (hroot : s.parentOf c = none) :
    u = s := by
  have hne : ∀ x, s.parentOf c ≠ some x := fun x => by rw [hroot]; exact nofun
  refine hs.eq_of_childIds hu (hk.trans hr.keeps) (fun x => ?_) fun x => ?_
  · rw [hr.content, ha.content]
  by_cases hx : x = p
  · rw [hx, hr.children_parent, ha.children_parent, hs.filter_childIds (hne p), List.filter_append,
      hs.filter_childIds (hne p)]
    simp
  · rw [hr.children_other x hx, ha.children_other x hx (hne x)]

/-- A child is removed exactly if it has the parent that is named, and becomes a root with what is under
it. A root that is appended under another tree and removed again leaves the store as it was. -/
theorem Reachable.removeChild_effect (hs : s.Reachable) (hp : s.named parent = .ok p)
    (hc : s.named child = .ok c) :
    let out := s.apply (.removeChild parent child)
    let appended := s.apply (.appendChild parent child)
    (s.parentOf c ≠ some p → out = (.error (.notAChild p c), s)) ∧
      (s.parentOf c = some p → out.1 = .ok () ∧ s.Removes p c out.2) ∧
      (s.parentOf c = none → ¬ Above s.parentOf c p →
        appended.1 = .ok () ∧ appended.2.apply (.removeChild parent child) = (.ok (), s)) := by
  intro out appended
  have hw := hs.wellFormed
  refine ⟨fun hlink => ?_, fun hlink => ?_, fun hroot habove => ?_⟩
  · exact hw.apply_of_error ((hw.edit_removeChild hp hc).trans (if_neg hlink))
  · obtain ⟨t, ht, _, hremoves⟩ := hw.apply_removeChild hp hc hlink
    simp only [out, ht, true_and]
    exact hremoves
  · obtain ⟨t, happ, ht, hk, happends⟩ := hw.apply_appendChild hp hc habove
    obtain ⟨u, hrem, hu, hremoves⟩ := ht.apply_removeChild ((hk.named _).trans hp)
      ((hk.named _).trans hc) happends.parent_child
    simp only [appended, happ, true_and]
    rw [hrem, hw.eq_of_append_remove hu hk happends hremoves hroot]

/-- A column of a row, which holds a text, and of a button; beside it a second column. -/
def nested : List Record :=
  [.createNode 1 1, .createNode 2 2, .createNode 3 5, .createNode 4 6, .createNode 5 1,
    .appendChild 1 2, .appendChild 1 4, .appendChild 2 3]

/-- The row is removed from its column, and not from the other one, which is put under the first and taken
away again. -/
theorem removeChild_effect_nested :
    let s := (empty.applyAll nested).2
    s.named 1 = .ok ⟨1⟩ ∧ s.named 2 = .ok ⟨2⟩ ∧ s.named 5 = .ok ⟨5⟩ ∧
      (s.apply (.removeChild 1 2)).2.childIds ⟨1⟩ = [⟨4⟩] ∧
      (s.apply (.removeChild 1 2)).2.childIds ⟨2⟩ = [⟨3⟩] ∧
      s.apply (.removeChild 5 2) = (.error (.notAChild ⟨5⟩ ⟨2⟩), s) ∧
      (s.apply (.appendChild 1 5)).2.apply (.removeChild 1 5) = (.ok (), s) := by
  intro s
  have hs : s.Reachable := Reachable.empty.applyAll nested
  have hcolumn : s.named 1 = .ok ⟨1⟩ := by decide
  have hrow : s.named 2 = .ok ⟨2⟩ := by decide
  have hsecond : s.named 5 = .ok ⟨5⟩ := by decide
  have habove : ¬ Above s.parentOf ⟨5⟩ ⟨1⟩ := by
    have htop : s.parentOf ⟨1⟩ = none := by decide
    rw [above_iff, htop]
    simp
  obtain ⟨_, hremoved⟩ := (hs.removeChild_effect hcolumn hrow).2.1 (by decide)
  refine ⟨hcolumn, hrow, hsecond, ?_, ?_, (hs.removeChild_effect hsecond hrow).1 (by decide),
    ((hs.removeChild_effect hcolumn hsecond).2.2 (by decide) habove).2⟩
  · rw [hremoved.children_parent]
    decide
  · rw [hremoved.children_other ⟨2⟩ (by decide)]
    decide

end RetainedUi.Store
