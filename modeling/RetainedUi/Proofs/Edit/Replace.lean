import RetainedUi.Proofs.Edit.Remove

/-!
# Replacing a child

The new child leaves the place it had, wherever that is, and comes where the old one stood; the old one
becomes a root and keeps what is under it, but for the new child.
-/

namespace RetainedUi.Store

variable {s t : Store} {p o n : NodeId} {parent old new : Int32}

/-- From `s` to `t` the child `o` of `p` makes place for `n` and becomes a root, and nothing else
changes. -/
structure Replaces (s : Store) (p o n : NodeId) (t : Store) : Prop where
  keeps : s.Keeps t
  children_parent : t.childIds p = ((s.childIds p).filter (· ≠ n)).replace o n
  children_former : ∀ q, s.parentOf n = some q → q ≠ p → t.childIds q = (s.childIds q).filter (· ≠ n)
  children_old : t.childIds o = (s.childIds o).filter (· ≠ n)
  children_other : ∀ x, x ≠ p → s.parentOf n ≠ some x → t.childIds x = s.childIds x
  parent_new : t.parentOf n = some p
  parent_old : t.parentOf o = none
  parent_other : ∀ x, x ≠ o → x ≠ n → t.parentOf x = s.parentOf x
  parentless : ∀ x, x ∈ t.parentless ↔ x = o ∨ x ∈ s.parentless ∧ x ≠ n
  content : ∀ x, t.content x = s.content x

theorem WellFormed.replaces (hs : s.WellFormed) (ht : t.WellFormed) (hk : s.Keeps t)
    (hlink : s.parentOf o = some p) (hon : o ≠ n) (hn : s.forest n ≠ none)
    (hforest : t.forest = (s.forest.detach n).replaceChild p o n) : s.Replaces p o n t := by
  have hparent : ∀ x, t.parentOf x =
      if x = n then some p else if x = o then none else s.parentOf x := by
    intro x
    rw [parentOf_eq_forest, parentOf_eq_forest, hforest,
      Forest.parent?_replaceChild _ _ _ _ (mt Forest.detach_eq_none_iff.mp hn), Forest.parent?_detach]
    split <;> rfl
  have hchildren : ∀ x, t.childIds x = if x = p then ((s.childIds x).filter (· ≠ n)).replace o n
      else (s.childIds x).filter (· ≠ n) := by
    intro x
    rw [← hs.erase_childIds, childIds_eq_forest, childIds_eq_forest, hforest,
      Forest.children_replaceChild, Forest.children_detach]
  have hcontent : ∀ x, t.content x = s.content x := by
    intro x
    rw [content_eq_forest, content_eq_forest, hforest, Forest.content_replaceChild,
      Forest.content_detach]
  have hold : o ≠ p := by
    rintro rfl
    exact (hs.rooted_parentOf o).not_above_of_up hlink (Above.refl o)
  refine ⟨hk, ?_, fun q _ hq => ?_, ?_, fun x hxp hx => ?_, ?_, ?_, fun x hxo hxn => ?_, fun x => ?_,
    hcontent⟩
  · rw [hchildren, if_pos rfl]
  · rw [hchildren, if_neg hq]
  · rw [hchildren, if_neg hold]
  · rw [hchildren, if_neg hxp, hs.filter_childIds hx]
  · rw [hparent, if_pos rfl]
  · rw [hparent, if_neg hon, if_pos rfl]
  · rw [hparent, if_neg hxn, if_neg hxo]
  · rw [ht.mem_parentless_iff, hs.mem_parentless_iff, hcontent, hparent]
    by_cases hxn : x = n
    · simp [hxn, Ne.symm hon]
    by_cases hxo : x = o
    · simp [hxo, hon, isSome_content_of_parentOf hlink]
    · simp [hxn, hxo]

open Classical in
theorem WellFormed.edit_replaceChild (hw : s.WellFormed) (hp : s.named parent = .ok p)
    (ho : s.named old = .ok o) (hn : s.named new = .ok n) :
    s.forest.edit (.replaceChild parent old new) =
      if s.parentOf o ≠ some p then .error (.notAChild p o)
      else if o = n then .ok s.forest
      else if Above s.parentOf n p then .error (.wouldCycle p n)
      else .ok ((s.forest.detach n).replaceChild p o n) := by
  obtain ⟨a, ha, hparent⟩ := exists_bind_resolve_eq hp
  obtain ⟨_, _, hold⟩ := exists_bind_resolve_eq ho
  obtain ⟨_, _, hnew⟩ := exists_bind_resolve_eq hn
  have hup : s.parentOf = s.forest.parent? := funext s.parentOf_eq_forest
  refine (hparent _).trans ((hold _).trans ((hnew _).trans ?_))
  simp only [hw.mem_children_iff_parentOf ha, hup]

/-- Replacing a child is answered by the first of the words that names no live id, else by whether the old
child has that parent, and then by whether the new one is the parent or above it. Where it is refused
nothing changes, nor where a child would replace itself; else the new child comes to stand in the place of
the old one. -/
theorem Reachable.replaceChild_effect (hs : s.Reachable) (parent old new : Int32) :
    let out := s.apply (.replaceChild parent old new)
    (∀ e, s.named parent = .error e → out = (.error e, s)) ∧
      (∀ p e, s.named parent = .ok p → s.named old = .error e → out = (.error e, s)) ∧
      (∀ p o e, s.named parent = .ok p → s.named old = .ok o → s.named new = .error e →
        out = (.error e, s)) ∧
      ∀ p o n, s.named parent = .ok p → s.named old = .ok o → s.named new = .ok n →
        (s.parentOf o ≠ some p → out = (.error (.notAChild p o), s)) ∧
        (s.parentOf o = some p → o = n → out = (.ok (), s)) ∧
        (s.parentOf o = some p → o ≠ n → Above s.parentOf n p →
          out = (.error (.wouldCycle p n), s)) ∧
        (s.parentOf o = some p → o ≠ n → ¬ Above s.parentOf n p →
          out.1 = .ok () ∧ s.Replaces p o n out.2) := by
  intro out
  have hw := hs.wellFormed
  refine ⟨fun e he => hw.apply_of_error (bind_resolve_of_error he _), fun p e hp he => ?_,
    fun p o e hp ho he => ?_, fun p o n hp ho hn => ?_⟩
  · obtain ⟨_, _, hparent⟩ := exists_bind_resolve_eq hp
    exact hw.apply_of_error ((hparent _).trans (bind_resolve_of_error he _))
  · obtain ⟨_, _, hparent⟩ := exists_bind_resolve_eq hp
    obtain ⟨_, _, hold⟩ := exists_bind_resolve_eq ho
    exact hw.apply_of_error ((hparent _).trans ((hold _).trans (bind_resolve_of_error he _)))
  have hedit := hw.edit_replaceChild hp ho hn
  refine ⟨fun hlink => ?_, fun hlink hon => ?_, fun hlink hon habove => ?_, fun hlink hon habove => ?_⟩
  · exact hw.apply_of_error (hedit.trans (if_pos hlink))
  · rw [if_neg (not_not_intro hlink), if_pos hon] at hedit
    exact hw.apply_eq_self hedit
  · rw [if_neg (not_not_intro hlink), if_neg hon, if_pos habove] at hedit
    exact hw.apply_of_error hedit
  · rw [if_neg (not_not_intro hlink), if_neg hon, if_neg habove] at hedit
    obtain ⟨_, hnew, _⟩ := exists_bind_resolve_eq hn
    obtain ⟨t, ht, hleft, hk, hforest⟩ :=
      hw.exists_of_edit hedit (Edit.stays_replaceChild parent old new s)
    simp only [out, ht, true_and]
    exact hw.replaces hleft hk hlink hon (by rw [hnew]; exact nofun) hforest

/-- A row makes place for the text in it, and a button for the row before it. -/
theorem replaceChild_effect_nested :
    let s := (empty.applyAll nested).2
    s.named 1 = .ok ⟨1⟩ ∧ s.named 2 = .ok ⟨2⟩ ∧ s.named 3 = .ok ⟨3⟩ ∧ s.named 4 = .ok ⟨4⟩ ∧
      (s.apply (.replaceChild 1 2 3)).2.childIds ⟨1⟩ = [⟨3⟩, ⟨4⟩] ∧
      (s.apply (.replaceChild 1 2 3)).2.childIds ⟨2⟩ = [] ∧
      (s.apply (.replaceChild 1 4 2)).2.childIds ⟨1⟩ = [⟨2⟩] ∧
      ⟨4⟩ ∈ (s.apply (.replaceChild 1 4 2)).2.parentless ∧
      s.apply (.replaceChild 1 2 1) = (.error (.wouldCycle ⟨1⟩ ⟨1⟩), s) := by
  intro s
  have hs : s.Reachable := Reachable.empty.applyAll nested
  have hcolumn : s.named 1 = .ok ⟨1⟩ := by decide
  have hrow : s.named 2 = .ok ⟨2⟩ := by decide
  have htext : s.named 3 = .ok ⟨3⟩ := by decide
  have hbutton : s.named 4 = .ok ⟨4⟩ := by decide
  have habove : ∀ x : NodeId, x ≠ ⟨1⟩ → ¬ Above s.parentOf x ⟨1⟩ := by
    intro x hx
    have htop : s.parentOf ⟨1⟩ = none := by decide
    rw [above_iff, htop]
    simp [Ne.symm hx]
  obtain ⟨_, _, _, hinner⟩ := hs.replaceChild_effect 1 2 3
  obtain ⟨_, _, _, hsibling⟩ := hs.replaceChild_effect 1 4 2
  obtain ⟨_, _, _, hself⟩ := hs.replaceChild_effect 1 2 1
  obtain ⟨_, hinner⟩ := (hinner _ _ _ hcolumn hrow htext).2.2.2 (by decide) (by decide)
    (habove _ (by decide))
  obtain ⟨_, hsibling⟩ := (hsibling _ _ _ hcolumn hbutton hrow).2.2.2 (by decide) (by decide)
    (habove _ (by decide))
  refine ⟨hcolumn, hrow, htext, hbutton, ?_, ?_, ?_, (hsibling.parentless _).mpr (Or.inl rfl),
    (hself _ _ _ hcolumn hrow hcolumn).2.2.1 (by decide) (by decide) (Above.refl _)⟩
  · rw [hinner.children_parent]
    decide
  · rw [hinner.children_old]
    decide
  · rw [hsibling.children_parent]
    decide

end RetainedUi.Store
