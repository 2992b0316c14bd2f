import RetainedUi.Proofs.Edit.History
import RetainedUi.Proofs.Edit.Remove

/-!
# Deleting a node

A node is taken out with all links to it, and its children become roots with what is under them. Whoever
gets its slot, nothing of it is left for a node that is created for its id later.
-/

namespace RetainedUi

/-- The record creates a node for an id that is not live. -/
def Record.Creates (x : NodeId) : Record → Prop
  | .createNode word code => NodeId.ofWord? word = some x ∧ NodeKind.ofCode? code ≠ none
  | _ => False

instance (x : NodeId) : DecidablePred (Record.Creates x)
  | .createNode _ _ => inferInstanceAs (Decidable (_ ∧ _))
  | .deleteNode _ | .setProp _ _ _ | .appendChild _ _ | .insertChild _ _ _ | .removeChild _ _
  | .replaceChild _ _ _ | .setPropStr _ _ _ => inferInstanceAs (Decidable False)

namespace Store

open Edit

variable {s t : Store} {d : NodeId} {h : Handle} {word : Int32}

/-! ## What deleting does -/

/-- From `s` to `t` the id `d`, whose handle was `h`, is taken out, its children become roots with what
is under them, and nothing else changes. -/
structure Deletes (s : Store) (d : NodeId) (h : Handle) (t : Store) : Prop where
  ids : t.ids = s.ids.filter (· ≠ d)
  children_parent : ∀ p, s.parentOf d = some p → t.childIds p = (s.childIds p).filter (· ≠ d)
  children_other : ∀ x, x ≠ d → s.parentOf d ≠ some x → t.childIds x = s.childIds x
  parent_child : ∀ c ∈ s.childIds d, t.parentOf c = none
  parent_other : ∀ x, x ≠ d → x ∉ s.childIds d → t.parentOf x = s.parentOf x
  parentless : ∀ x, x ∈ t.parentless ↔ x ∈ s.parentless ∧ x ≠ d ∨ x ∈ s.childIds d
  content : ∀ x, x ≠ d → t.content x = s.content x
  under : ∀ c ∈ s.childIds d, s.KeepsUnder c t
  unlinked : ∀ k n, t.get? k = some n → n.parent ≠ some h ∧ h ∉ n.children
  handle : ∀ x, x ≠ d → t.handle? x = s.handle? x
  slots : s.Clears (· = d) t
  free : t.free = h.index :: s.free

theorem Linked.unlinked_delete (hl : s.Linked) {n : Node} (hn : s.get? h = some n) {k : Handle}
    {m : Node} (hm : (s.delete h).get? k = some m) : m.parent ≠ some h ∧ h ∉ m.children := by
  rw [hl.get?_delete hn] at hm
  split at hm
  · cases hm
  obtain ⟨l, hlk, rfl⟩ := Option.map_eq_some_iff.mp hm
  refine ⟨?_, fun hmem => ?_⟩
  · simp only
    split
    · exact nofun
    · assumption
  · have hnodup : l.children.toList.Nodup := children_of_get? hlk ▸ hl.nodup_children k
    exact ((mem_erase_iff hnodup).mp hmem).1 rfl

theorem WellFormed.ids_delete (hw : s.WellFormed) {n : Node} (hn : s.get? h = some n) :
    (s.delete h).ids = s.ids.filter (· ≠ n.id) := by
  refine eq_of_ascend (ids_ascend _) ((ids_ascend s).filter _) fun x => ?_
  rw [List.mem_filter, mem_ids, mem_ids, hw.handle?_delete hn]
  by_cases hx : x = n.id <;> simp [hx]

/-- What is under a child of a deleted node does not pass the node. -/
theorem WellFormed.not_above_of_child (hw : s.WellFormed) {c x : NodeId}
    (hc : s.parentOf c = some d) (hx : Above s.parentOf c x) : x ≠ d ∧ s.parentOf d ≠ some x := by
  have hnot := (hw.rooted_parentOf c).not_above_of_up hc
  refine ⟨?_, fun hd => hnot (hx.of_up hd)⟩
  rintro rfl
  exact hnot hx

theorem WellFormed.deletes (hw : s.WellFormed) {n : Node} (hn : s.get? h = some n) :
    s.Deletes n.id h (s.delete h) := by
  have ht := hw.delete hn
  have hparent : ∀ x, (s.delete h).parentOf x =
      if x = n.id ∨ s.parentOf x = some n.id then none else s.parentOf x := by
    intro x
    rw [parentOf_eq_forest, parentOf_eq_forest, hw.forest_delete hn, Forest.parent?_delete]
  have hchildren : ∀ x, x ≠ n.id → (s.delete h).childIds x = (s.childIds x).filter (· ≠ n.id) := by
    intro x hx
    rw [← hw.erase_childIds, childIds_eq_forest, childIds_eq_forest, hw.forest_delete hn,
      Forest.children_delete, if_neg hx]
  have hcontent : ∀ x, (s.delete h).content x = if x = n.id then none else s.content x := by
    intro x
    rw [content_eq_forest, content_eq_forest, hw.forest_delete hn, Forest.content_delete]
  have hother : ∀ x, x ≠ n.id → s.parentOf n.id ≠ some x →
      (s.delete h).childIds x = s.childIds x := by
    intro x hxn hx
    rw [hchildren x hxn, hw.filter_childIds hx]
  have hself : s.parentOf n.id ≠ some n.id := fun hp =>
    (hw.rooted_parentOf n.id).not_above_of_up hp (Above.refl _)
  refine ⟨hw.ids_delete hn, fun p hp => ?_, hother, fun c hc => ?_, fun x hxn hx => ?_, fun x => ?_,
    fun x hx => ?_, fun c hc => ?_, fun _ _ => hw.unlinked_delete hn, fun x hx => ?_,
    hw.clears_delete hw.toArena hn, hw.free_delete hn⟩
  · exact hchildren p fun e => hself (e ▸ hp)
  · rw [hparent, if_pos (Or.inr (hw.parentOf_of_mem_childIds hc))]
  · rw [hparent, if_neg (not_or.mpr ⟨hxn, mt hw.mem_childIds_of_parentOf hx⟩)]
  · rw [ht.mem_parentless_iff, hw.mem_parentless_iff, hw.mem_childIds_iff, hcontent, hparent]
    by_cases hxn : x = n.id
    · simp [hxn, hself]
    by_cases hx : s.parentOf x = some n.id
    · simp [hxn, hx, isSome_content_of_parentOf hx]
    · simp [hxn, hx]
  · rw [hcontent, if_neg hx]
  · have hup := hw.parentOf_of_mem_childIds hc
    refine KeepsUnder.of_cut (fun x p hp => ?_) (fun x hxc hx => ?_) fun x hx => ?_
    · rw [hparent] at hp
      split at hp
      · cases hp
      · exact hp
    · rw [hparent, if_neg]
      rintro (hxn | hxn)
      · exact (hw.not_above_of_child hup hx).1 hxn
      · -- The node itself would be under its child.
        rcases above_iff.mp hx with hxc' | ⟨p, hp, habove⟩
        · exact hxc hxc'
        · rw [hxn] at hp
          cases hp
          exact (hw.not_above_of_child hup habove).1 rfl
    · obtain ⟨hxn, hne⟩ := hw.not_above_of_child hup hx
      exact hother x hxn hne
  · rw [hw.handle?_delete hn, if_neg hx]

/-! ## Creating the id again -/

theorem Record.creates_of_granted {r : Record} (hr : Operation.Creates s d (.apply r)) :
    r.Creates d := by
  cases r with
  | createNode word code =>
      obtain ⟨hx, hok⟩ := hr
      refine ⟨hx, fun hcode => ?_⟩
      replace hok : ((createNode word code).run s).1 = .ok () := hok
      simp only [createNode, hx, hcode, run_throw, reduceCtorEq] at hok
  | _ => exact hr

theorem WellFormed.handle?_apply_eq_none (hw : s.WellFormed) (hd : s.handle? d = none) {r : Record}
    (hr : ¬ r.Creates d) : (s.apply r).2.handle? d = none := by
  rw [Option.eq_none_iff_forall_ne_some]
  intro k hk
  obtain ⟨i, hi⟩ := (hw.apply r).exists_occupant?_iff.mpr ⟨k, hk⟩
  rcases (hw.effect_perform (.apply r)).occupant? hi with hi | hnew
  · obtain ⟨k', hk'⟩ := hw.exists_occupant?_iff.mp ⟨i, hi⟩
    rw [hd] at hk'
    cases hk'
  · exact hr (Record.creates_of_granted hnew)

theorem WellFormed.handle?_applyAll_eq_none (hw : s.WellFormed) (hd : s.handle? d = none)
    {rs : List Record} (hrs : ∀ r ∈ rs, ¬ r.Creates d) : (s.applyAll rs).2.handle? d = none := by
  induction rs generalizing s with
  | nil => exact hd
  | cons r rs ih =>
      have hr := hw.handle?_apply_eq_none hd (hrs r List.mem_cons_self)
      exact ih (hw.apply r) hr fun r' hmem => hrs r' (List.mem_cons_of_mem r hmem)

theorem WellFormed.apply_createNode_new (hw : s.WellFormed) (hd : NodeId.ofWord? word = some d)
    {code : Int32} {kind : NodeKind} (hcode : NodeKind.ofCode? code = some kind)
    (hnew : s.handle? d = none) :
    ∃ t, s.apply (.createNode word code) = (.ok (), t) ∧ t.node? d = some { id := d, kind } := by
  obtain ⟨h, t, hins, _, hp⟩ := hw.insert (NodeId.valid_of_ofWord? hd) hnew kind
  refine ⟨t, ?_, ?_⟩
  · show (createNode word code).run s = _
    simp only [createNode, hd, hcode, run_bind, run_get, hnew, run_modifyGet, hins, run_pure]
  · rw [node?, hp.handle?, if_pos rfl, Option.bind_some, hp.get?, if_pos rfl]

/-- A live node is always deleted. A node that is created for its id later, after records of which none
creates it, is new in every part. -/
theorem Reachable.deleteNode_effect (hs : s.Reachable) (hd : s.named word = .ok d) :
    ∃ h t, s.handle? d = some h ∧ s.apply (.deleteNode word) = (.ok (), t) ∧ s.Deletes d h t ∧
      ∀ rs code kind, (∀ r ∈ rs, ¬ r.Creates d) → NodeKind.ofCode? code = some kind →
        ∃ u, (t.applyAll rs).2.apply (.createNode word code) = (.ok (), u) ∧
          u.node? d = some { id := d, kind } := by
  have hw := hs.wellFormed
  obtain ⟨hword, hlive⟩ := named_eq_ok_iff.mp hd
  obtain ⟨n, hn⟩ := Option.isSome_iff_exists.mp hlive
  obtain ⟨h, hget, rfl⟩ := hw.get?_of_node? hn
  have hh := (hw.handle?_iff n.id h).mpr (id?_of_get? hget)
  have hgone : (s.delete h).handle? n.id = none := by rw [hw.handle?_delete hget, if_pos rfl]
  refine ⟨h, s.delete h, hh, hw.run_deleteNode hword hh hget, hw.deletes hget,
    fun rs code kind hrs hcode => ?_⟩
  have hdel := hw.delete hget
  exact (hdel.applyAll rs).apply_createNode_new hword hcode (hdel.handle?_applyAll_eq_none hgone hrs)

/-- The row is deleted, its slot goes to another column, which takes the text, and the row comes back as a
button. -/
theorem deleteNode_effect_nested :
    let s := (empty.applyAll nested).2
    let t := (s.apply (.deleteNode 2)).2
    let between : List Record :=
      [.createNode 6 1, .appendChild 6 3, .createNode 2 99, .deleteNode 4]
    s.named 2 = .ok ⟨2⟩ ∧ s.handle? ⟨2⟩ = some ⟨1, 0⟩ ∧ (∀ r ∈ between, ¬ r.Creates ⟨2⟩) ∧
      t.ids = [⟨1⟩, ⟨3⟩, ⟨4⟩, ⟨5⟩] ∧ t.childIds ⟨1⟩ = [⟨4⟩] ∧ t.parentOf ⟨3⟩ = none ∧
      (t.applyAll between).2.handle? ⟨6⟩ = some ⟨1, 1⟩ ∧
      ((t.applyAll between).2.apply (.createNode 2 6)).2.node? ⟨2⟩ =
        some { id := ⟨2⟩, kind := .button } := by
  intro s t between
  have hs : s.Reachable := Reachable.empty.applyAll nested
  have hrow : s.named 2 = .ok ⟨2⟩ := by decide
  have hbetween : ∀ r ∈ between, ¬ r.Creates ⟨2⟩ := by decide
  obtain ⟨h, u, _, hu, hdeletes, hagain⟩ := hs.deleteNode_effect hrow
  obtain rfl : t = u := congrArg Prod.snd hu
  obtain ⟨v, hv, hnode⟩ := hagain between 6 .button hbetween (by decide)
  refine ⟨hrow, by decide, hbetween, ?_, ?_, hdeletes.parent_child _ (by decide), by decide, ?_⟩
  · rw [hdeletes.ids]
    decide
  · rw [hdeletes.children_parent _ (by decide)]
    decide
  · rw [hv]
    exact hnode

end Store

end RetainedUi
