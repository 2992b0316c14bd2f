import RetainedUi.Proofs.Edit.Run
import RetainedUi.Proofs.Forest.View

/-!
# Edits of stores and of forests

An edit of a store answers as the edit of its forest does: a refused one leaves the store as it was,
an applied one leaves a well-formed store that holds the edited forest.
-/

namespace RetainedUi

/-- What the edit of a forest says of the answer of a store `s` and of the store that is left. -/
inductive Realizes (s : Store) : Except EditError Forest → Except EditError Unit × Store → Prop
  | applied {t : Store} {f : Forest} : t.WellFormed → t.forest = f → Realizes s (.ok f) (.ok (), t)
  | refused (e : EditError) : Realizes s (.error e) (.error e, s)

/-- Applies records one after the other: the answers, and the store in the end. -/
def Store.applyAll (s : Store) : List Record → List (Except EditError Unit) × Store
  | [] => ([], s)
  | r :: rs =>
    let (answer, t) := s.apply r
    let (answers, u) := t.applyAll rs
    (answer :: answers, u)

/-- Edits a forest by records one after the other; a refused record leaves it as it is. -/
noncomputable def Forest.editAll (f : Forest) : List Record → List (Except EditError Unit) × Forest
  | [] => ([], f)
  | r :: rs =>
    match f.edit r with
    | .ok g => let (answers, h) := editAll g rs; (.ok () :: answers, h)
    | .error e => let (answers, h) := editAll f rs; (.error e :: answers, h)

namespace Store

variable {s : Store}

open Edit

/-- A word is resolved alike in a store and in its forest; an edit may go on from there. -/
theorem WellFormed.realizes_resolve (hw : s.WellFormed) (word : Int32)
    {F : NodeId × Element → Except EditError Forest} {f : NodeId × Handle → Edit Unit}
    (hlive : ∀ h n, s.get? h = some n →
      Realizes s (F (n.id, s.element n)) ((f (n.id, h)).run s)) :
    Realizes s (s.forest.resolve word >>= F) ((Edit.resolve word >>= f).run s) := by
  rw [run_bind]
  cases hx : NodeId.ofWord? word with
  | none =>
      rw [run_resolve_of_invalid hx]
      simp only [Forest.resolve, hx]
      exact .refused _
  | some x =>
      cases hh : s.handle? x with
      | none =>
          rw [run_resolve_of_unknown hx hh]
          simp only [Forest.resolve, hx, hw.forest_eq_none_iff.mpr hh]
          exact .refused _
      | some h =>
          obtain ⟨n, hn, rfl⟩ := hw.get?_of_handle? hh
          rw [run_resolve_of_live hx hh]
          simp only [Forest.resolve, hx, hw.forest_eq hn]
          exact hlive h n hn

/-! ## One record -/

theorem WellFormed.realizes_createNode (hw : s.WellFormed) (word code : Int32) :
    Realizes s (s.forest.edit (.createNode word code)) ((createNode word code).run s) := by
  simp only [Forest.edit, createNode]
  cases hx : NodeId.ofWord? word with
  | none => exact .refused _
  | some x =>
      cases NodeKind.ofCode? code with
      | none => exact .refused _
      | some kind =>
          simp only [run_bind, run_get]
          cases hh : s.handle? x with
          | none =>
              obtain ⟨h, t, hins, ht, hp⟩ := hw.insert (NodeId.valid_of_ofWord? hx) hh kind
              simp only [hw.forest_eq_none_iff.mpr hh, run_bind, run_modifyGet, hins, run_pure]
              exact .applied (hw.of_puts ht hp rfl rfl) (hw.forest_puts ht hp)
          | some h =>
              obtain ⟨n, hn, rfl⟩ := hw.get?_of_handle? hh
              simp only [hw.forest_eq hn, run_modifyNode hn]
              refine .applied (hw.modify h ?_ ?_ ?_) (hw.forest_modify hn ?_ ?_)
              all_goals exact fun _ => rfl

theorem WellFormed.realizes_deleteNode (hw : s.WellFormed) (word : Int32) :
    Realizes s (s.forest.edit (.deleteNode word)) ((deleteNode word).run s) := by
  refine hw.realizes_resolve word fun h n hn => ?_
  obtain ⟨m, t, hrem⟩ : ∃ m t, (s.detach h).remove h = (some m, t) :=
    ⟨_, _, remove_of_get? (hw.get?_detach_self hn)⟩
  have hdel : s.delete h = m.children.foldl orphan t := by
    rw [Store.delete, hrem]
  simp only [run_bind, run_modify, run_modifyGet, hrem, ← hdel]
  exact .applied (hw.delete hn) (hw.forest_delete hn)

theorem WellFormed.realizes_setProp (hw : s.WellFormed) (word key value : Int32) :
    Realizes s (s.forest.edit (.setProp word key value)) ((setProp word key value).run s) := by
  refine hw.realizes_resolve word fun h n hn => ?_
  simp only [run_bind, run_get, hn, element]
  cases n.props.set? key value with
  | none => exact .refused _
  | some props =>
      refine .applied (hw.modify h ?_ ?_ ?_) (hw.forest_modify hn ?_ ?_)
      all_goals exact fun _ => rfl

theorem WellFormed.realizes_setPropStr (hw : s.WellFormed) (word key : Int32) (payload : Bytes) :
    Realizes s (s.forest.edit (.setPropStr word key payload)) ((setPropStr word key payload).run s) := by
  refine hw.realizes_resolve word fun h n hn => ?_
  by_cases hkey : key = PropKey.text
  · simp only [hkey, ne_eq, not_true_eq_false, ↓reduceIte, run_modifyNode hn]
    refine .applied (hw.modify h ?_ ?_ ?_) (hw.forest_modify hn ?_ ?_)
    all_goals exact fun _ => rfl
  · simp only [hkey, ne_eq, not_false_eq_true, ↓reduceIte, run_bind, run_throw]
    exact .refused _

theorem WellFormed.realizes_appendChild (hw : s.WellFormed) (parent child : Int32) :
    Realizes s (s.forest.edit (.appendChild parent child)) ((appendChild parent child).run s) := by
  refine hw.realizes_resolve parent fun p n hp => ?_
  refine hw.realizes_resolve child fun c m hc => ?_
  have htest := hw.isAncestorOrSelf_iff (a := c) hp
  have hforest := hw.above_forest_iff hp hc
  simp only [run_bind, run_get]
  by_cases habove : Above s.parent? c p
  · rw [if_pos (htest.mpr habove), if_pos (hforest.mpr habove), run_bind, run_throw]
    exact .refused _
  rw [if_neg (mt htest.mp habove), if_neg (mt hforest.mp habove)]
  have hp' := hw.get?_detach_of_get? hp c
  have hc' := hw.get?_detach_of_get? hc c
  simp only [run_bind, run_requireLive hp, run_modify, run_requireLive hc', run_requireLive hp']
  refine .applied (hw.append hp hc habove) ?_
  rw [(hw.detach c).forest_attachLast hp' hc', hw.forest_detach hc]

theorem WellFormed.realizes_removeChild (hw : s.WellFormed) (parent child : Int32) :
    Realizes s (s.forest.edit (.removeChild parent child)) ((removeChild parent child).run s) := by
  refine hw.realizes_resolve parent fun p n hp => ?_
  refine hw.realizes_resolve child fun c m hc => ?_
  have hmem := hw.mem_children_iff hp hc
  simp only [run_bind, run_get]
  by_cases hchild : c ∈ s.children p
  · rw [if_neg (not_not_intro hchild), if_pos (hmem.mp hchild), run_modify]
    exact .applied (hw.detach c) (hw.forest_detach hc)
  · rw [if_pos hchild, if_neg (mt hmem.mpr hchild), run_bind, run_throw]
    exact .refused _

theorem WellFormed.realizes_replaceChild (hw : s.WellFormed) (parent old new : Int32) :
    Realizes s (s.forest.edit (.replaceChild parent old new))
      ((replaceChild parent old new).run s) := by
  refine hw.realizes_resolve parent fun p n hp => ?_
  refine hw.realizes_resolve old fun o m ho => ?_
  refine hw.realizes_resolve new fun c l hc => ?_
  have hmem := hw.mem_children_iff hp ho
  have hsame := hw.eq_iff_id_eq ho hc
  have htest := hw.isAncestorOrSelf_iff (a := c) hp
  have hforest := hw.above_forest_iff hp hc
  simp only [run_bind, run_get]
  by_cases hchild : o ∈ s.children p
  swap
  · rw [if_pos hchild, if_pos (mt hmem.mpr hchild), run_bind, run_throw]
    exact .refused _
  rw [if_neg (not_not_intro hchild), if_neg (not_not_intro (hmem.mp hchild))]
  by_cases hoc : o = c
  · rw [if_pos hoc, if_pos (hsame.mp hoc), run_pure]
    exact .applied hw rfl
  rw [if_neg hoc, if_neg (mt hsame.mpr hoc), run_bind, run_get]
  by_cases habove : Above s.parent? c p
  · simp only [if_pos (htest.mpr habove), if_pos (hforest.mpr habove), run_bind, run_throw]
    exact .refused _
  simp only [if_neg (mt htest.mp habove), if_neg (mt hforest.mp habove), run_bind, run_modify,
    run_get]
  have hkeep : o ∈ (s.detach c).children p := by
    rw [hw.children_detach, mem_erase_iff (hw.nodup_children p)]
    exact ⟨hoc, hchild⟩
  cases hpos : ((s.detach c).children p).idxOf? o with
  | none => exact absurd hkeep (Array.idxOf?_eq_none_iff.mp hpos)
  | some pos =>
      have hp' := hw.get?_detach_of_get? hp c
      have ho' := hw.get?_detach_of_get? ho c
      have hc' := hw.get?_detach_of_get? hc c
      simp only [run_modify]
      refine .applied (hw.replace hc (getElem?_of_idxOf? hpos) habove) ?_
      rw [children_of_get? hp'] at hpos
      rw [(hw.detach c).forest_replaceAt hp' ho' hc' hpos, hw.forest_detach hc]

/-- Every record is answered as the forest says. -/
theorem WellFormed.realizes_apply (hw : s.WellFormed) (r : Record) :
    Realizes s (s.forest.edit r) (s.apply r) := by
  cases r with
  | createNode word code => exact hw.realizes_createNode word code
  | deleteNode word => exact hw.realizes_deleteNode word
  | setProp word key value => exact hw.realizes_setProp word key value
  | appendChild parent child => exact hw.realizes_appendChild parent child
  | insertChild parent child before => exact hw.realizes_appendChild parent child
  | removeChild parent child => exact hw.realizes_removeChild parent child
  | replaceChild parent old new => exact hw.realizes_replaceChild parent old new
  | setPropStr word key payload => exact hw.realizes_setPropStr word key payload

theorem WellFormed.apply (hw : s.WellFormed) (r : Record) : (s.apply r).2.WellFormed := by
  have hr := hw.realizes_apply r
  generalize s.apply r = out, s.forest.edit r = x at hr
  cases hr with
  | applied ht _ => exact ht
  | refused e => exact hw

theorem WellFormed.apply_of_error (hw : s.WellFormed) {r : Record} {e : EditError}
    (he : s.forest.edit r = .error e) : s.apply r = (.error e, s) := by
  have hr := hw.realizes_apply r
  rw [he] at hr
  generalize s.apply r = out at hr
  cases hr
  rfl

theorem WellFormed.apply_of_ok (hw : s.WellFormed) {r : Record} {f : Forest}
    (hf : s.forest.edit r = .ok f) : ∃ t, s.apply r = (.ok (), t) ∧ t.forest = f := by
  have hr := hw.realizes_apply r
  rw [hf] at hr
  generalize s.apply r = out at hr
  cases hr with
  | applied _ ht => exact ⟨_, rfl, ht⟩

/-! ## Many records -/

theorem applyAll_append (s : Store) (rs rs' : List Record) :
    s.applyAll (rs ++ rs') =
      ((s.applyAll rs).1 ++ ((s.applyAll rs).2.applyAll rs').1, ((s.applyAll rs).2.applyAll rs').2) := by
  induction rs generalizing s with
  | nil => rfl
  | cons r rs ih => simp only [List.cons_append, applyAll, ih]

theorem WellFormed.applyAll (hw : s.WellFormed) (rs : List Record) :
    (s.applyAll rs).2.WellFormed := by
  induction rs generalizing s with
  | nil => exact hw
  | cons r rs ih => exact ih (hw.apply r)

/-- The answers to records, and the forest in the end, follow from the forest in the beginning. -/
theorem WellFormed.editAll_forest (hw : s.WellFormed) (rs : List Record) :
    s.forest.editAll rs = ((s.applyAll rs).1, (s.applyAll rs).2.forest) := by
  induction rs generalizing s with
  | nil => rfl
  | cons r rs ih =>
      have hnext := ih (hw.apply r)
      cases hx : s.forest.edit r with
      | ok f =>
          obtain ⟨t, ht, hf⟩ := hw.apply_of_ok hx
          rw [ht] at hnext
          simp only [Forest.editAll, hx, Store.applyAll, ht, ← hf, hnext]
      | error e =>
          have ht := hw.apply_of_error hx
          rw [ht] at hnext
          simp only [Forest.editAll, hx, Store.applyAll, ht, hnext]

end Store

end RetainedUi
