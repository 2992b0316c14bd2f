import RetainedUi.Proofs.Edit.Reachable

/-!
# Refused records

A record is refused for what it says of the forest, before anything is changed. That an edit runs out
of slots, or loses a node on the way, never happens.
-/

namespace RetainedUi

/-- The reason is none that records give: it lies in the slots. -/
def EditError.Internal : EditError → Prop
  | .allocation _ | .staleHandle => True
  | _ => False

namespace Forest

variable {f : Forest} {e : EditError}

theorem not_internal_of_resolve {word : Int32} {F : NodeId × Element → Except EditError Forest}
    (hF : ∀ y, F y = .error e → ¬ e.Internal) (h : (f.resolve word >>= F) = .error e) :
    ¬ e.Internal := by
  rw [resolve] at h
  cases hx : NodeId.ofWord? word with
  | none =>
      rw [hx] at h
      cases h
      exact not_false
  | some x =>
      rw [hx] at h
      cases hy : f x with
      | none =>
          simp only [hy] at h
          cases h
          exact not_false
      | some y =>
          simp only [hy] at h
          exact hF (x, y) h

/-- A forest refuses a record for none but the record's own sake. -/
theorem not_internal_of_edit {r : Record} (h : f.edit r = .error e) : ¬ e.Internal := by
  cases r with
  | createNode word code =>
      simp only [edit] at h
      split at h
      · cases h; exact not_false
      · split at h
        · cases h; exact not_false
        · split at h <;> cases h
  | deleteNode word =>
      exact not_internal_of_resolve (fun y hy => by cases hy) h
  | setProp word key value =>
      refine not_internal_of_resolve (fun y hy => ?_) h
      simp only at hy
      split at hy <;> cases hy
      exact not_false
  | appendChild parent child | insertChild parent child _ =>
      refine not_internal_of_resolve (fun y hy => not_internal_of_resolve (fun z hz => ?_) hy) h
      simp only at hz
      split at hz <;> cases hz
      exact not_false
  | removeChild parent child =>
      refine not_internal_of_resolve (fun y hy => not_internal_of_resolve (fun z hz => ?_) hy) h
      simp only at hz
      split at hz <;> cases hz
      exact not_false
  | replaceChild parent old new =>
      refine not_internal_of_resolve (fun y hy => not_internal_of_resolve (fun z hz =>
        not_internal_of_resolve (fun w hw => ?_) hz) hy) h
      simp only at hw
      split at hw
      · cases hw; exact not_false
      split at hw
      · cases hw
      split at hw <;> cases hw
      exact not_false
  | setPropStr word key payload =>
      refine not_internal_of_resolve (fun y hy => ?_) h
      simp only at hy
      split at hy <;> cases hy
      exact not_false

end Forest

namespace Store

variable {s : Store}

/-- A refused record leaves every part of the store as it was, and the reason is one of six. -/
theorem Reachable.unchanged_of_refused (hs : s.Reachable) {r : Record} {e : EditError}
    (he : (s.apply r).1 = .error e) :
    (s.apply r).2 = s ∧
      ((∃ word, e = .invalidId word) ∨ (∃ code, e = .unknownNodeType code) ∨
        (∃ x, e = .unknownNode x) ∨ (∃ p c, e = .notAChild p c) ∨ (∃ p c, e = .wouldCycle p c) ∨
        ∃ key, e = .unsupportedProperty key) := by
  have hw := hs.wellFormed
  cases hx : s.forest.edit r with
  | ok f =>
      obtain ⟨t, ht, _⟩ := hw.apply_of_ok hx
      rw [ht] at he
      cases he
  | error e' =>
      have ht := hw.apply_of_error hx
      rw [ht] at he
      cases he
      refine ⟨by rw [ht], ?_⟩
      have hnot := Forest.not_internal_of_edit hx
      cases e with
      | invalidId word => exact Or.inl ⟨word, rfl⟩
      | unknownNodeType code => exact Or.inr (Or.inl ⟨code, rfl⟩)
      | unknownNode x => exact Or.inr (Or.inr (Or.inl ⟨x, rfl⟩))
      | notAChild p c => exact Or.inr (Or.inr (Or.inr (Or.inl ⟨p, c, rfl⟩)))
      | wouldCycle p c => exact Or.inr (Or.inr (Or.inr (Or.inr (Or.inl ⟨p, c, rfl⟩))))
      | unsupportedProperty key => exact Or.inr (Or.inr (Or.inr (Or.inr (Or.inr ⟨key, rfl⟩))))
      | allocation x | staleHandle => exact absurd trivial hnot

/-- A parent is not put under its child. -/
theorem unchanged_of_cycle_sample :
    (((empty.applyAll sample).2).apply (.appendChild 2 1)).1 = .error (.wouldCycle ⟨2⟩ ⟨1⟩) ∧
      (((empty.applyAll sample).2).apply (.appendChild 2 1)).2 = (empty.applyAll sample).2 := by
  have he : (((empty.applyAll sample).2).apply (.appendChild 2 1)).1 =
      .error (.wouldCycle ⟨2⟩ ⟨1⟩) := by rfl
  exact ⟨he, (Reachable.empty.applyAll sample).unchanged_of_refused he |>.1⟩

end Store

end RetainedUi
