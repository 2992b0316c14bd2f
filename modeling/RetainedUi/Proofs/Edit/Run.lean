import RetainedUi.Proofs.Store.View
import RetainedUi.Scene.Edit

/-!
# Running edits

What an edit answers and leaves is computed step by step: a refusal ends it, anything else hands its
store on.
-/

namespace RetainedUi.Edit

/-! ## Steps -/

section Steps

variable {α β : Type}

@[simp] theorem run_pure (a : α) (s : Store) : (pure a : Edit α).run s = (.ok a, s) := rfl

@[simp] theorem run_throw (e : EditError) (s : Store) :
    (throw e : Edit α).run s = (.error e, s) := rfl

@[simp] theorem run_get (s : Store) : (get : Edit Store).run s = (.ok s, s) := rfl

@[simp] theorem run_modify (f : Store → Store) (s : Store) :
    (modify f : Edit PUnit).run s = (.ok ⟨⟩, f s) := rfl

@[simp] theorem run_modifyGet (f : Store → α × Store) (s : Store) :
    (modifyGet f : Edit α).run s = (.ok (f s).1, (f s).2) := rfl

theorem run_bind (x : Edit α) (f : α → Edit β) (s : Store) :
    (x >>= f).run s = match x.run s with
      | (.ok a, t) => (f a).run t
      | (.error e, t) => (.error e, t) := by
  show (ExceptT.bindCont f (x.run s).1).run (x.run s).2 = _
  rcases x.run s with ⟨_ | a, t⟩ <;> rfl

end Steps

/-! ## Words and handles -/

variable {s : Store}

theorem run_resolve_of_invalid {w : Int32} (hw : NodeId.ofWord? w = none) :
    (resolve w).run s = (.error (.invalidId w), s) := by
  simp only [resolve, hw, run_throw]

theorem run_resolve_of_unknown {w : Int32} {x : NodeId} (hw : NodeId.ofWord? w = some x)
    (hx : s.handle? x = none) : (resolve w).run s = (.error (.unknownNode x), s) := by
  simp only [resolve, hw, run_bind, run_get, hx, run_throw]

theorem run_resolve_of_live {w : Int32} {x : NodeId} {h : Handle} (hw : NodeId.ofWord? w = some x)
    (hx : s.handle? x = some h) : (resolve w).run s = (.ok (x, h), s) := by
  simp only [resolve, hw, run_bind, run_get, hx, run_pure]

theorem run_requireLive {h : Handle} {n : Node} (hn : s.get? h = some n) :
    (requireLive h).run s = (.ok (), s) := by
  simp only [requireLive, run_bind, run_get, hn, Option.isNone_some, Bool.false_eq_true, ↓reduceIte,
    run_pure]

theorem run_modifyNode {h : Handle} {n : Node} (hn : s.get? h = some n) (f : Node → Node) :
    (modifyNode h f).run s = (.ok (), s.modify h f) := by
  simp only [modifyNode, run_bind, run_requireLive hn, run_modify]

end RetainedUi.Edit
