import RetainedUi.Proofs.Edit.Reachable

/-!
# What operations do to slots

A store is changed by records and by the release of all its nodes. An operation either takes out the
nodes of the ids that it deletes, each from its slot, or puts one new node into a slot; all other
nodes stay where they are.
-/

namespace RetainedUi

/-! ## Edits that leave every node in its slot -/

namespace Edit

/-- Whatever comes of the edit, every node stays in its slot. -/
def Stays {α : Type} (e : Edit α) : Prop := ∀ s : Store, s.Keeps (e.run s).2

section Steps

variable {α β : Type}

theorem Stays.pure (a : α) : Stays (pure a : Edit α) := Store.Keeps.refl

theorem Stays.throw (e : EditError) : Stays (throw e : Edit α) := Store.Keeps.refl

theorem Stays.get : Stays (get : Edit Store) := Store.Keeps.refl

theorem Stays.modify {f : Store → Store} (hf : ∀ s : Store, s.Keeps (f s)) :
    Stays (modify f : Edit PUnit) := hf

theorem Stays.bind {e : Edit α} {f : α → Edit β} (he : Stays e) (hf : ∀ a, Stays (f a)) :
    Stays (e >>= f) := fun s => by
  have hs := he s
  rw [run_bind]
  revert hs
  rcases e.run s with ⟨_ | a, t⟩
  · exact id
  · exact fun hs => hs.trans (hf a t)

/-- An edit that is refused under a condition, and goes on otherwise. -/
theorem Stays.unless {c : Prop} [Decidable c] {e : EditError} {f : PUnit → Edit α}
    (hf : Stays (f ⟨⟩)) : Stays (if c then MonadExcept.throw e >>= f else f ⟨⟩) := by
  split
  · exact .bind (.throw e) fun _ => hf
  · exact hf

end Steps

theorem stays_resolve (word : Int32) : Stays (resolve word) := by
  rw [resolve]
  split
  · exact .throw _
  refine .bind .get fun s => ?_
  split
  · exact .throw _
  · exact .pure _

theorem stays_requireLive (h : Handle) : Stays (requireLive h) := by
  refine .bind .get fun s => ?_
  split
  · exact .throw _
  · exact .pure _

theorem stays_modifyNode (h : Handle) {f : Node → Node} (hf : ∀ n, (f n).id = n.id) :
    Stays (modifyNode h f) :=
  .bind (stays_requireLive h) fun _ => .modify fun s => s.keeps_modify h f hf

theorem stays_setProp (word key value : Int32) : Stays (setProp word key value) := by
  refine .bind (stays_resolve word) fun p => .bind .get fun s => ?_
  split
  · exact .throw _
  split
  · exact .modify fun s => s.keeps_modify _ _ fun _ => rfl
  · exact .throw _

theorem stays_setPropStr (word key : Int32) (payload : Bytes) :
    Stays (setPropStr word key payload) :=
  .bind (stays_resolve word) fun _ => .unless (stays_modifyNode _ fun _ => rfl)

theorem stays_appendChild (parent child : Int32) : Stays (appendChild parent child) := by
  refine .bind (stays_resolve parent) fun p => .bind (stays_resolve child) fun c => ?_
  refine .bind .get fun _ => .unless <| .bind (stays_requireLive _) fun _ => ?_
  refine .bind (.modify fun s => s.keeps_detach _) fun _ => ?_
  refine .bind (stays_requireLive _) fun _ => .bind (stays_requireLive _) fun _ => ?_
  exact .modify fun s => s.keeps_attachLast _ _

theorem stays_removeChild (parent child : Int32) : Stays (removeChild parent child) := by
  refine .bind (stays_resolve parent) fun p => .bind (stays_resolve child) fun c => ?_
  exact .bind .get fun _ => .unless (.modify fun s => s.keeps_detach _)

theorem stays_replaceChild (parent old new : Int32) : Stays (replaceChild parent old new) := by
  refine .bind (stays_resolve parent) fun p => .bind (stays_resolve old) fun o =>
    .bind (stays_resolve new) fun n => .bind .get fun _ => .unless ?_
  split
  · exact .pure _
  refine .bind .get fun _ => .unless <| .bind (.modify fun s => s.keeps_detach _) fun _ =>
    .bind .get fun _ => ?_
  split
  · exact .throw _
  · exact .modify fun s => s.keeps_replaceAt _ _ _

end Edit

/-! ## Operations -/

/-- What changes a store: a record, or the release of all nodes. -/
inductive Operation where
  | apply (r : Record)
  | releaseAll
deriving DecidableEq, Repr

namespace Operation

/-- The operation takes out the node of an id, if it is live. -/
def Deletes (x : NodeId) : Operation → Prop
  | apply (.deleteNode word) => NodeId.ofWord? word = some x
  | apply _ => False
  | releaseAll => True

/-- The operation is the creation of an id, and `s` grants it. -/
def Creates (s : Store) (x : NodeId) : Operation → Prop
  | apply (.createNode word code) =>
    NodeId.ofWord? word = some x ∧ (s.apply (.createNode word code)).1 = .ok ()
  | _ => False

end Operation

namespace Store

open Edit

variable {s t : Store}

/-- The store after an operation. -/
def perform (s : Store) : Operation → Store
  | .apply r => (s.apply r).2
  | .releaseAll => s.releaseAll.2

/-- The store after operations one after the other. -/
def performAll (s : Store) (ops : List Operation) : Store := ops.foldl perform s

theorem performAll_cons (s : Store) (op : Operation) (ops : List Operation) :
    s.performAll (op :: ops) = (s.perform op).performAll ops := rfl

theorem performAll_concat (s : Store) (ops : List Operation) (op : Operation) :
    s.performAll (ops ++ [op]) = (s.performAll ops).perform op :=
  List.foldl_concat ..

theorem WellFormed.perform (hw : s.WellFormed) (op : Operation) : (s.perform op).WellFormed := by
  cases op with
  | apply r => exact hw.apply r
  | releaseAll => exact hw.releaseAll

theorem WellFormed.performAll (hw : s.WellFormed) (ops : List Operation) :
    (s.performAll ops).WellFormed := by
  induction ops generalizing s with
  | nil => exact hw
  | cons op ops ih => exact ih (hw.perform op)

/-! ## What an operation does -/

/-- What an operation does to the slots: the nodes of the ids that it deletes are taken out, and no new
id is created; or it creates one new id, and a node is put in for it. -/
inductive Effect (s : Store) (op : Operation) (t : Store) : Prop
  | clears (live : ∀ x, op.Creates s x → ∃ h, s.handle? x = some h)
      (slots : s.Clears (op.Deletes ·) t)
  | fills {x : NodeId} (creates : ∀ y, op.Creates s y ↔ y = x) (deletes : ∀ y, ¬ op.Deletes y)
      (slots : s.Fills x t)

/-- What an operation does to one slot. -/
theorem Effect.slot {op : Operation} (he : Effect s op t) (i : UInt32) :
    (∃ x, s.occupant? i = some x ∧ op.Deletes x) ∧ s.EmptiesSlot t i ∨
      (∀ x, s.occupant? i = some x → ¬ op.Deletes x) ∧
        (s.KeepsSlot t i ∨ ∃ x, op.Creates s x ∧ s.FillsSlot x t i) := by
  cases he with
  | clears live slots => exact (slots.slot i).imp_right (And.imp_right Or.inl)
  | fills creates deletes slots =>
      obtain ⟨j, hfill, hkeep⟩ := slots.slot
      refine Or.inr ⟨fun x _ => deletes x, ?_⟩
      by_cases hi : i = j
      · exact Or.inr ⟨_, (creates _).mpr rfl, hi ▸ hfill⟩
      · exact Or.inl (hkeep i hi)

theorem Effect.of_keeps {op : Operation} (hk : s.Keeps t) (hdel : ∀ x, ¬ op.Deletes x)
    (hnew : ∀ x, ¬ op.Creates s x) : Effect s op t :=
  .clears (fun x hx => absurd hx (hnew x)) (hk.clears fun _ x _ => hdel x)

theorem Arena.keeps_createNode (ha : s.Arena) {word : Int32} {x : NodeId} {h : Handle}
    (hx : NodeId.ofWord? word = some x) (hh : s.handle? x = some h) (code : Int32) :
    s.Keeps ((createNode word code).run s).2 := by
  obtain ⟨n, hn, rfl⟩ := ha.get?_of_handle? hh
  simp only [createNode, hx]
  cases NodeKind.ofCode? code with
  | none => exact .refl s
  | some kind =>
      simp only [run_bind, run_get, hh, run_modifyNode hn]
      exact s.keeps_modify h _ fun _ => rfl

theorem WellFormed.effect_createNode (hw : s.WellFormed) (word code : Int32) :
    Effect s (.apply (.createNode word code)) ((createNode word code).run s).2 := by
  have hcreates : ∀ x, Operation.Creates s x (.apply (.createNode word code)) ↔
      NodeId.ofWord? word = some x ∧ ((createNode word code).run s).1 = .ok () := fun _ => .rfl
  have hdel : ∀ x, ¬ Operation.Deletes x (.apply (.createNode word code)) := fun _ => id
  cases hx : NodeId.ofWord? word with
  | none =>
      simp only [createNode, hx] at hcreates ⊢
      exact .of_keeps (.refl s) hdel fun x => by simp [hcreates]
  | some x =>
      cases hh : s.handle? x with
      | some h =>
          refine .clears (fun y hy => ?_) ((hw.keeps_createNode hx hh code).clears fun _ y _ => hdel y)
          rw [hcreates, hx, Option.some.injEq] at hy
          exact ⟨h, hy.1 ▸ hh⟩
      | none =>
          simp only [createNode, hx] at hcreates ⊢
          cases hc : NodeKind.ofCode? code with
          | none => exact .of_keeps (.refl s) hdel fun y => by simp [hcreates, hc]
          | some kind =>
              obtain ⟨h, t, hins, _, _⟩ := hw.insert (NodeId.valid_of_ofWord? hx) hh kind
              have hfills := hw.fills_insert (NodeId.valid_of_ofWord? hx) hh kind
              rw [hins] at hfills
              simp only [hc, run_bind, run_get, hh, run_modifyGet, hins, run_pure] at hcreates ⊢
              exact .fills (fun y => by simp [hcreates, eq_comm]) hdel hfills

theorem Linked.run_deleteNode (hl : s.Linked) {word : Int32} {h : Handle} {n : Node}
    (hx : NodeId.ofWord? word = some n.id) (hh : s.handle? n.id = some h) (hn : s.get? h = some n) :
    (deleteNode word).run s = (.ok (), s.delete h) := by
  have hrem := remove_of_get? (hl.get?_detach_self hn)
  rw [Store.delete, hrem]
  simp only [deleteNode, run_bind, run_resolve_of_live hx hh, run_modify, run_modifyGet, hrem]

theorem WellFormed.effect_deleteNode (hw : s.WellFormed) (word : Int32) :
    Effect s (.apply (.deleteNode word)) ((deleteNode word).run s).2 := by
  have hnew : ∀ x, ¬ Operation.Creates s x (.apply (.deleteNode word)) := fun _ => id
  have hlive : ∀ {i x}, s.occupant? i = some x → ∃ h, s.handle? x = some h := fun hi =>
    hw.exists_occupant?_iff.mp ⟨_, hi⟩
  refine .clears (fun x hx => absurd hx (hnew x)) ?_
  cases hx : NodeId.ofWord? word with
  | none =>
      rw [deleteNode, run_bind, run_resolve_of_invalid hx]
      refine (Keeps.refl s).clears fun i x _ hdel => ?_
      simp only [Operation.Deletes, hx, reduceCtorEq] at hdel
  | some x =>
      cases hh : s.handle? x with
      | none =>
          rw [deleteNode, run_bind, run_resolve_of_unknown hx hh]
          refine (Keeps.refl s).clears fun i y hi hdel => ?_
          obtain ⟨h, hy⟩ := hlive hi
          simp only [Operation.Deletes, hx, Option.some.injEq] at hdel
          rw [← hdel, hh] at hy
          cases hy
      | some h =>
          obtain ⟨n, hn, rfl⟩ := hw.get?_of_handle? hh
          rw [hw.run_deleteNode hx hh hn]
          exact (hw.clears_delete hw.toArena hn).congr fun i y _ => by
            simp [Operation.Deletes, hx, eq_comm]

theorem WellFormed.effect_releaseAll (hw : s.WellFormed) : Effect s .releaseAll s.releaseAll.2 := by
  obtain ⟨t, ht, hf⟩ := hw.toArena.releaseAll
  rw [ht]
  refine .clears (fun _ hx => absurd hx id) (hf.clears.congr fun i x hi => ?_)
  exact iff_of_true (mem_ids.mpr (hw.exists_occupant?_iff.mp ⟨i, hi⟩)) trivial

/-- An operation empties the slots of the nodes that it deletes, or fills one for the id that it
creates. -/
theorem WellFormed.effect_perform (hw : s.WellFormed) (op : Operation) :
    Effect s op (s.perform op) := by
  cases op with
  | releaseAll => exact hw.effect_releaseAll
  | apply r =>
      cases r with
      | createNode word code => exact hw.effect_createNode word code
      | deleteNode word => exact hw.effect_deleteNode word
      | setProp word key value =>
          exact .of_keeps (stays_setProp word key value s) (fun _ => id) fun _ => id
      | appendChild parent child =>
          exact .of_keeps (stays_appendChild parent child s) (fun _ => id) fun _ => id
      | insertChild parent child index =>
          exact .of_keeps (stays_appendChild parent child s) (fun _ => id) fun _ => id
      | removeChild parent child =>
          exact .of_keeps (stays_removeChild parent child s) (fun _ => id) fun _ => id
      | replaceChild parent old new =>
          exact .of_keeps (stays_replaceChild parent old new s) (fun _ => id) fun _ => id
      | setPropStr word key payload =>
          exact .of_keeps (stays_setPropStr word key payload s) (fun _ => id) fun _ => id

end Store

end RetainedUi
