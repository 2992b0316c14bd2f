import Mathlib.Data.List.Sort
import RetainedUi.Proofs.Forest.Ids

/-!
# Changes of forests, id by id

What is seen of an id is its parent, its children and what its node has beside its links. Each change of
a forest changes these in its own way.
-/

namespace RetainedUi

namespace Forest

/-- The children of an id, in order. -/
def children (f : Forest) (x : NodeId) : List NodeId := ((f x).map Element.children).getD []

/-- What the element of an id has beside its links. -/
def content (f : Forest) (x : NodeId) : Option (NodeKind × Props × Option String) :=
  (f x).map fun e => (e.kind, e.props, e.text)

/-! ## Changes -/

section Changes

variable (f : Forest) {p c : NodeId} (x : NodeId)

theorem parent?_detach (c : NodeId) :
    (f.detach c).parent? x = if x = c then none else f.parent? x := by
  rw [parent?, parent?, detach]
  cases f x <;> simp

theorem children_detach (c : NodeId) : (f.detach c).children x = (f.children x).erase c := by
  rw [children, children, detach]
  cases f x <;> simp

theorem content_detach (c : NodeId) : (f.detach c).content x = f.content x := by
  rw [content, content, detach]
  cases f x <;> rfl

theorem parent?_attachLast (p : NodeId) (hc : f c ≠ none) :
    (f.attachLast p c).parent? x = if x = c then some p else f.parent? x := by
  rw [parent?, parent?, attachLast]
  cases hx : f x with
  | none =>
      have hne : x ≠ c := by rintro rfl; exact hc hx
      rw [if_neg hne]
      rfl
  | some e => rfl

theorem children_attachLast (c : NodeId) (hp : f p ≠ none) :
    (f.attachLast p c).children x = f.children x ++ if x = p then [c] else [] := by
  rw [children, children, attachLast]
  cases hx : f x with
  | none =>
      have hne : x ≠ p := by rintro rfl; exact hp hx
      rw [if_neg hne]
      rfl
  | some e =>
      simp only [Option.map_some, Option.getD_some]
      split <;> simp

theorem content_attachLast (p c : NodeId) : (f.attachLast p c).content x = f.content x := by
  rw [content, content, attachLast]
  cases f x <;> rfl

theorem parent?_replaceChild (p old : NodeId) (hc : f c ≠ none) :
    (f.replaceChild p old c).parent? x =
      if x = c then some p else if x = old then none else f.parent? x := by
  rw [parent?, parent?, replaceChild]
  cases hx : f x with
  | none =>
      have hne : x ≠ c := by rintro rfl; exact hc hx
      rw [if_neg hne, Option.map_none, Option.bind_none, ite_self]
  | some e => rfl

theorem children_replaceChild (p old new : NodeId) : (f.replaceChild p old new).children x =
    if x = p then (f.children x).replace old new else f.children x := by
  rw [children, children, replaceChild]
  cases f x with
  | none => simp
  | some e => rfl

theorem content_replaceChild (p old new : NodeId) :
    (f.replaceChild p old new).content x = f.content x := by
  rw [content, content, replaceChild]
  cases f x <;> rfl

theorem parent?_delete (d : NodeId) : (f.delete d).parent? x =
    if x = d ∨ f.parent? x = some d then none else f.parent? x := by
  rw [parent?, parent?, delete]
  by_cases hx : x = d
  · rw [if_pos hx, if_pos (Or.inl hx), Option.bind_none]
  · cases f x <;> simp [hx]

theorem children_delete (d : NodeId) :
    (f.delete d).children x = if x = d then [] else (f.children x).erase d := by
  rw [children, children, delete]
  by_cases hx : x = d
  · simp [hx]
  · cases f x <;> simp [hx]

theorem content_delete (d : NodeId) :
    (f.delete d).content x = if x = d then none else f.content x := by
  rw [content, content, delete]
  by_cases hx : x = d
  · rw [if_pos hx, if_pos hx, Option.map_none]
  · rw [if_neg hx, if_neg hx]
    cases f x <;> rfl

end Changes

/-! ## Forests known by their parts -/

theorem eq_of_parts {f g : Forest} (hcontent : ∀ x, g.content x = f.content x)
    (hchildren : ∀ x, g.children x = f.children x) (hparent : ∀ x, g.parent? x = f.parent? x) :
    g = f := by
  funext x
  have hc := hcontent x
  have hl := hchildren x
  have hp := hparent x
  rw [content, content] at hc
  rw [children, children] at hl
  rw [parent?, parent?] at hp
  cases hg : g x with
  | none =>
      rw [hg] at hc
      exact (Option.map_eq_none_iff.mp hc.symm).symm
  | some a =>
      rw [hg] at hc hl hp
      obtain ⟨b, hb, hab⟩ := Option.map_eq_some_iff.mp hc.symm
      rw [hb] at hl hp ⊢
      cases a; cases b
      cases hab; cases hl; cases hp
      rfl

theorem detach_eq_none_iff {f : Forest} {c x : NodeId} : f.detach c x = none ↔ f x = none :=
  Option.map_eq_none_iff

theorem eq_some_of_resolve {f : Forest} {word : Int32} {x : NodeId} {e : Element}
    (h : f.resolve word = .ok (x, e)) : f x = some e := by
  rw [resolve] at h
  split at h
  · cases h
  · split at h
    · cases h
    · cases h
      assumption

theorem bind_resolve_of_live {f : Forest} {word : Int32} {x : NodeId} {e : Element}
    (hx : NodeId.ofWord? word = some x) (he : f x = some e)
    (F : NodeId × Element → Except EditError Forest) : (f.resolve word >>= F) = F (x, e) := by
  rw [resolve, hx]
  simp only [he]
  rfl

theorem bind_resolve_of_unknown {f : Forest} {word : Int32} {x : NodeId}
    (hx : NodeId.ofWord? word = some x) (hf : f x = none)
    (F : NodeId × Element → Except EditError Forest) :
    (f.resolve word >>= F) = .error (.unknownNode x) := by
  rw [resolve, hx]
  simp only [hf]
  rfl

theorem exists_of_bind_resolve {f g : Forest} {word : Int32}
    {F : NodeId × Element → Except EditError Forest} (h : (f.resolve word >>= F) = .ok g) :
    ∃ x e, NodeId.ofWord? word = some x ∧ f x = some e ∧ F (x, e) = .ok g := by
  cases hx : NodeId.ofWord? word with
  | none =>
      rw [resolve, hx] at h
      cases h
  | some x =>
      cases he : f x with
      | none =>
          rw [resolve, hx] at h
          simp only [he] at h
          cases h
      | some e =>
          rw [bind_resolve_of_live hx he] at h
          exact ⟨x, e, rfl, he, h⟩

end Forest

namespace Store

variable {s : Store}

/-! ## What the forest tells by id -/

/-- What the node of an id has beside its links. -/
def content (s : Store) (x : NodeId) : Option (NodeKind × Props × Option String) :=
  (s.node? x).map fun n => (n.kind, n.props, n.text)

theorem parentOf_eq_forest (s : Store) (x : NodeId) : s.parentOf x = s.forest.parent? x := by
  rw [Forest.parent?, forest, parentOf]
  cases s.node? x <;> rfl

theorem childIds_eq_forest (s : Store) (x : NodeId) : s.childIds x = s.forest.children x := by
  rw [Forest.children, forest, childIds]
  cases s.node? x <;> rfl

theorem content_eq_forest (s : Store) (x : NodeId) : s.content x = s.forest.content x := by
  rw [Forest.content, forest, content]
  cases s.node? x <;> rfl

theorem isSome_content_of_parentOf {x p : NodeId} (h : s.parentOf x = some p) :
    (s.content x).isSome := by
  obtain ⟨_, hn, _⟩ := Option.bind_eq_some_iff.mp h
  obtain ⟨n, hn, _⟩ := Option.bind_eq_some_iff.mp hn
  rw [content, hn]
  rfl

theorem WellFormed.mem_children_iff_parentOf (hw : s.WellFormed) {p c : NodeId} {e : Element}
    (he : s.forest p = some e) : c ∈ e.children ↔ s.parentOf c = some p := by
  rw [← hw.mem_childIds_iff, childIds_eq_forest, Forest.children, he]
  rfl

theorem WellFormed.mem_parentless_iff (hw : s.WellFormed) {x : NodeId} :
    x ∈ s.parentless ↔ (s.content x).isSome ∧ s.parentOf x = none := by
  rw [parentless, Std.ExtTreeSet.mem_toList, hw.mem_roots_iff, parentOf_eq_forest, content_eq_forest,
    Forest.parent?, Forest.content]
  cases s.forest x with
  | none => simp
  | some e => simp

theorem WellFormed.erase_childIds (hw : s.WellFormed) (x c : NodeId) :
    (s.childIds x).erase c = (s.childIds x).filter (· ≠ c) := by
  rw [(hw.nodup_childIds x).erase_eq_filter]
  exact List.filter_congr fun y _ => by rw [Bool.eq_iff_iff]; simp

theorem WellFormed.filter_childIds (hw : s.WellFormed) {x c : NodeId} (h : s.parentOf c ≠ some x) :
    (s.childIds x).filter (· ≠ c) = s.childIds x := by
  refine List.filter_eq_self.mpr fun y hy => decide_eq_true ?_
  rintro rfl
  exact h (hw.parentOf_of_mem_childIds hy)

theorem parentless_ascend (s : Store) : s.parentless.Pairwise fun x y => x.value < y.value :=
  s.roots.ordered_toList.imp fun h => Std.compare_eq_lt (α := UInt32) |>.mp h

/-- Ids in ascending order are known by which ones they are. -/
theorem eq_of_ascend {l l' : List NodeId} (hl : l.Pairwise fun x y => x.value < y.value)
    (hl' : l'.Pairwise fun x y => x.value < y.value) (h : ∀ x, x ∈ l ↔ x ∈ l') : l = l' := by
  have : Std.Irrefl fun x y : NodeId => x.value < y.value := ⟨fun x => UInt32.lt_irrefl x.value⟩
  have : Std.Antisymm fun x y : NodeId => x.value < y.value :=
    ⟨fun _ _ h h' => absurd h' (UInt32.lt_asymm h)⟩
  exact hl.eq_of_mem_iff hl' h

theorem parentless_eq_of_mem {l : List NodeId} (hl : l.Pairwise fun x y => x.value < y.value)
    (h : ∀ x, x ∈ s.parentless ↔ x ∈ l) : s.parentless = l :=
  eq_of_ascend s.parentless_ascend hl h

/-! ## What is under an id -/

/-- The ids under `c` stay under it, and keep their children. -/
def KeepsUnder (s : Store) (c : NodeId) (t : Store) : Prop :=
  ∀ x, (Above t.parentOf c x ↔ Above s.parentOf c x) ∧
    (Above s.parentOf c x → t.childIds x = s.childIds x)

theorem KeepsUnder.of_cut {t : Store} {c : NodeId}
    (hcut : ∀ x p, t.parentOf x = some p → s.parentOf x = some p)
    (hkeep : ∀ x, x ≠ c → Above s.parentOf c x → t.parentOf x = s.parentOf x)
    (hchildren : ∀ x, Above s.parentOf c x → t.childIds x = s.childIds x) : s.KeepsUnder c t :=
  fun x => ⟨⟨fun h => h.mono hcut, fun h => h.of_eq_below hkeep⟩, hchildren x⟩

/-! ## Words -/

/-- The live id that a word names. -/
def named (s : Store) (word : Int32) : Except EditError NodeId :=
  match NodeId.ofWord? word with
  | none => .error (.invalidId word)
  | some x => if (s.node? x).isSome then .ok x else .error (.unknownNode x)

theorem named_eq_ok_iff {word : Int32} {x : NodeId} :
    s.named word = .ok x ↔ NodeId.ofWord? word = some x ∧ (s.node? x).isSome := by
  rw [named]
  cases NodeId.ofWord? word with
  | none => simp
  | some y =>
      by_cases hy : (s.node? y).isSome
      · simp only [hy, ↓reduceIte, Except.ok.injEq, Option.some.injEq]
        exact ⟨fun h => ⟨h, h ▸ hy⟩, And.left⟩
      · simp only [hy, Bool.false_eq_true, ↓reduceIte, reduceCtorEq, Option.some.injEq, false_iff]
        rintro ⟨rfl, h⟩
        exact hy h

theorem Keeps.named {t : Store} (hk : s.Keeps t) (word : Int32) : t.named word = s.named word := by
  have hlive : ∀ x, (t.node? x).isSome = (s.node? x).isSome := by
    intro x
    rw [node?, node?, hk.handle?]
    cases s.handle? x with
    | none => rfl
    | some h =>
        rw [Option.bind_some, Option.bind_some, Bool.eq_iff_iff, Option.isSome_iff_ne_none,
          Option.isSome_iff_ne_none, ne_eq, hk.get?_eq_none_iff]
  simp only [Store.named, hlive]

theorem map_fst_resolve_forest (s : Store) (word : Int32) :
    (s.forest.resolve word).map Prod.fst = s.named word := by
  rw [Forest.resolve, named]
  cases NodeId.ofWord? word with
  | none => rfl
  | some x =>
      simp only [forest]
      cases s.node? x <;> rfl

theorem bind_resolve_of_error {word : Int32} {e : EditError} (h : s.named word = .error e)
    (F : NodeId × Element → Except EditError Forest) : (s.forest.resolve word >>= F) = .error e := by
  rw [← map_fst_resolve_forest] at h
  cases hr : s.forest.resolve word with
  | error e' =>
      rw [hr] at h
      cases h
      rfl
  | ok y => rw [hr] at h; cases h

theorem exists_bind_resolve_eq {word : Int32} {x : NodeId} (h : s.named word = .ok x) :
    ∃ a, s.forest x = some a ∧
      ∀ F : NodeId × Element → Except EditError Forest, (s.forest.resolve word >>= F) = F (x, a) := by
  rw [← map_fst_resolve_forest] at h
  cases hr : s.forest.resolve word with
  | error e => rw [hr] at h; cases h
  | ok y =>
      rw [hr] at h
      cases h
      exact ⟨y.2, Forest.eq_some_of_resolve hr, fun _ => rfl⟩

end Store

end RetainedUi
