import Mathlib.Data.List.Forall2
import RetainedUi.Layout.Solve
import RetainedUi.Proofs.Forest.View

/-!
# Layout and forests

Layout reads a store by following handles. Handles for one id in two stores that hold the same forest
lead to nodes alike, with children alike.
-/

namespace RetainedUi

/-! ## Lists whose elements correspond -/

section Lists

variable {α β γ : Type} {R : α → β → Prop} {l : List α} {l' : List β}

theorem filterMap_eq_of_forall₂ {f : α → Option γ} {g : β → Option γ}
    (hfg : ∀ a b, R a b → f a = g b) (hl : List.Forall₂ R l l') :
    l.filterMap f = l'.filterMap g := by
  induction hl with
  | nil => rfl
  | cons hab _ ih => rw [List.filterMap_cons, List.filterMap_cons, hfg _ _ hab, ih]

theorem forall₂_shown (kind : NodeKind) (hl : List.Forall₂ R l l') :
    List.Forall₂ R (kind.shown l) (kind.shown l') := by
  cases kind with
  | column | row => exact hl
  | center | sizedBox => exact List.forall₂_take 1 hl
  | text | button => exact .nil

theorem mem_of_mem_shown {kind : NodeKind} {x : α} (hx : x ∈ kind.shown l) : x ∈ l := by
  cases kind with
  | column | row => exact hx
  | center | sizedBox => exact List.mem_of_mem_take hx
  | text | button => cases hx

end Lists

namespace Layout

open Store

variable {a : Arithmetic} {s t : Store}

/-! ## One node -/

theorem place_of_get?_none {h : Handle} (hn : s.get? h = none) (levels depth : Nat) (r : Rect) :
    place a s levels depth h r = {} := by
  cases levels <;> rw [place, hn]

theorem place_zero {h : Handle} {n : Node} (hn : s.get? h = some n) (depth : Nat) (r : Rect) :
    place a s 0 depth h r = { depthLimited := true } := by
  rw [place, hn]

theorem place_succ {h : Handle} {n : Node} (hn : s.get? h = some n) (levels depth : Nat) (r : Rect) :
    place a s (levels + 1) depth h r = branch ⟨n.id, n.kind, r, n.isLeaf, depth⟩
      ((arrange a s n r).map fun (child, box) => place a s levels (depth + 1) child box) := by
  rw [place, hn]

/-- Where every child is live, the children that are laid out are those shown, in their boxes. -/
theorem arrange_of_live {n : Node} (hlive : ∀ c ∈ n.children, ∃ m, s.get? c = some m) (r : Rect) :
    arrange a s n r = (n.kind.shown n.children.toList).zip
      (Boxes.ofChildren a n.kind n.props r ((n.kind.shown n.children.toList).filterMap fun h =>
        (s.get? h).map fun c => c.props.sizeHint)) := by
  have hfst : (n.kind.shown n.children.toList).filterMap (fun h => (s.get? h).map fun _ => h) =
      n.kind.shown n.children.toList := by
    rw [List.filterMap_congr (g := some) fun c hc => ?_, List.filterMap_some]
    obtain ⟨m, hm⟩ := hlive c (Array.mem_toList_iff.mp (mem_of_mem_shown hc))
    rw [hm, Option.map_some]
  simp only [arrange, List.map_filterMap, Option.map_map]
  exact congrArg (List.zip · _) hfst

/-! ## Two stores with one forest -/

/-- Handles for the same id find nothing in either store, or nodes alike. -/
theorem twins (hs : s.WellFormed) (ht : t.WellFormed) (hf : s.forest = t.forest) {h k : Handle}
    (hid : s.id? h = t.id? k) : s.get? h = none ∧ t.get? k = none ∨
      ∃ n m, s.get? h = some n ∧ t.get? k = some m ∧ n.id = m.id ∧ s.element n = t.element m := by
  cases hn : s.get? h with
  | none =>
      rw [id?_of_get?_none hn] at hid
      exact Or.inl ⟨rfl, Option.map_eq_none_iff.mp hid.symm⟩
  | some n =>
      rw [id?_of_get? hn] at hid
      obtain ⟨m, hm, hmid⟩ := get?_of_id? hid.symm
      have he := hs.forest_eq hn
      rw [hf, ← hmid, ht.forest_eq hm] at he
      exact Or.inr ⟨n, m, rfl, hm, hmid.symm, (Option.some.inj he).symm⟩

theorem map_id?_children (hs : s.WellFormed) {h : Handle} {n : Node} (hn : s.get? h = some n) :
    n.children.toList.map s.id? = (s.element n).children.map some := by
  rw [element, List.map_filterMap, ← List.filterMap_eq_map]
  refine List.filterMap_congr fun c hc => ?_
  obtain ⟨m, hm⟩ := hs.live_of_mem_children hn c (Array.mem_toList_iff.mp hc)
  rw [Function.comp_apply, id?_of_get? hm, Option.map_some]

theorem forall₂_children (hs : s.WellFormed) (ht : t.WellFormed) {h k : Handle} {n m : Node}
    (hn : s.get? h = some n) (hm : t.get? k = some m) (he : s.element n = t.element m) :
    List.Forall₂ (fun c d => s.id? c = t.id? d) n.children.toList m.children.toList := by
  have hmap : n.children.toList.map s.id? = m.children.toList.map t.id? := by
    rw [map_id?_children hs hn, map_id?_children ht hm, he]
  rwa [← List.forall₂_eq_eq_eq, List.forall₂_map_left_iff, List.forall₂_map_right_iff] at hmap

/-! ## Empty layouts -/

theorem entries_solve_eq_nil_iff (hs : s.WellFormed) (bounds : Rect) :
    (solve s bounds).entries = [] ↔ s.size = 0 := by
  rw [hs.size_eq_zero_iff, solve, solveIn]
  constructor
  · intro hnil h
    cases hn : s.get? h with
    | none => rfl
    | some n =>
        obtain ⟨r, hr⟩ := hs.exists_root hn
        obtain ⟨m, hm, _⟩ := hs.root?_eq_some_iff.mp hr
        simp only [hr, place_succ hm, branch] at hnil
        cases hnil
  · intro hnone
    cases hr : s.root? with
    | none => rfl
    | some r =>
        obtain ⟨m, hm, _⟩ := hs.root?_eq_some_iff.mp hr
        rw [hnone r] at hm
        cases hm

end Layout

end RetainedUi
