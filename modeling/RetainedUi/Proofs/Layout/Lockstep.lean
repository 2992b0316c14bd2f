import RetainedUi.Proofs.Layout.Preorder

/-!
# Layouts in lockstep

Two layouts agree entry by entry when corresponding nodes in corresponding boxes give corresponding
boxes to corresponding children. What this rests on is asked of nodes with an entry alone: nothing
that is read below the greatest depth shows in a layout.
-/

namespace RetainedUi

/-! ## Lists whose elements correspond -/

section Lists

variable {α β γ δ : Type} {R : α → β → Prop} {S : γ → δ → Prop} {l : List α} {l' : List β} {m : List γ}
  {m' : List δ}

theorem forall₂_zip_zip (hl : List.Forall₂ R l l') (hm : List.Forall₂ S m m') :
    List.Forall₂ (fun c d => R c.1 d.1 ∧ S c.2 d.2) (l.zip m) (l'.zip m') := by
  induction hl generalizing m m' with
  | nil => exact .nil
  | cons hab _ ih =>
      cases hm with
      | nil => exact .nil
      | cons hcd hm => exact .cons ⟨hab, hcd⟩ (ih hm)

theorem forall_left_of_forall₂ {p : α → Prop} (hp : ∀ x y, R x y → p x) (hl : List.Forall₂ R l l') :
    ∀ x ∈ l, p x :=
  ((List.forall₂_and_left l l').mp (hl.imp fun x y hxy => ⟨hp x y hxy, hxy⟩)).1

theorem forall_right_of_forall₂ {p : β → Prop} (hp : ∀ x y, R x y → p y) (hl : List.Forall₂ R l l') :
    ∀ y ∈ l', p y :=
  forall_left_of_forall₂ (fun y x hxy => hp x y hxy) hl.flip

end Lists

namespace Layout

open Store

variable {a b : Arithmetic} {s t : Store} {h k : Handle} {n m : Node} {r r' : Rect}

/-! ## One node -/

/-- The children of a node that are laid out, by handle and node. -/
def shownNodes (s : Store) (n : Node) : List (Handle × Node) :=
  (n.kind.shown n.children.toList).filterMap fun h => (s.get? h).map fun c => (h, c)

/-- The boxes of the children of a node that are laid out. -/
def childBoxes (a : Arithmetic) (s : Store) (n : Node) (r : Rect) : List Rect :=
  Boxes.ofChildren a n.kind n.props r ((shownNodes s n).map fun c => c.2.props.sizeHint)

theorem arrange_eq (a : Arithmetic) (s : Store) (n : Node) (r : Rect) :
    arrange a s n r =
      ((shownNodes s n).zip (childBoxes a s n r)).map fun c => (c.1.1, c.2) := by
  rw [arrange, childBoxes, shownNodes, List.zip_map_left]
  rfl

theorem get?_of_mem_shownNodes {c : Handle × Node} (hc : c ∈ shownNodes s n) :
    s.get? c.1 = some c.2 := by
  obtain ⟨h, _, hh⟩ := List.mem_filterMap.mp hc
  obtain ⟨m, hm, rfl⟩ := Option.map_eq_some_iff.mp hh
  exact hm

theorem map_id_shownNodes (hw : s.WellFormed) (hn : s.get? h = some n) :
    (shownNodes s n).map (fun c => c.2.id) = s.shownIds n.id := by
  have hids := filterMap_eq_of_forall₂ (f := s.id?) (g := some) (fun _ _ hc => hc)
    (forall₂_shown n.kind (hw.forall₂_childIds hn))
  rw [List.filterMap_some, ← shownIds_eq hw.toArena hn] at hids
  rw [← hids, shownNodes, List.map_filterMap]
  refine List.filterMap_congr fun c _ => ?_
  rw [Option.map_map, Store.id?]
  rfl

theorem parentOf_of_mem_shownNodes (hw : s.WellFormed) (hn : s.get? h = some n) {c : Handle × Node}
    (hc : c ∈ shownNodes s n) : s.parentOf c.2.id = some n.id := by
  refine parentOf_of_mem_shownIds hw n.id c.2.id ?_
  rw [← map_id_shownNodes hw hn]
  exact List.mem_map_of_mem hc

theorem length_childBoxes (a : Arithmetic) (s : Store) (n : Node) (r : Rect) :
    (childBoxes a s n r).length = (shownNodes s n).length := by
  cases hk : n.kind with
  | column | row => simp [childBoxes, hk, Boxes.ofChildren, length_stack]
  | center | sizedBox => simp [childBoxes, hk, Boxes.ofChildren]
  | text | button => simp [childBoxes, shownNodes, hk, Boxes.ofChildren, NodeKind.shown]

theorem mem_place_succ (hn : s.get? h = some n) {levels depth : Nat} {e : LayoutEntry} :
    e ∈ (place a s (levels + 1) depth h r).entries ↔
      e = n.entry r depth ∨
        ∃ c ∈ (shownNodes s n).zip (childBoxes a s n r),
          e ∈ (place a s levels (depth + 1) c.1.1 c.2).entries := by
  rw [mem_place_succ_iff hn, arrange_eq]
  simp only [List.mem_map, exists_exists_and_eq_and]

/-! ## Corresponding layouts -/

/-- Two layouts whose entries correspond. -/
def Matches (E : LayoutEntry → LayoutEntry → Prop) (l l' : Layout) : Prop :=
  List.Forall₂ E l.entries l'.entries ∧ l.depthLimited = l'.depthLimited

theorem Matches.branch {E : LayoutEntry → LayoutEntry → Prop} {e e' : LayoutEntry} (he : E e e')
    {below below' : List Layout} (hbelow : List.Forall₂ (Matches E) below below') :
    Matches E (branch e below) (branch e' below') := by
  suffices hrest : List.Forall₂ E (below.flatMap entries) (below'.flatMap entries) ∧
      below.any depthLimited = below'.any depthLimited from ⟨.cons he hrest.1, hrest.2⟩
  induction hbelow with
  | nil => exact ⟨.nil, rfl⟩
  | cons hl _ ih =>
      rw [List.flatMap_cons, List.flatMap_cons, List.any_cons, List.any_cons, hl.2, ih.2]
      exact ⟨List.rel_append hl.1 ih.1, rfl⟩

theorem Matches.eq {l l' : Layout} (h : Matches Eq l l') : l = l' := by
  obtain ⟨hentries, hlimited⟩ := h
  rw [List.forall₂_eq_eq_eq] at hentries
  cases l
  cases l'
  cases hentries
  cases hlimited
  rfl

/-- How the layouts of two stores go down together, where `P` relates nodes, `B` boxes and `E` entries.
The entries of the first layout are known to have the property `Q`. -/
structure Lockstep (a b : Arithmetic) (s t : Store) (P : Node → Node → Prop) (B : Rect → Rect → Prop)
    (Q : LayoutEntry → Prop) (E : LayoutEntry → LayoutEntry → Prop) : Prop where
  entry : ∀ {h k n m r r' depth}, s.get? h = some n → t.get? k = some m → P n m → B r r' →
    Q (n.entry r depth) → E (n.entry r depth) (m.entry r' depth)
  nodes : ∀ {h k n m r r' depth}, s.get? h = some n → t.get? k = some m → P n m → B r r' →
    Q (n.entry r depth) → List.Forall₂ (fun c d => P c.2 d.2) (shownNodes s n) (shownNodes t m)
  boxes : ∀ {h k n m r r' depth}, s.get? h = some n → t.get? k = some m → P n m → B r r' →
    Q (n.entry r depth) →
    List.Forall₂ (fun c box => Q (c.2.entry box (depth + 1))) (shownNodes s n) (childBoxes a s n r) →
      List.Forall₂ B (childBoxes a s n r) (childBoxes b t m r')

theorem Lockstep.place {P : Node → Node → Prop} {B : Rect → Rect → Prop} {Q : LayoutEntry → Prop}
    {E : LayoutEntry → LayoutEntry → Prop} (hl : Lockstep a b s t P B Q E) (hn : s.get? h = some n)
    (hm : t.get? k = some m) (hP : P n m) {levels : Nat} (hB : levels ≠ 0 → B r r') (depth : Nat)
    (hQ : ∀ e ∈ (place a s levels depth h r).entries, Q e) :
    Matches E (Layout.place a s levels depth h r) (Layout.place b t levels depth k r') := by
  -- The boxes correspond where the node has an entry: what hints below the cut say does not show.
  induction levels generalizing h k n m r r' depth with
  | zero =>
      rw [place_zero hn, place_zero hm]
      exact ⟨.nil, rfl⟩
  | succ levels ih =>
      have hbox := hB (Nat.succ_ne_zero levels)
      have hhead := hQ _ ((mem_place_succ hn).mpr (Or.inl rfl))
      have hbelow : ∀ c ∈ (shownNodes s n).zip (childBoxes a s n r),
          ∀ e ∈ (Layout.place a s levels (depth + 1) c.1.1 c.2).entries, Q e := fun c hc e he =>
        hQ e ((mem_place_succ hn).mpr (Or.inr ⟨c, hc, he⟩))
      have hnodes := hl.nodes hn hm hP hbox hhead
      have hboxes : List.Forall₂ (fun x y => levels ≠ 0 → B x y) (childBoxes a s n r)
          (childBoxes b t m r') := by
        cases levels with
        | zero =>
            refine List.forall₂_iff_zip.mpr ⟨?_, fun _ h => absurd rfl h⟩
            rw [length_childBoxes, length_childBoxes, hnodes.length_eq]
        | succ levels =>
            refine (hl.boxes hn hm hP hbox hhead ?_).imp fun _ _ h _ => h
            refine List.forall₂_iff_zip.mpr ⟨(length_childBoxes a s n r).symm, fun {c x} hc => ?_⟩
            have hget := get?_of_mem_shownNodes (List.of_mem_zip hc).1
            exact hbelow (c, x) hc _ ((mem_place_succ hget).mpr (Or.inl rfl))
      rw [place_succ hn, place_succ hm, arrange_eq, arrange_eq, List.map_map, List.map_map]
      refine Matches.branch (hl.entry hn hm hP hbox hhead) ?_
      rw [List.forall₂_map_left_iff, List.forall₂_map_right_iff, List.forall₂_iff_zip]
      have hpairs := List.forall₂_iff_zip.mp (forall₂_zip_zip hnodes hboxes)
      refine ⟨hpairs.1, fun {c d} hcd => ?_⟩
      obtain ⟨hc, hd⟩ := List.of_mem_zip hcd
      obtain ⟨hP', hB'⟩ := hpairs.2 hcd
      exact ih (get?_of_mem_shownNodes (List.of_mem_zip hc).1)
        (get?_of_mem_shownNodes (List.of_mem_zip hd).1) hP' hB' (depth + 1) (hbelow c hc)

/-! ## From the root -/

theorem solveIn_of_none (hr : s.root? = none) (bounds : Rect) : solveIn a s bounds = {} := by
  rw [solveIn, hr]

theorem solveIn_of_some (hr : s.root? = some h) (bounds : Rect) :
    solveIn a s bounds = place a s (maxDepth + 1) 0 h bounds := by
  rw [solveIn, hr]

/-- Two stores without a root, or with roots whose nodes are related by `P`. -/
def RootsCorrespond (s t : Store) (P : Node → Node → Prop) : Prop :=
  s.root? = none ∧ t.root? = none ∨
    ∃ h k n m, s.root? = some h ∧ t.root? = some k ∧ s.get? h = some n ∧ t.get? k = some m ∧ P n m

theorem Lockstep.solveIn {P : Node → Node → Prop} {B : Rect → Rect → Prop} {Q : LayoutEntry → Prop}
    {E : LayoutEntry → LayoutEntry → Prop} (hl : Lockstep a b s t P B Q E) (hroots : RootsCorrespond s t P)
    {bounds bounds' : Rect} (hB : B bounds bounds')
    (hQ : ∀ e ∈ (solveIn a s bounds).entries, Q e) :
    Matches E (Layout.solveIn a s bounds) (Layout.solveIn b t bounds') := by
  rcases hroots with ⟨hs, ht⟩ | ⟨h, k, n, m, hs, ht, hn, hm, hP⟩
  · rw [solveIn_of_none hs, solveIn_of_none ht]
    exact ⟨.nil, rfl⟩
  · rw [solveIn_of_some hs] at hQ ⊢
    rw [solveIn_of_some ht]
    exact hl.place hn hm hP (fun _ => hB) 0 hQ

theorem node_of_mem_solveIn {bounds : Rect} {e : LayoutEntry} (he : e ∈ (solveIn a s bounds).entries) :
    ∃ k m, s.get? k = some m ∧ m.id = e.id := by
  cases hr : s.root? with
  | none => rw [solveIn_of_none hr] at he; cases he
  | some h =>
      rw [solveIn_of_some hr] at he
      obtain ⟨k, m, hm, hid, _⟩ := node_of_mem_place he
      exact ⟨k, m, hm, hid⟩

end Layout

end RetainedUi
