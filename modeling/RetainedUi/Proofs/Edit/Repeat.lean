import RetainedUi.Proofs.Edit.Kept

/-!
# Records that come again

A record that was granted is refused when it comes again, or is granted and changes nothing: what it asks
for is there.
-/

namespace RetainedUi

theorem Props.set?_of_set? {p q : Props} {key value : Int32} (h : p.set? key value = some q) :
    q.set? key value = some q := by
  simp only [Props.set?] at h ⊢
  split at h <;> cases h <;> rfl

namespace Forest

variable {f g : Forest} {x p c o n : NodeId} {e : Element}

/-- The record is refused, or granted without a change. -/
def Settled (f : Forest) (r : Record) : Prop := (∃ e, f.edit r = .error e) ∨ f.edit r = .ok f

/-- Both ends of every link agree. -/
structure Linked (f : Forest) : Prop where
  mem_children : ∀ p c, c ∈ f.children p ↔ f.parent? c = some p
  nodup_children : ∀ p, (f.children p).Nodup

theorem Linked.mem_children_of_eq (hf : f.Linked) (he : f p = some e) :
    c ∈ e.children ↔ f.parent? c = some p := by
  rw [← hf.mem_children, children, he]
  rfl

/-! ## Changing an element -/

theorem adjust_self (he : f x = some e) (G : Element → Element) : f.adjust x G x = some (G e) := by
  rw [adjust, he, Option.map_some, if_pos rfl]

theorem adjust_eq_self {G : Element → Element} (h : ∀ e, f x = some e → G e = e) :
    f.adjust x G = f := by
  funext y
  rw [adjust]
  cases he : f y with
  | none => rfl
  | some e =>
      by_cases hy : y = x
      · rw [Option.map_some, if_pos hy, h e (hy ▸ he)]
      · rw [Option.map_some, if_neg hy]

theorem adjust_adjust (he : f x = some e) {G : Element → Element} (h : G (G e) = G e) :
    (f.adjust x G).adjust x G = f.adjust x G := by
  refine adjust_eq_self fun a ha => ?_
  rw [adjust_self he] at ha
  cases ha
  exact h

theorem settled_createNode {word code : Int32} (h : f.edit (.createNode word code) = .ok g) :
    g.Settled (.createNode word code) := by
  refine Or.inr ?_
  simp only [edit] at h ⊢
  split at h
  · cases h
  rename_i x _
  split at h
  · cases h
  rename_i kind _
  split at h
  · cases h
    have hself : f.insert x { kind } x = some { kind } := if_pos rfl
    simp only [hself]
    refine congrArg _ (adjust_eq_self fun a ha => ?_)
    rw [hself] at ha
    cases ha
    rfl
  · rename_i e he
    cases h
    simp only [adjust_self he]
    rw [adjust_adjust he rfl]

theorem settled_deleteNode {word : Int32} (h : f.edit (.deleteNode word) = .ok g) :
    g.Settled (.deleteNode word) := by
  obtain ⟨x, e, hx, _, hg⟩ := exists_of_bind_resolve h
  cases hg
  exact Or.inl ⟨_, bind_resolve_of_unknown hx (if_pos rfl) _⟩

theorem settled_setProp {word key value : Int32} (h : f.edit (.setProp word key value) = .ok g) :
    g.Settled (.setProp word key value) := by
  obtain ⟨x, e, hx, he, hg⟩ := exists_of_bind_resolve h
  simp only at hg
  split at hg
  · rename_i props hset
    cases hg
    refine Or.inr ((bind_resolve_of_live hx (adjust_self he _) _).trans ?_)
    simp only [Props.set?_of_set? hset]
    rw [adjust_adjust he rfl]
  · cases hg

theorem settled_setPropStr {word key : Int32} {payload : Bytes}
    (h : f.edit (.setPropStr word key payload) = .ok g) : g.Settled (.setPropStr word key payload) := by
  obtain ⟨x, e, hx, he, hg⟩ := exists_of_bind_resolve h
  simp only at hg
  split at hg
  · rename_i hkey
    cases hg
    refine Or.inr ((bind_resolve_of_live hx (adjust_self he _) _).trans ?_)
    simp only [if_pos hkey]
    rw [adjust_adjust he rfl]
  · cases hg

/-! ## Changing links -/

/-- The last child is last again when it is taken away and put back. -/
theorem attachLast_detach_self (hg : g.Linked) (hp : g p ≠ none) (hc : g c ≠ none)
    {l : List NodeId} (hlast : g.children p = l ++ [c]) : (g.detach c).attachLast p c = g := by
  have hmem : c ∈ g.children p := by
    rw [hlast]
    exact List.mem_append_right l List.mem_cons_self
  have hup := (hg.mem_children p c).mp hmem
  have hnot : c ∉ l := fun h => by
    have hnodup := hg.nodup_children p
    rw [hlast, List.nodup_append] at hnodup
    exact hnodup.2.2 c h c List.mem_cons_self rfl
  refine eq_of_parts (fun x => ?_) (fun x => ?_) fun x => ?_
  · rw [content_attachLast, content_detach]
  · rw [children_attachLast _ _ _ (mt detach_eq_none_iff.mp hp), children_detach]
    by_cases hx : x = p
    · rw [if_pos hx, hx, hlast, List.erase_append_right _ hnot, List.erase_cons_head, List.append_nil]
    · have hnot : c ∉ g.children x := fun h => by
        rw [hg.mem_children, hup] at h
        exact hx (Option.some.inj h).symm
      rw [if_neg hx, List.append_nil, List.erase_of_not_mem hnot]
  · rw [parent?_attachLast _ _ _ (mt detach_eq_none_iff.mp hc), parent?_detach]
    by_cases hx : x = c
    · rw [if_pos hx, hx, hup]
    · rw [if_neg hx, if_neg hx]

theorem exists_of_live (hlive : ∀ x, g x = none → f x = none) (he : f x = some e) :
    ∃ a, g x = some a :=
  Option.ne_none_iff_exists'.mp fun h => by
    rw [hlive x h] at he
    cases he

theorem settled_appendChild (hg : g.Linked) {parent child : Int32}
    (h : f.edit (.appendChild parent child) = .ok g) : g.Settled (.appendChild parent child) := by
  obtain ⟨p, a, hp, ha, h⟩ := exists_of_bind_resolve h
  obtain ⟨c, b, hc, hb, h⟩ := exists_of_bind_resolve h
  simp only at h
  split at h
  · cases h
  rename_i habove
  obtain rfl := Except.ok.inj h
  have hlive : ∀ x, (f.detach c).attachLast p c x = none → f x = none := fun x hx =>
    detach_eq_none_iff.mp (Option.map_eq_none_iff.mp hx)
  obtain ⟨a', ha'⟩ := exists_of_live hlive ha
  obtain ⟨b', hb'⟩ := exists_of_live hlive hb
  have hup : ∀ x, x ≠ c → f.parent? x = ((f.detach c).attachLast p c).parent? x := by
    intro x hx
    rw [parent?_attachLast _ _ _ (by rw [ne_eq, detach_eq_none_iff, hb]; exact nofun),
      parent?_detach, if_neg hx, if_neg hx]
  have hlast := children_attachLast (f.detach c) p c (by rw [ne_eq, detach_eq_none_iff, ha]; exact nofun)
  rw [if_pos rfl] at hlast
  refine Or.inr ((bind_resolve_of_live hp ha' _).trans ((bind_resolve_of_live hc hb' _).trans ?_))
  refine (if_neg fun hcycle => habove (hcycle.of_eq_off hup)).trans (congrArg _ ?_)
  exact attachLast_detach_self hg (by rw [ha']; exact nofun) (by rw [hb']; exact nofun) hlast

theorem settled_removeChild (hg : g.Linked) {parent child : Int32}
    (h : f.edit (.removeChild parent child) = .ok g) : g.Settled (.removeChild parent child) := by
  obtain ⟨p, a, hp, ha, h⟩ := exists_of_bind_resolve h
  obtain ⟨c, b, hc, hb, h⟩ := exists_of_bind_resolve h
  simp only at h
  split at h
  swap
  · cases h
  obtain rfl := Except.ok.inj h
  have hlive : ∀ x, f.detach c x = none → f x = none := fun x => detach_eq_none_iff.mp
  obtain ⟨a', ha'⟩ := exists_of_live hlive ha
  obtain ⟨b', hb'⟩ := exists_of_live hlive hb
  refine Or.inl ⟨.notAChild p c,
    (bind_resolve_of_live hp ha' _).trans ((bind_resolve_of_live hc hb' _).trans (if_neg ?_))⟩
  rw [hg.mem_children_of_eq ha', parent?_detach, if_pos rfl]
  exact nofun

theorem settled_replaceChild (hg : g.Linked) {parent old new : Int32}
    (h : f.edit (.replaceChild parent old new) = .ok g) :
    g.Settled (.replaceChild parent old new) := by
  have hedit := h
  obtain ⟨p, a, hp, ha, h⟩ := exists_of_bind_resolve h
  obtain ⟨o, b, ho, hb, h⟩ := exists_of_bind_resolve h
  obtain ⟨n, d, hn, hd, h⟩ := exists_of_bind_resolve h
  simp only at h
  split at h
  · cases h
  split at h
  · obtain rfl := Except.ok.inj h
    exact Or.inr hedit
  rename_i hon
  split at h
  · cases h
  obtain rfl := Except.ok.inj h
  have hlive : ∀ x, (f.detach n).replaceChild p o n x = none → f x = none := fun x hx =>
    detach_eq_none_iff.mp (Option.map_eq_none_iff.mp hx)
  obtain ⟨a', ha'⟩ := exists_of_live hlive ha
  obtain ⟨b', hb'⟩ := exists_of_live hlive hb
  obtain ⟨d', hd'⟩ := exists_of_live hlive hd
  refine Or.inl ⟨.notAChild p o, (bind_resolve_of_live hp ha' _).trans
    ((bind_resolve_of_live ho hb' _).trans ((bind_resolve_of_live hn hd' _).trans (if_pos ?_)))⟩
  rw [hg.mem_children_of_eq ha',
    parent?_replaceChild _ _ _ _ (by rw [ne_eq, detach_eq_none_iff, hd]; exact nofun), if_neg hon,
    if_pos rfl]
  exact nofun

/-- What was granted is settled. -/
theorem settled_of_edit (hg : g.Linked) {r : Record} (h : f.edit r = .ok g) : g.Settled r := by
  cases r with
  | createNode word code => exact settled_createNode h
  | deleteNode word => exact settled_deleteNode h
  | setProp word key value => exact settled_setProp h
  | appendChild parent child => exact settled_appendChild hg h
  | insertChild parent child index => exact settled_appendChild hg h
  | removeChild parent child => exact settled_removeChild hg h
  | replaceChild parent old new => exact settled_replaceChild hg h
  | setPropStr word key payload => exact settled_setPropStr h

end Forest

namespace Store

variable {s : Store}

theorem WellFormed.linked_forest (hw : s.WellFormed) : s.forest.Linked where
  mem_children p c := by rw [← childIds_eq_forest, ← parentOf_eq_forest, hw.mem_childIds_iff]
  nodup_children p := by
    rw [← childIds_eq_forest]
    exact hw.nodup_childIds p

theorem WellFormed.settled_apply (hw : s.WellFormed) (r : Record) :
    (s.apply r).2.forest.Settled r := by
  cases h : s.forest.edit r with
  | error e =>
      rw [hw.apply_of_error h]
      exact Or.inl ⟨e, h⟩
  | ok f =>
      have hafter := hw.apply r
      obtain ⟨t, ht, rfl⟩ := hw.apply_of_ok h
      rw [ht] at hafter ⊢
      exact Forest.settled_of_edit hafter.linked_forest h

theorem WellFormed.apply_of_settled (hw : s.WellFormed) {r : Record} (h : s.forest.Settled r) :
    (s.apply r).2 = s := by
  rcases h with ⟨e, he⟩ | hsame
  · rw [hw.apply_of_error he]
  · rw [hw.apply_eq_self hsame]

/-- A record that comes twice in a row leaves the store as it is left when the record comes once, whether
it was granted or not. -/
theorem Reachable.apply_twice (hs : s.Reachable) (r : Record) :
    ((s.apply r).2.apply r).2 = (s.apply r).2 :=
  (hs.wellFormed.apply r).apply_of_settled (hs.wellFormed.settled_apply r)

/-- A text is moved twice to a row, where it is last already the second time; a column is deleted twice, and
is unknown the second time. -/
theorem apply_twice_sample :
    let s := (empty.applyAll sample).2
    let moved := (s.apply (.appendChild 3 2)).2
    let deleted := (s.apply (.deleteNode 1)).2
    (s.apply (.appendChild 3 2)).1 = .ok () ∧ (moved.apply (.appendChild 3 2)).1 = .ok () ∧
      (moved.apply (.appendChild 3 2)).2 = moved ∧
      (s.apply (.deleteNode 1)).1 = .ok () ∧
      (deleted.apply (.deleteNode 1)).1 = .error (.unknownNode ⟨1⟩) ∧
      (deleted.apply (.deleteNode 1)).2 = deleted := by
  intro s moved deleted
  have hs : s.Reachable := Reachable.empty.applyAll sample
  exact ⟨by decide, by decide, hs.apply_twice (.appendChild 3 2), by decide, by decide,
    hs.apply_twice (.deleteNode 1)⟩

end Store

end RetainedUi
