import Mathlib.Data.List.Nodup
import Mathlib.Data.List.Perm.Subperm

/-!
# Ancestors

A parent function gives everything at most one parent. The way up from a place either ends or runs
in circles; where every way ends, nothing is above itself, and a way is shorter than what it passes.
-/

namespace RetainedUi

variable {α : Type}

/-- What is reached from `x` by `n` steps up. -/
def climb (up : α → Option α) : Nat → α → Option α
  | 0, x => some x
  | n + 1, x => (up x).bind (climb up n)

/-- `a` is `x` or above it. -/
def Above (up : α → Option α) (a x : α) : Prop := ∃ n, climb up n x = some a

/-- The way up from a place ends. -/
inductive Rooted (up : α → Option α) : α → Prop
  | top {x : α} : up x = none → Rooted up x
  | under {x p : α} : up x = some p → Rooted up p → Rooted up x

variable {up up' : α → Option α}

/-! ## Steps -/

theorem climb_succ_of_up {x p : α} (h : up x = some p) (n : Nat) :
    climb up (n + 1) x = climb up n p := by
  simp only [climb, h, Option.bind_some]

theorem climb_succ_of_top {x : α} (h : up x = none) (n : Nat) : climb up (n + 1) x = none := by
  simp only [climb, h, Option.bind_none]

theorem climb_add (m n : Nat) (x : α) : climb up (m + n) x = (climb up m x).bind (climb up n) := by
  induction m generalizing x with
  | zero => simp only [Nat.zero_add, climb, Option.bind_some]
  | succ m ih =>
      rw [Nat.add_right_comm]
      cases h : up x with
      | none => rw [climb_succ_of_top h, climb_succ_of_top h, Option.bind_none]
      | some p => rw [climb_succ_of_up h, climb_succ_of_up h, ih p]

theorem climb_one (x : α) : climb up 1 x = up x := by
  cases h : up x with
  | none => exact climb_succ_of_top h 0
  | some p => exact climb_succ_of_up h 0

theorem climb_eq_none_of_le {m n : Nat} {x : α} (h : climb up m x = none) (hmn : m ≤ n) :
    climb up n x = none := by
  obtain ⟨k, rfl⟩ := Nat.exists_eq_add_of_le hmn
  rw [climb_add, h, Option.bind_none]

/-! ## Being above -/

theorem Above.refl (x : α) : Above up x x := ⟨0, rfl⟩

theorem Above.of_up {a x p : α} (h : up x = some p) (hp : Above up a p) : Above up a x := by
  obtain ⟨n, hn⟩ := hp
  exact ⟨n + 1, by rw [climb_succ_of_up h, hn]⟩

theorem above_iff {a x : α} : Above up a x ↔ x = a ∨ ∃ p, up x = some p ∧ Above up a p := by
  constructor
  · rintro ⟨n, hn⟩
    cases n with
    | zero => exact Or.inl (Option.some.inj hn)
    | succ n =>
        cases h : up x with
        | none => rw [climb_succ_of_top h] at hn; cases hn
        | some p => exact Or.inr ⟨p, rfl, n, by rwa [climb_succ_of_up h] at hn⟩
  · rintro (rfl | ⟨p, h, hp⟩)
    · exact Above.refl x
    · exact hp.of_up h

theorem Above.mono {a x : α} (h : ∀ y p, up' y = some p → up y = some p) (ha : Above up' a x) :
    Above up a x := by
  obtain ⟨n, hn⟩ := ha
  induction n generalizing x with
  | zero => exact above_iff.mpr (Or.inl (Option.some.inj hn))
  | succ n ih =>
      cases hx : up' x with
      | none => rw [climb_succ_of_top hx] at hn; cases hn
      | some p => exact (ih (by rwa [climb_succ_of_up hx] at hn)).of_up (h x p hx)

theorem Above.of_eq_below {a x : α}
    (h : ∀ y, y ≠ a → Above up a y → up' y = up y) (ha : Above up a x) : Above up' a x := by
  obtain ⟨n, hn⟩ := ha
  induction n generalizing x with
  | zero => exact above_iff.mpr (Or.inl (Option.some.inj hn))
  | succ n ih =>
      by_cases hxa : x = a
      · exact above_iff.mpr (Or.inl hxa)
      have hup := h x hxa ⟨n + 1, hn⟩
      cases hx : up x with
      | none => rw [climb_succ_of_top hx] at hn; cases hn
      | some p =>
          rw [climb_succ_of_up hx] at hn
          exact (ih hn).of_up (hup.trans hx)

/-- What is below a place is known without the link of that place. -/
theorem Above.of_eq_off {a x : α}
    (h : ∀ y, y ≠ a → up' y = up y) (ha : Above up a x) : Above up' a x :=
  ha.of_eq_below fun y hy _ => h y hy

/-! ## Ways that end -/

theorem Rooted.parent {x p : α} (h : Rooted up x) (hp : up x = some p) : Rooted up p := by
  cases h with
  | top h => rw [h] at hp; cases hp
  | under h hr => rw [h] at hp; cases hp; exact hr

theorem Rooted.of_climb {n : Nat} {x y : α} (h : Rooted up x) (hy : climb up n x = some y) :
    Rooted up y := by
  induction n generalizing x with
  | zero => cases hy; exact h
  | succ n ih =>
      cases hx : up x with
      | none => rw [climb_succ_of_top hx] at hy; cases hy
      | some p => exact ih (h.parent hx) (by rwa [climb_succ_of_up hx] at hy)

/-- Nothing whose way up ends is above itself. -/
theorem Rooted.climb_ne_self {x : α} (h : Rooted up x) (n : Nat) :
    climb up (n + 1) x ≠ some x := by
  induction h with
  | top hx => rw [climb_succ_of_top hx]; exact nofun
  | @under x p hx _ ih =>
      rw [climb_succ_of_up hx]
      intro hp
      -- The circle through `x` passes through its parent too.
      exact ih (by rw [climb_add, hp, Option.bind_some, climb_one, hx])

/-- Nothing whose way up ends is above its parent. -/
theorem Rooted.not_above_of_up {x p : α} (hx : Rooted up x) (hp : up x = some p) : ¬ Above up x p := by
  rintro ⟨n, hn⟩
  exact hx.climb_ne_self n (by rw [climb_succ_of_up hp, hn])

theorem Rooted.exists_top {x : α} (h : Rooted up x) :
    ∃ n r, climb up n x = some r ∧ up r = none := by
  induction h with
  | @top x hx => exact ⟨0, x, rfl, hx⟩
  | under hx _ ih =>
      obtain ⟨n, r, hn, hr⟩ := ih
      exact ⟨n + 1, r, by rw [climb_succ_of_up hx, hn], hr⟩

theorem Rooted.climb_injective {x y : α} {i j : Nat} (h : Rooted up x)
    (hi : climb up i x = some y) (hj : climb up j x = some y) : i = j := by
  by_contra hne
  wlog hlt : i < j generalizing i j
  · exact this hj hi (Ne.symm hne) (by omega)
  obtain ⟨k, rfl⟩ := Nat.exists_eq_add_of_lt hlt
  rw [Nat.add_assoc, climb_add, hi, Option.bind_some] at hj
  exact (h.of_climb hi).climb_ne_self k hj

/-- A way is shorter than any list of the places it passes. -/
theorem Rooted.lt_length {x r : α} {n : Nat} {places : List α} (h : Rooted up x)
    (hr : climb up n x = some r)
    (hmem : ∀ i y, climb up i x = some y → y ∈ places) : n < places.length := by
  have hsome : ∀ i ≤ n, ∃ y, climb up i x = some y := by
    intro i hi
    cases hy : climb up i x with
    | none => rw [climb_eq_none_of_le hy hi] at hr; cases hr
    | some y => exact ⟨y, rfl⟩
  have hnodup : ((List.range (n + 1)).map fun i => climb up i x).Nodup := by
    refine List.Nodup.map_on (fun i hi j hj hij => ?_) List.nodup_range
    obtain ⟨y, hy⟩ := hsome i (by have := List.mem_range.mp hi; omega)
    exact h.climb_injective hy (hij ▸ hy)
  have hsub : ((List.range (n + 1)).map fun i => climb up i x) ⊆ places.map some := by
    intro o ho
    obtain ⟨i, hi, rfl⟩ := List.mem_map.mp ho
    obtain ⟨y, hy⟩ := hsome i (by have := List.mem_range.mp hi; omega)
    rw [hy]
    exact List.mem_map_of_mem (hmem i y hy)
  have hle := (hnodup.subperm hsub).length_le
  simp only [List.length_map, List.length_range] at hle
  omega

/-! ## Changing links -/

theorem Rooted.cut {x : α} (h : ∀ y, up' y = up y ∨ up' y = none) (hx : Rooted up x) :
    Rooted up' x := by
  induction hx with
  | top hx =>
      rcases h _ with hy | hy
      · exact .top (hy.trans hx)
      · exact .top hy
  | under hx _ ih =>
      rcases h _ with hy | hy
      · exact .under (hy.trans hx) ih
      · exact .top hy

/-- A new link closes no circle when it leads to a place that is not below its start. -/
theorem Rooted.link {c p : α} (h : ∀ y, y ≠ c → up' y = up y) (hc : up' c = some p)
    (hp : ¬ Above up c p) (hr : ∀ y, Rooted up y) (x : α) : Rooted up' x := by
  -- The way up from `p` never meets `c`, so it is the old one.
  have hp' : Rooted up' p := by
    clear hc
    induction hr p with
    | @top y hy =>
        have hyc : y ≠ c := fun e => hp (above_iff.mpr (Or.inl e))
        exact .top (by rw [h y hyc, hy])
    | @under y q hy _ ih =>
        have hyc : y ≠ c := fun e => hp (above_iff.mpr (Or.inl e))
        exact .under (by rw [h y hyc, hy]) (ih fun hq => hp (hq.of_up hy))
  induction hr x with
  | @top y hy =>
      by_cases hyc : y = c
      · exact .under (hyc ▸ hc) hp'
      · exact .top (by rw [h y hyc, hy])
  | @under y q hy _ ih =>
      by_cases hyc : y = c
      · exact .under (hyc ▸ hc) hp'
      · exact .under (by rw [h y hyc, hy]) ih

end RetainedUi
