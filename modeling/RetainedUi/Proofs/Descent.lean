import RetainedUi.Proofs.Ancestry

/-!
# Descents

Going down leads from a place to those next below it. What is reached so is listed in pre-order, cut
below some depth; where every step down goes back up to its start, nothing is listed twice.
-/

namespace RetainedUi

variable {α : Type}

/-- `y` is reached from `x` by `n` steps down. -/
inductive Reaches (down : α → List α) (x : α) : Nat → α → Prop
  | refl : Reaches down x 0 x
  | step {n : Nat} {y z : α} : Reaches down x n y → z ∈ down y → Reaches down x (n + 1) z

/-- What is reached from `x`, each place before those below it and with its depth, on so many levels;
`x` is at `depth`. -/
def preorder (down : α → List α) : Nat → Nat → α → List (α × Nat)
  | 0, _, _ => []
  | levels + 1, depth, x => (x, depth) :: (down x).flatMap (preorder down levels (depth + 1))

variable {down : α → List α} {up : α → Option α}

/-! ## Steps -/

theorem reaches_zero_iff {x y : α} : Reaches down x 0 y ↔ y = x := by
  constructor
  · intro h
    cases h
    rfl
  · rintro rfl
    exact .refl

/-- The first of the steps down, taken apart. -/
theorem reaches_succ_iff {x z : α} {n : Nat} :
    Reaches down x (n + 1) z ↔ ∃ y ∈ down x, Reaches down y n z := by
  constructor
  · intro h
    induction n generalizing z with
    | zero =>
        cases h with
        | step hy hz => exact ⟨z, reaches_zero_iff.mp hy ▸ hz, .refl⟩
    | succ n ih =>
        cases h with
        | step hy hz =>
            obtain ⟨c, hc, hcy⟩ := ih hy
            exact ⟨c, hc, hcy.step hz⟩
  · rintro ⟨y, hy, h⟩
    induction h with
    | refl => exact Reaches.refl.step hy
    | step _ hz ih => exact ih.step hz

theorem Reaches.climb {x y : α} {n : Nat} (h : Reaches down x n y)
    (hup : ∀ y z, z ∈ down y → up z = some y) : RetainedUi.climb up n y = some x := by
  induction h with
  | refl => rfl
  | step _ hz ih => rw [climb_succ_of_up (hup _ _ hz), ih]

/-! ## The list -/

theorem mem_preorder {levels depth k : Nat} {x y : α} :
    (y, k) ∈ preorder down levels depth x ↔ ∃ n < levels, k = depth + n ∧ Reaches down x n y := by
  induction levels generalizing depth x with
  | zero => simp [preorder]
  | succ levels ih =>
      simp only [preorder, List.mem_cons, Prod.mk.injEq, List.mem_flatMap, ih]
      constructor
      · rintro (⟨rfl, rfl⟩ | ⟨c, hc, n, hn, rfl, h⟩)
        · exact ⟨0, by omega, rfl, .refl⟩
        · exact ⟨n + 1, by omega, by omega, reaches_succ_iff.mpr ⟨c, hc, h⟩⟩
      · rintro ⟨n, hn, rfl, h⟩
        cases n with
        | zero => exact Or.inl ⟨reaches_zero_iff.mp h, rfl⟩
        | succ n =>
            obtain ⟨c, hc, h⟩ := reaches_succ_iff.mp h
            exact Or.inr ⟨c, hc, n, by omega, by omega, h⟩

/-- Nothing is listed twice when every step down goes back up to where it came from. -/
theorem nodup_preorder (hup : ∀ y z, z ∈ down y → up z = some y) (hdown : ∀ y, (down y).Nodup)
    (hrooted : ∀ y, Rooted up y) (levels depth : Nat) (x : α) :
    ((preorder down levels depth x).map Prod.fst).Nodup := by
  have hclimb : ∀ {levels depth x y}, y ∈ (preorder down levels depth x).map Prod.fst →
      ∃ n, climb up n y = some x := by
    intro levels depth x y hy
    obtain ⟨⟨y, k⟩, hk, rfl⟩ := List.mem_map.mp hy
    obtain ⟨n, _, _, h⟩ := mem_preorder.mp hk
    exact ⟨n, h.climb hup⟩
  have hover : ∀ {n y c x}, c ∈ down x → climb up n y = some c → climb up (n + 1) y = some x := by
    intro n y c x hc hy
    rw [climb_add, hy, Option.bind_some, climb_one, hup x c hc]
  induction levels generalizing depth x with
  | zero => exact List.nodup_nil
  | succ levels ih =>
      rw [preorder, List.map_cons, List.map_flatMap, List.nodup_cons, List.nodup_flatMap]
      refine ⟨fun hx => ?_, fun c _ => ih (depth + 1) c, ?_⟩
      · obtain ⟨c, hc, hxc⟩ := List.mem_flatMap.mp hx
        obtain ⟨n, hn⟩ := hclimb hxc
        exact (hrooted x).climb_ne_self n (hover hc hn)
      · refine (hdown x).imp_of_mem fun {c d} hc hd hne => ?_
        intro y hyc hyd
        obtain ⟨m, hm⟩ := hclimb hyc
        obtain ⟨n, hn⟩ := hclimb hyd
        -- Both ways from `y` up to `x` are the same way, and so are their last steps.
        have hmn := (hrooted y).climb_injective (hover hc hm) (hover hd hn)
        rw [Nat.add_right_cancel hmn, hn] at hm
        exact hne (Option.some.inj hm).symm

end RetainedUi
