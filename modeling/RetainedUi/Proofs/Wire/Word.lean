import Mathlib.Algebra.Group.Nat.Defs
import RetainedUi.Wire.Word

/-!
# Words on the wire

Four bytes are the digits of a word to base 256. Reading words takes off exactly what writing them
puts there, and fails only for want of bytes.
-/

namespace RetainedUi.Word

/-! ## Digits -/

/-- Bits put above a number below them are added to it. -/
theorem lor_shiftLeft {a b i : Nat} (ha : a < 2 ^ i) : a ||| b <<< i = a + 2 ^ i * b := by
  rw [Nat.shiftLeft_eq, Nat.mul_comm b, Nat.or_comm, ← Nat.two_pow_add_eq_or_of_lt ha, Nat.add_comm]

/-- A word is the number that its bytes are the digits of. -/
theorem toNat_ofBytes (b₀ b₁ b₂ b₃ : UInt8) :
    (ofBytes b₀ b₁ b₂ b₃).toUInt32.toNat =
      b₀.toNat + 256 * b₁.toNat + 65536 * b₂.toNat + 16777216 * b₃.toNat := by
  have h₀ := b₀.toNat_lt
  have h₁ := b₁.toNat_lt
  have h₂ := b₂.toNat_lt
  have h₃ := b₃.toNat_lt
  have hmod : ∀ {b i : Nat}, b < 2 ^ 8 → i ≤ 24 → b <<< i % 2 ^ 32 = b <<< i := by
    intro b i hb hi
    have hpow : 2 ^ i ≤ 2 ^ 24 := Nat.pow_le_pow_right (by decide) hi
    have hle := Nat.mul_le_mul (Nat.le_of_lt_succ hb) hpow
    rw [Nat.shiftLeft_eq, Nat.mod_eq_of_lt (by omega)]
  simp only [ofBytes, UInt32.toNat_or, UInt32.toNat_shiftLeft, UInt8.toNat_toUInt32,
    UInt32.reduceToNat, Nat.reduceMod]
  change _ = b₀.toNat + 2 ^ 8 * b₁.toNat + 2 ^ 16 * b₂.toNat + 2 ^ 24 * b₃.toNat
  rw [hmod h₁ (by decide), hmod h₂ (by decide), hmod h₃ (by decide), lor_shiftLeft h₀,
    lor_shiftLeft (i := 16) (by omega), lor_shiftLeft (i := 24) (by omega)]

/-- The bytes of an unsigned word are its digits to base 256. -/
theorem encodeUnsigned_digits (u : UInt32) :
    ∃ b₀ b₁ b₂ b₃ : UInt8, encodeUnsigned u = [b₀, b₁, b₂, b₃] ∧
      b₀.toNat + 256 * b₁.toNat + 65536 * b₂.toNat + 16777216 * b₃.toNat = u.toNat := by
  refine ⟨_, _, _, _, rfl, ?_⟩
  have hu := u.toNat_lt
  simp only [UInt32.toNat_toUInt8, UInt32.toNat_shiftRight, UInt32.reduceToNat, Nat.reduceMod,
    Nat.shiftRight_eq_div_pow]
  omega

theorem encode_ofBytes (b₀ b₁ b₂ b₃ : UInt8) : encode (ofBytes b₀ b₁ b₂ b₃) = [b₀, b₁, b₂, b₃] := by
  obtain ⟨c₀, c₁, c₂, c₃, hc, hn⟩ := encodeUnsigned_digits (ofBytes b₀ b₁ b₂ b₃).toUInt32
  rw [toNat_ofBytes] at hn
  -- The digits of a number to base 256 are unique.
  have hb := And.intro b₀.toNat_lt (And.intro b₁.toNat_lt (And.intro b₂.toNat_lt b₃.toNat_lt))
  have hc' := And.intro c₀.toNat_lt (And.intro c₁.toNat_lt (And.intro c₂.toNat_lt c₃.toNat_lt))
  have h₀ : c₀ = b₀ := UInt8.toNat_inj.mp (by omega)
  have h₁ : c₁ = b₁ := UInt8.toNat_inj.mp (by omega)
  have h₂ : c₂ = b₂ := UInt8.toNat_inj.mp (by omega)
  have h₃ : c₃ = b₃ := UInt8.toNat_inj.mp (by omega)
  rw [encode, hc, h₀, h₁, h₂, h₃]

theorem encode_injective {v w : Int32} (h : encode v = encode w) : v = w := by
  obtain ⟨a₀, a₁, a₂, a₃, ha, hv⟩ := encodeUnsigned_digits v.toUInt32
  obtain ⟨b₀, b₁, b₂, b₃, hb, hw⟩ := encodeUnsigned_digits w.toUInt32
  rw [encode, encode, ha, hb] at h
  cases h
  exact congrArg Int32.ofUInt32 (UInt32.toNat_inj.mp (hv.symm.trans hw))

theorem length_encode (w : Int32) : (encode w).length = 4 := rfl

/-! ## One word -/

theorem take?_eq_some_iff {bytes rest : Bytes} {w : Int32} :
    take? bytes = some (w, rest) ↔ bytes = encode w ++ rest := by
  constructor
  · intro h
    unfold take? at h
    split at h
    · cases h
      rw [encode_ofBytes]
      rfl
    · cases h
  · rintro rfl
    obtain ⟨b₀, b₁, b₂, b₃, hb, -⟩ := encodeUnsigned_digits w.toUInt32
    have hw : ofBytes b₀ b₁ b₂ b₃ = w := encode_injective (by rw [encode_ofBytes, encode, hb])
    rw [encode, hb, ← hw]
    rfl

theorem take?_eq_none_iff {bytes : Bytes} : take? bytes = none ↔ bytes.length < 4 := by
  unfold take?
  split
  · simp only [reduceCtorEq, List.length_cons, false_iff]
    omega
  · rename_i hshort
    simp only [true_iff]
    match bytes with
    | [] | [_] | [_, _] | [_, _, _] => simp
    | b₀ :: b₁ :: b₂ :: b₃ :: rest => exact absurd rfl (hshort b₀ b₁ b₂ b₃ rest)

/-! ## Several words -/

variable {α : Type}

theorem read₁_eq_some_iff {f : Int32 → α} {bytes rest : Bytes} {x : α} :
    read₁ f bytes = some (x, rest) ↔ ∃ a, x = f a ∧ bytes = encode a ++ rest := by
  simp only [read₁, Option.map_eq_some_iff, Prod.exists, take?_eq_some_iff, Prod.mk.injEq]
  constructor
  · rintro ⟨a, _, hb, rfl, rfl⟩
    exact ⟨a, rfl, hb⟩
  · rintro ⟨a, rfl, hb⟩
    exact ⟨a, rest, hb, rfl, rfl⟩

theorem read₂_eq_some_iff {f : Int32 → Int32 → α} {bytes rest : Bytes} {x : α} :
    read₂ f bytes = some (x, rest) ↔ ∃ a b, x = f a b ∧ bytes = encode a ++ (encode b ++ rest) := by
  simp only [read₂, Option.bind_eq_some_iff, Prod.exists, take?_eq_some_iff, read₁_eq_some_iff]
  constructor
  · rintro ⟨a, _, rfl, b, hx, rfl⟩
    exact ⟨a, b, hx, rfl⟩
  · rintro ⟨a, b, hx, rfl⟩
    exact ⟨a, _, rfl, b, hx, rfl⟩

theorem read₃_eq_some_iff {f : Int32 → Int32 → Int32 → α} {bytes rest : Bytes} {x : α} :
    read₃ f bytes = some (x, rest) ↔
      ∃ a b c, x = f a b c ∧ bytes = encode a ++ (encode b ++ (encode c ++ rest)) := by
  simp only [read₃, Option.bind_eq_some_iff, Prod.exists, take?_eq_some_iff, read₂_eq_some_iff]
  constructor
  · rintro ⟨a, _, rfl, b, c, hx, rfl⟩
    exact ⟨a, b, c, hx, rfl⟩
  · rintro ⟨a, b, c, hx, rfl⟩
    exact ⟨a, _, rfl, b, c, hx, rfl⟩

theorem read₁_eq_none_iff {f : Int32 → α} {bytes : Bytes} :
    read₁ f bytes = none ↔ bytes.length < 4 := by
  rw [read₁, Option.map_eq_none_iff, take?_eq_none_iff]

/-- A word and what follows it are missing when the bytes are too few for both. -/
theorem bind_take?_eq_none_iff {f : Int32 × Bytes → Option α} {n : Nat}
    (hf : ∀ w rest, f (w, rest) = none ↔ rest.length < n) {bytes : Bytes} :
    (take? bytes).bind f = none ↔ bytes.length < n + 4 := by
  cases h : take? bytes with
  | none =>
      have hshort := take?_eq_none_iff.mp h
      simp only [Option.bind_none, true_iff]
      omega
  | some x =>
      have hlength := length_of_take? h
      simp only [Option.bind_some, hf x.1 x.2]
      omega

theorem read₂_eq_none_iff {f : Int32 → Int32 → α} {bytes : Bytes} :
    read₂ f bytes = none ↔ bytes.length < 8 :=
  bind_take?_eq_none_iff fun _ _ => read₁_eq_none_iff

theorem read₃_eq_none_iff {f : Int32 → Int32 → Int32 → α} {bytes : Bytes} :
    read₃ f bytes = none ↔ bytes.length < 12 :=
  bind_take?_eq_none_iff fun _ _ => read₂_eq_none_iff

end RetainedUi.Word
