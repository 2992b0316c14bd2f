/-!
# Words and bytes

A word is a signed 32-bit integer. On the wire it takes four bytes, the least significant first.
-/

namespace RetainedUi

abbrev Bytes := List UInt8

namespace Word

/-- The four bytes of an unsigned word. -/
def encodeUnsigned (u : UInt32) : Bytes :=
  [u.toUInt8, (u >>> 8).toUInt8, (u >>> 16).toUInt8, (u >>> 24).toUInt8]

/-- The four bytes of a word. -/
def encode (w : Int32) : Bytes := encodeUnsigned w.toUInt32

def ofBytes (b₀ b₁ b₂ b₃ : UInt8) : Int32 :=
  .ofUInt32 (b₀.toUInt32 ||| b₁.toUInt32 <<< 8 ||| b₂.toUInt32 <<< 16 ||| b₃.toUInt32 <<< 24)

/-- The word at the front, and what follows it. -/
def take? : Bytes → Option (Int32 × Bytes)
  | b₀ :: b₁ :: b₂ :: b₃ :: rest => some (ofBytes b₀ b₁ b₂ b₃, rest)
  | _ => none

variable {α : Type}

/-- A value made of the word at the front. -/
def read₁ (f : Int32 → α) (bytes : Bytes) : Option (α × Bytes) :=
  (take? bytes).map fun (a, rest) => (f a, rest)

/-- A value made of the two words at the front. -/
def read₂ (f : Int32 → Int32 → α) (bytes : Bytes) : Option (α × Bytes) :=
  (take? bytes).bind fun (a, rest) => read₁ (f a) rest

/-- A value made of the three words at the front. -/
def read₃ (f : Int32 → Int32 → Int32 → α) (bytes : Bytes) : Option (α × Bytes) :=
  (take? bytes).bind fun (a, rest) => read₂ (f a) rest

/-! ## What reading leaves -/

theorem length_of_take? {bytes rest : Bytes} {w : Int32} (h : take? bytes = some (w, rest)) :
    bytes.length = rest.length + 4 := by
  unfold take? at h
  split at h
  · cases h; rfl
  · cases h

theorem of_read₁ {f : Int32 → α} {bytes rest : Bytes} {x : α} (h : read₁ f bytes = some (x, rest)) :
    ∃ a, x = f a ∧ bytes.length = rest.length + 4 := by
  obtain ⟨⟨a, r⟩, ha, hr⟩ := Option.map_eq_some_iff.1 h
  cases hr
  exact ⟨a, rfl, length_of_take? ha⟩

theorem of_read₂ {f : Int32 → Int32 → α} {bytes rest : Bytes} {x : α}
    (h : read₂ f bytes = some (x, rest)) :
    ∃ a b, x = f a b ∧ bytes.length = rest.length + 8 := by
  obtain ⟨⟨a, r⟩, ha, hr⟩ := Option.bind_eq_some_iff.1 h
  obtain ⟨b, rfl, hb⟩ := of_read₁ hr
  exact ⟨a, b, rfl, by rw [length_of_take? ha, hb]⟩

theorem of_read₃ {f : Int32 → Int32 → Int32 → α} {bytes rest : Bytes} {x : α}
    (h : read₃ f bytes = some (x, rest)) :
    ∃ a b c, x = f a b c ∧ bytes.length = rest.length + 12 := by
  obtain ⟨⟨a, r⟩, ha, hr⟩ := Option.bind_eq_some_iff.1 h
  obtain ⟨b, c, rfl, hb⟩ := of_read₂ hr
  exact ⟨a, b, c, rfl, by rw [length_of_take? ha, hb]⟩

end Word

end RetainedUi
