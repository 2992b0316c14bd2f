import RetainedUi.Proofs.Wire.Cursor

/-!
# Asking for record after record

A decoder gives the records of a patch, then the error if there is one, and nothing from then on. Its
position moves by the size of each record, and stays within the patch.
-/

namespace RetainedUi

/-! ## Calls -/

namespace Decoder

/-- The decoder after `n` calls. -/
def after (d : Decoder) : Nat → Decoder
  | 0 => d
  | n + 1 => (d.after n).next.2

/-- What call `n` gives, counted from nought. -/
def item (d : Decoder) (n : Nat) : Option (Except DecodeError Record) := (d.after n).next.1

end Decoder

namespace Cursor

/-- The cursor after `n` calls. -/
def after (c : Cursor) : Nat → Access Cursor
  | 0 => return c
  | n + 1 => do return (← (← c.after n).next).2

/-- What call `n` gives, counted from nought. -/
def item (c : Cursor) (n : Nat) : Access (Option (Except DecodeError Record)) := do
  return (← (← c.after n).next).1

variable {c : Cursor}

/-- No call of a cursor has a fault, and the calls are those of its decoder. -/
theorem after_eq (h : c.Within) (n : Nat) :
    ∃ c', c.after n = .ok c' ∧ c'.decoder = c.decoder.after n ∧ c'.Within := by
  induction n with
  | zero => exact ⟨c, rfl, rfl, h⟩
  | succ n ih =>
      obtain ⟨c', hafter, hdecoder, hwithin⟩ := ih
      obtain ⟨c'', hnext, hdecoder', hwithin'⟩ := next_eq hwithin
      refine ⟨c'', ?_, ?_, hwithin'⟩
      · rw [after, hafter]
        simp only [bind, Except.bind, hnext]
        rfl
      · rw [hdecoder', hdecoder]
        rfl

theorem item_eq (h : c.Within) (n : Nat) : c.item n = .ok (c.decoder.item n) := by
  obtain ⟨c', hafter, hdecoder, hwithin⟩ := after_eq h n
  obtain ⟨c'', hnext, -, -⟩ := next_eq hwithin
  rw [item, hafter]
  simp only [bind, Except.bind, hnext, hdecoder]
  rfl

end Cursor

/-! ## Where the calls lead -/

namespace Decoder

/-- `n` of some records have been read from `start` on, and `left` stands behind the others. -/
structure Read (rs : List Record) (left : Bytes) (start n : Nat) (d : Decoder) : Prop where
  running : d.stopped = false
  rest : d.rest = (rs.drop n).flatMap Record.encode ++ left
  position : d.position = start + ((rs.take n).flatMap Record.encode).length

variable {rs : List Record} {left : Bytes} {start n : Nat} {d : Decoder}

theorem Read.step (h : Read rs left start n d) (hn : n < rs.length) (hr : rs[n].Sendable) :
    d.item 0 = some (.ok rs[n]) ∧ Read rs left start (n + 1) d.next.2 := by
  have hrest := h.rest
  rw [List.drop_eq_getElem_cons hn, List.flatMap_cons, List.append_assoc] at hrest
  obtain ⟨d', hnext, hrunning, hrest', hposition⟩ := next_of_record h.running hr hrest
  rw [item, after, hnext]
  refine ⟨rfl, hrunning, hrest', ?_⟩
  rw [hposition, h.position, List.take_succ_eq_append_getElem hn, List.flatMap_append, List.length_append,
    List.flatMap_singleton, Record.length_encode, Nat.add_assoc]

theorem Read.run (h : Read rs left start 0 d) (hrs : ∀ r ∈ rs, r.Sendable) (hn : n ≤ rs.length) :
    Read rs left start n (d.after n) := by
  induction n with
  | zero => exact h
  | succ n ih => exact ((ih (Nat.le_of_succ_le hn)).step hn (hrs _ (List.getElem_mem hn))).2

theorem Read.item_lt (h : Read rs left start 0 d) (hrs : ∀ r ∈ rs, r.Sendable) (hn : n < rs.length) :
    d.item n = some (.ok rs[n]) ∧
      (d.after (n + 1)).position = (d.after n).position + rs[n].encode.length := by
  have hbefore := h.run hrs (Nat.le_of_lt hn)
  obtain ⟨hitem, hafter⟩ := hbefore.step hn (hrs _ (List.getElem_mem hn))
  refine ⟨hitem, ?_⟩
  rw [Decoder.after, hafter.position, hbefore.position, List.take_succ_eq_append_getElem hn,
    List.flatMap_append, List.length_append, List.flatMap_singleton, Nat.add_assoc]

/-- Once a decoder has stopped, it gives nothing and stays where it is. -/
theorem after_of_stopped (hd : d.stopped = true) (n : Nat) : d.after n = d ∧ d.item n = none := by
  have hnext : d.next = (none, d) := by rw [next, hd]; rfl
  have hafter : d.after n = d := by
    induction n with
    | zero => rfl
    | succ n ih => rw [after, ih, hnext]
  rw [item, hafter, hnext]
  exact ⟨rfl, rfl⟩

theorem after_add (d : Decoder) (m n : Nat) : d.after (m + n) = (d.after m).after n := by
  induction n with
  | zero => rfl
  | succ n ih => rw [← Nat.add_assoc, after, after, ih]

section Ended

variable {error : Option DecodeError} (h : Read rs left start 0 d) (hrs : ∀ r ∈ rs, r.Sendable)
  (hends : Ends (start + (rs.flatMap Record.encode).length) left error)

include h hrs hends

/-- The call behind the last record tells why reading ends, and stops the decoder. -/
theorem Read.next_end :
    let last := d.after rs.length
    last.position = start + (rs.flatMap Record.encode).length ∧
      last.next = (error.map .error, { last with stopped := true }) := by
  obtain ⟨hrunning, hrest, hposition⟩ := h.run hrs (Nat.le_refl _)
  rw [List.drop_length, List.flatMap_nil, List.nil_append] at hrest
  rw [List.take_length] at hposition
  refine ⟨hposition, next_of_ends hrunning ?_⟩
  rw [hposition, hrest]
  exact hends

theorem Read.item_end : d.item rs.length = error.map .error := by
  rw [item, (h.next_end hrs hends).2]

theorem Read.item_behind {n : Nat} (hn : rs.length < n) : d.item n = none := by
  obtain ⟨k, rfl⟩ := Nat.exists_eq_add_of_lt hn
  rw [item, Nat.add_right_comm, after_add, after, (h.next_end hrs hends).2]
  exact (after_of_stopped rfl k).2

theorem Read.position_behind {n : Nat} (hn : rs.length ≤ n) :
    (d.after n).position = start + (rs.flatMap Record.encode).length := by
  obtain ⟨hposition, hnext⟩ := h.next_end hrs hends
  obtain rfl | hlt := Nat.eq_or_lt_of_le hn
  · exact hposition
  · obtain ⟨k, rfl⟩ := Nat.exists_eq_add_of_lt hlt
    rw [Nat.add_right_comm, after_add, after, hnext, (after_of_stopped rfl k).1]
    exact hposition

theorem Read.position_le (n : Nat) :
    (d.after n).position ≤ start + (rs.flatMap Record.encode).length := by
  rcases Nat.le_total n rs.length with hn | hn
  · have hsplit := congrArg (fun rs => (rs.flatMap Record.encode).length) (List.take_append_drop n rs)
    simp only [List.flatMap_append, List.length_append] at hsplit
    rw [(h.run hrs hn).position]
    omega
  · exact Nat.le_of_eq (h.position_behind hrs hends hn)

end Ended

end Decoder

/-! ## Sizes -/

theorem Record.five_le_size (r : Record) : 5 ≤ r.size := by
  cases r <;> simp +arith [size, opcode, Opcode.fieldBytes]

theorem Record.five_mul_length_le (rs : List Record) :
    5 * rs.length ≤ (rs.flatMap Record.encode).length := by
  induction rs with
  | nil => exact Nat.le_refl 0
  | cons r rs ih =>
      have hsize := r.five_le_size
      rw [List.flatMap_cons, List.length_append, List.length_cons, r.length_encode]
      omega

/-! ## All calls -/

namespace Decoder

variable {bytes : Bytes} {d : Decoder}

theorem accepted_of_ofBytes (h : ofBytes bytes = .ok d) :
    Accepted bytes ∧ d = ⟨bytes.drop 6, 6, false⟩ := by
  rcases ofBytes_cases bytes with ⟨_, hshort⟩ | ⟨hlength, version, hhead, hbytes⟩
  · rw [h] at hshort
    cases hshort
  · rw [h] at hbytes
    split at hbytes
    · rename_i hversion
      cases hbytes
      exact ⟨⟨hlength, hversion ▸ hhead⟩, rfl⟩
    · cases hbytes

/-- The decoder of an accepted patch gives its records one by one, each moving the position by the
length of its written form, which is five bytes or more. Then it gives the error if there is one, and
nothing from then on, and the position stays. Read by position, the same patch gives the same without
an access that finds nothing. -/
theorem calls_exact (h : ofBytes bytes = .ok d) :
    let patch := decodePatch bytes
    let count := patch.records.length
    (∀ (n : Nat) (hn : n < count),
      d.item n = some (.ok patch.records[n]) ∧ 5 ≤ patch.records[n].encode.length ∧
        (d.after (n + 1)).position = (d.after n).position + patch.records[n].encode.length) ∧
    d.item count = patch.error.map .error ∧
    (∀ n, count < n → d.item n = none) ∧
    d.position = 6 ∧
    (∀ n, count ≤ n → (d.after n).position = (d.after count).position) ∧
    (∀ n, (d.after n).position ≤ bytes.length) ∧
    count + patch.error.toList.length ≤ (bytes.length - 6) / 5 + 1 ∧
    ∃ c, Cursor.ofBytes bytes = .ok (.ok c) ∧
      ∀ n, c.item n = .ok (d.item n) ∧
        ∃ c', c.after n = .ok c' ∧ c'.position = (d.after n).position := by
  obtain ⟨haccepted, rfl⟩ := accepted_of_ofBytes h
  obtain ⟨left, hrs, hdrop, hconsumed, hlength, hends⟩ := haccepted.exists_left
  generalize decodePatch bytes = patch at hrs hdrop hconsumed hlength hends
  obtain ⟨rs, error, consumed⟩ := patch
  dsimp only at hrs hdrop hconsumed hlength hends ⊢
  have hstart : Read rs left 6 0 ⟨bytes.drop 6, 6, false⟩ := ⟨rfl, hdrop, rfl⟩
  rw [hconsumed] at hends hlength
  refine ⟨fun n hn => ?_, hstart.item_end hrs hends, fun n hn => hstart.item_behind hrs hends hn, rfl,
    fun n hn => ?_, fun n => ?_, ?_, ?_⟩
  · obtain ⟨hitem, hmoves⟩ := hstart.item_lt hrs hn
    refine ⟨hitem, ?_, hmoves⟩
    rw [Record.length_encode]
    exact Record.five_le_size _
  · rw [hstart.position_behind hrs hends hn, hstart.position_behind hrs hends (Nat.le_refl _)]
  · exact Nat.le_trans (hstart.position_le hrs hends n) (by omega)
  · have hcount := Record.five_mul_length_le rs
    have herror : error.toList.length ≤ 1 := by cases error <;> simp
    omega
  · have hwithin : (⟨bytes, 6, false⟩ : Cursor).Within := haccepted.1
    refine ⟨⟨bytes, 6, false⟩, ?_, fun n => ⟨Cursor.item_eq hwithin n, ?_⟩⟩
    · rw [Cursor.ofBytes_eq, h]
      rfl
    · obtain ⟨c', hafter, hdecoder, -⟩ := Cursor.after_eq hwithin n
      exact ⟨c', hafter, congrArg Decoder.position hdecoder⟩

theorem calls_exact_negative :
    let d : Decoder := ⟨negativePatch.drop 6, 6, false⟩
    ofBytes negativePatch = .ok d ∧ d.item 0 = some (.ok (.deleteNode 7)) ∧
      d.item 1 = some (.error (.negativeLength 11 (-1))) ∧ ∀ n, 1 < n → d.item n = none := by
  have hpatch : decodePatch negativePatch =
      ⟨[.deleteNode 7], some (.negativeLength 11 (-1)), 11⟩ := by cbv
  have hbytes : ofBytes negativePatch = .ok ⟨negativePatch.drop 6, 6, false⟩ := rfl
  obtain ⟨hrecords, herror, hnone, -⟩ := hpatch ▸ calls_exact hbytes
  exact ⟨hbytes, (hrecords 0 Nat.one_pos).1, herror, hnone⟩

end Decoder

end RetainedUi
