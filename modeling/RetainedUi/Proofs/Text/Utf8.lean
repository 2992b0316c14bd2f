import RetainedUi.Text.Utf8

/-!
# Text to bytes and back

The bytes of a text are read as that text: each character is found at the front of what is left, and so no
replacement is made.
-/

namespace RetainedUi.Utf8

theorem encode_eq (text : String) : encode text = text.toList.flatMap String.utf8EncodeChar := by
  have hbytes : text.toByteArray = (text.toList.flatMap String.utf8EncodeChar).toByteArray :=
    String.utf8Encode_toList.symm
  rw [encode, String.toUTF8_eq_toByteArray, hbytes, List.data_toByteArray]

/-- No character is longer than the bytes that are looked at. -/
theorem firstChar?_append (c : Char) (rest : Bytes) :
    firstChar? (String.utf8EncodeChar c ++ rest) = some c := by
  have hlength : (String.utf8EncodeChar c).length ≤ 4 := by
    rw [String.length_utf8EncodeChar]
    exact c.utf8Size_le_four
  rw [firstChar?, List.take_append, List.take_of_length_le hlength, List.toByteArray_append]
  exact ByteArray.utf8DecodeChar?_utf8EncodeChar_append

theorem decodeChars_append (c : Char) (rest : Bytes) :
    decodeChars (String.utf8EncodeChar c ++ rest) = c :: decodeChars rest := by
  have hfirst := firstChar?_append c rest
  have hlength := String.length_utf8EncodeChar c
  obtain ⟨a, tail, hc⟩ := List.exists_cons_of_ne_nil (String.utf8EncodeChar_ne_nil (c := c))
  rw [hc, List.length_cons] at hlength
  rw [hc, List.cons_append] at hfirst ⊢
  have htail : c.utf8Size - 1 = tail.length := by omega
  rw [decodeChars, hfirst]
  simp only [htail, List.drop_left]

theorem decodeChars_flatMap (l : List Char) : decodeChars (l.flatMap String.utf8EncodeChar) = l := by
  induction l with
  | nil => rw [List.flatMap_nil, decodeChars]
  | cons c l ih => rw [List.flatMap_cons, decodeChars_append, ih]

theorem decodeLossy_encode (text : String) : decodeLossy (encode text) = text := by
  rw [decodeLossy, encode_eq, decodeChars_flatMap, String.ofList_toList]

end RetainedUi.Utf8
