import GraphProfile.Glyph

set_option autoImplicit false

namespace GraphProfile.Glyph

theorem collect_utf8Encode (cs : List Char) (done : ByteArray) (acc : List Glyph) :
    collect (done ++ cs.utf8Encode) done.size acc = acc.reverse ++ cs.map .char := by
  induction cs generalizing done acc with
  | nil =>
    rw [List.utf8Encode_nil, ByteArray.append_empty, collect, dif_neg (Nat.lt_irrefl _), List.map_nil, List.append_nil]
  | cons c cs ih =>
    have hsize : ([c].utf8Encode).size = c.utf8Size := by
      rw [List.utf8Encode_singleton, List.size_toByteArray, String.length_utf8EncodeChar]
    have hpositive := c.utf8Size_pos
    have hlt : done.size < (done ++ (c :: cs).utf8Encode).size := by
      rw [ByteArray.size_append, List.utf8Encode_cons, ByteArray.size_append, hsize]
      omega
    have hdecode : (done ++ (c :: cs).utf8Encode).utf8DecodeChar? done.size = some c := by
      rw [ByteArray.utf8DecodeChar?_eq_utf8DecodeChar?_extract, ByteArray.extract_append_eq_right rfl ByteArray.size_append,
        List.utf8DecodeChar?_utf8Encode_cons]
    rw [collect, dif_pos hlt, hdecode]
    simp only
    rw [List.utf8Encode_cons, ← ByteArray.append_assoc, ← hsize, ← ByteArray.size_append, ih, List.reverse_cons,
      List.append_assoc]
    rfl

theorem ofBytes_toUTF8 (s : String) : ofBytes s.toUTF8 = s.toList.map .char := by
  have h := collect_utf8Encode s.toList ByteArray.empty []
  rw [ByteArray.empty_append, ← String.toByteArray_ofList, String.ofList_toList] at h
  exact h

end GraphProfile.Glyph
