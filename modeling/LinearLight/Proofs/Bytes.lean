import LinearLight.Bytes

/-!
# The bytes of a text

The bytes of a text are those of its characters, one after the other.

## Main statements

- `bytesOf_eq_flatMap`: the bytes, character by character
- `bytesOf_append`: the bytes of two texts
- `bytesOf_injective`: a text is determined by its bytes
-/

namespace LinearLight

theorem toList_loop_eq (bytes : ByteArray) (i : Nat) (taken : List UInt8) :
    ByteArray.toList.loop bytes i taken = taken.reverse ++ bytes.data.toList.drop i := by
  induction hleft : bytes.size - i generalizing i taken with
  | zero =>
    have hi : bytes.size ≤ i := Nat.le_of_sub_eq_zero hleft
    rw [ByteArray.toList.loop, if_neg (Nat.not_lt_of_le hi), List.drop_eq_nil_of_le (by simpa),
      List.append_nil]
  | succ n ih =>
    have hi : i < bytes.size := Nat.lt_of_sub_eq_succ hleft
    have hget : bytes.get! i = bytes.data[i] := getElem!_pos bytes.data i hi
    rw [ByteArray.toList.loop, if_pos hi, ih (i + 1) _ (by omega), hget, List.reverse_cons,
      List.append_assoc, List.singleton_append, ← Array.getElem_toList hi,
      ← List.drop_eq_getElem_cons]

theorem toList_eq_toList_data (bytes : ByteArray) : bytes.toList = bytes.data.toList :=
  toList_loop_eq bytes 0 []

/-- The bytes of a text are the bytes of its characters. -/
theorem bytesOf_eq_flatMap (text : String) :
    bytesOf text = text.toList.flatMap String.utf8EncodeChar := by
  rw [bytesOf, toList_eq_toList_data, String.toUTF8, ← String.utf8Encode_toList, List.utf8Encode,
    List.toList_data_toByteArray]

theorem bytesOf_append (first second : String) :
    bytesOf (first ++ second) = bytesOf first ++ bytesOf second := by
  rw [bytesOf_eq_flatMap, bytesOf_eq_flatMap, bytesOf_eq_flatMap, String.toList_append,
    List.flatMap_append]

theorem bytesOf_injective {first second : String} (h : bytesOf first = bytesOf second) :
    first = second := by
  rw [bytesOf, bytesOf, toList_eq_toList_data, toList_eq_toList_data] at h
  exact String.toByteArray_inj.mp (ByteArray.ext (Array.toList_inj.mp h))

end LinearLight
