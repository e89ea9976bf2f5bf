import ScopeGraph.Store.Sink

/-!
# The bytes of a text

The bytes of a text are those of its characters, one after another.  They give the text back, and
the byte of a line break comes from line breaks only.
-/
set_option autoImplicit false

namespace ScopeGraph

theorem toList_loop (bytes : ByteArray) (i : Nat) (read : List UInt8) :
    ByteArray.toList.loop bytes i read = read.reverse ++ bytes.data.toList.drop i := by
  fun_induction ByteArray.toList.loop bytes i read with
  | case1 i read within ih =>
      have bound : i < bytes.data.toList.length := within
      have byte : bytes.get! i = bytes.data.toList[i] := by
        simp [ByteArray.get!, getElem!_pos bytes.data i within]
      rw [ih, List.drop_eq_getElem_cons bound, byte]
      simp
  | case2 i read beyond =>
      have rest : bytes.data.toList.drop i = [] := List.drop_eq_nil_iff.mpr (Nat.not_lt.mp beyond)
      rw [rest, List.append_nil]

theorem utf8Bytes_eq (text : String) :
    utf8Bytes text = text.toList.flatMap String.utf8EncodeChar := by
  have bytes : text.toUTF8 = (text.toList.flatMap String.utf8EncodeChar).toByteArray := by
    conv => lhs; rw [← String.ofList_toList (s := text)]
    rfl
  rw [utf8Bytes, bytes, ByteArray.toList, toList_loop, List.data_toByteArray]
  simp

theorem utf8Bytes_inj {first second : String} (same : utf8Bytes first = utf8Bytes second) :
    first = second := by
  rw [utf8Bytes_eq, utf8Bytes_eq] at same
  have arrays := congrArg List.toByteArray same
  rw [← String.ofList_toList (s := first), ← String.ofList_toList (s := second)]
  exact String.toByteArray_inj.mp arrays

theorem ofNat_ne_lineBreak {n : Nat} (high : 128 ≤ n) (byte : n < 256) : 10 ≠ UInt8.ofNat n := by
  intro same
  have value := congrArg UInt8.toNat same
  rw [UInt8.toNat_ofNat_of_lt' byte] at value
  have ten : (10 : UInt8).toNat = 10 := rfl
  omega

theorem lineBreak_notMem_utf8EncodeChar {c : Char} (other : c ≠ '\n') :
    10 ∉ String.utf8EncodeChar c := by
  intro member
  simp only [String.utf8EncodeChar] at member
  split at member
  · next plain =>
      have byte : c.val.toNat < UInt8.size := Nat.lt_of_le_of_lt plain (by decide)
      have value := congrArg UInt8.toNat (List.mem_singleton.mp member)
      rw [UInt8.toNat_ofNat_of_lt' byte] at value
      exact other (Char.toNat_inj.mp value.symm)
  -- Every byte of a longer character has its highest bit set.
  split at member
  · simp only [List.mem_cons, List.not_mem_nil, or_false] at member
    rcases member with same | same <;> exact ofNat_ne_lineBreak (by omega) (by omega) same
  split at member
  · simp only [List.mem_cons, List.not_mem_nil, or_false] at member
    rcases member with same | same | same <;> exact ofNat_ne_lineBreak (by omega) (by omega) same
  · simp only [List.mem_cons, List.not_mem_nil, or_false] at member
    rcases member with same | same | same | same <;>
      exact ofNat_ne_lineBreak (by omega) (by omega) same

theorem lineBreak_notMem_utf8Bytes {text : String} (none : '\n' ∉ text.toList) :
    10 ∉ utf8Bytes text := by
  rw [utf8Bytes_eq]
  intro member
  obtain ⟨c, inText, inBytes⟩ := List.mem_flatMap.mp member
  exact lineBreak_notMem_utf8EncodeChar (fun same => none (same ▸ inText)) inBytes

end ScopeGraph
