import ScriptTree.Proofs.Scan
/-! The bytes of a text. Each character has its own, so a text is cut between bytes as it is cut
between characters. -/
namespace ScriptTree.Text

def bytes (text : String) : List UInt8 := text.toByteArray.data.toList

def encoded (cs : List Char) : List UInt8 := cs.flatMap String.utf8EncodeChar

theorem bytesEncoded (text : String) : bytes text = encoded text.toList := by
  rw [bytes, ← String.utf8Encode_toList, List.utf8Encode, List.toList_data_toByteArray]
  rfl

theorem encodedAppend (a b : List Char) : encoded (a ++ b) = encoded a ++ encoded b :=
  List.flatMap_append

theorem encodedOne (c : Char) : encoded [c] = String.utf8EncodeChar c := by
  rw [encoded, List.flatMap_cons, List.flatMap_nil, List.append_nil]

theorem encodedSize (cs : List Char) : (encoded cs).length = width cs := by
  induction cs with
  | nil => rfl
  | cons c cs ih =>
    have one : width [c] = c.utf8Size := by simp [width]
    rw [encoded, List.flatMap_cons, List.length_append, String.length_utf8EncodeChar, widthCons, one]
    exact congrArg _ ih

theorem encodedByte {c : Char} {byte : UInt8} (mem : byte ∈ String.utf8EncodeChar c) :
    byte.toNat = c.toNat ∨ 128 ≤ byte.toNat := by
  have number : c.val.toNat = c.toNat := rfl
  unfold String.utf8EncodeChar at mem
  simp only [number] at mem
  -- In a longer encoding the highest bit of each byte is set.
  have lead (n m : Nat) (high : 128 ≤ m) (low : n + m < 256) :
      128 ≤ (UInt8.ofNat (n + m)).toNat := by
    rw [UInt8.toNat_ofNat']
    omega
  split at mem
  · cases List.mem_singleton.mp mem
    rw [UInt8.toNat_ofNat']
    omega
  · right
    split at mem
    · simp only [List.mem_cons, List.not_mem_nil, or_false] at mem
      rcases mem with rfl | rfl <;> exact lead _ _ (by omega) (by omega)
    · split at mem
      · simp only [List.mem_cons, List.not_mem_nil, or_false] at mem
        rcases mem with rfl | rfl | rfl <;> exact lead _ _ (by omega) (by omega)
      · simp only [List.mem_cons, List.not_mem_nil, or_false] at mem
        rcases mem with rfl | rfl | rfl | rfl <;> exact lead _ _ (by omega) (by omega)

def SameUpTo (pos : Nat) (text other : String) : Prop :=
  ∀ n ≤ pos, (bytes other)[n]? = (bytes text)[n]?

theorem frontSame {front behind : List Char} {text other : String} {pos : Nat}
    (whole : text.toList = front ++ behind) (size : width front = pos + 1)
    (same : SameUpTo pos text other) : ∃ behind', other.toList = front ++ behind' := by
  have first : (bytes other).take (pos + 1) = encoded front := by
    refine List.ext_getElem? fun n => ?_
    have count := encodedSize front
    rw [List.getElem?_take]
    split
    · rename_i inside
      rw [same n (by omega), bytesEncoded, whole, encodedAppend,
        List.getElem?_append_left (by omega)]
    · rename_i outside
      exact (List.getElem?_eq_none (by omega)).symm
  have parts := List.take_append_drop (pos + 1) (bytes other)
  rw [first] at parts
  have joined : front.utf8Encode ++ ((bytes other).drop (pos + 1)).toByteArray =
      other.toList.utf8Encode := by
    rw [List.utf8Encode, ← List.toByteArray_append, List.utf8Encode]
    exact congrArg List.toByteArray (parts.trans (bytesEncoded other))
  obtain ⟨behind', split⟩ := List.isPrefix_of_utf8Encode_append_eq_utf8Encode _ joined
  exact ⟨behind', split.symm⟩

end ScriptTree.Text
