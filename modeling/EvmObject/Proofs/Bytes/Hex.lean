import EvmObject.Bytes.Hex
import EvmObject.Proofs.Text.Lines

/-!
# Written bytes

Bytes written in hexadecimal read back behind a marker, in lower case (`decode_encode`) and, for a
single byte, in upper case (`decode_byteUpper`). Either form is a word.
-/

namespace EvmObject

namespace Hex

/-! ## Lower case -/

/-- The character of a digit is one byte of the UTF-8 form, and that byte is the digit. -/
theorem utf8EncodeChar_digit {value : Nat} (hsmall : value < 16) :
    String.utf8EncodeChar (Char.ofNat (digit value).toNat) = [digit value] := by
  have hall : ∀ n : Fin 16,
      String.utf8EncodeChar (Char.ofNat (digit n.val).toNat) = [digit n.val] := by decide
  exact hall ⟨value, hsmall⟩

theorem isAlphanum_digit {value : Nat} (hsmall : value < 16) :
    (Char.ofNat (digit value).toNat).isAlphanum = true := by
  have hall : ∀ n : Fin 16, (Char.ofNat (digit n.val).toNat).isAlphanum = true := by decide
  exact hall ⟨value, hsmall⟩

/-- A digit of a byte string is a half of one of its bytes. -/
theorem exists_digit_of_mem {bytes : Bytes} {code : UInt8} (hmem : code ∈ encodeDigits bytes) :
    ∃ value, value < 16 ∧ code = digit value := by
  obtain ⟨byte, _, hcode⟩ := List.mem_flatMap.mp hmem
  have hbound := byte.toNat_lt
  rcases List.mem_pair.mp hcode with rfl | rfl
  · exact ⟨_, by omega, rfl⟩
  · exact ⟨_, by omega, rfl⟩

theorem utf8_map_of_digits {codes : Bytes} (hcodes : ∀ code ∈ codes, ∃ value, value < 16 ∧
    code = digit value) : utf8 (codes.map fun code => Char.ofNat code.toNat) = codes := by
  induction codes with
  | nil => rfl
  | cons code more ih =>
    obtain ⟨value, hsmall, rfl⟩ := hcodes code List.mem_cons_self
    have hmore := ih fun other hother => hcodes other (List.mem_cons_of_mem _ hother)
    unfold utf8 at hmore ⊢
    rw [List.map_cons, List.flatMap_cons, utf8EncodeChar_digit hsmall, hmore]
    rfl

theorem length_encodeDigits (bytes : Bytes) : (encodeDigits bytes).length = 2 * bytes.length := by
  simp [encodeDigits, Nat.mul_comm]

/-- Reading passes over the marker. -/
theorem decode_marker (text : String) :
    decode ("0x" ++ text).toList =
      if (utf8 text.toList).length % 2 = 1 then .error .oddLength
      else pairsOnto (utf8 text.toList) 0 [] := by
  rw [decode, String.toList_append]
  rfl

/-- **Written bytes read back** behind the marker. -/
theorem decode_encode (bytes : Bytes) : decode ("0x" ++ encode bytes).toList = .ok bytes := by
  have hdigits : utf8 (encode bytes).toList = encodeDigits bytes := by
    rw [encode, String.toList_ofList]
    exact utf8_map_of_digits fun code hmem => exists_digit_of_mem hmem
  have heven : ¬ (encodeDigits bytes).length % 2 = 1 := by
    rw [length_encodeDigits]
    omega
  rw [decode_marker, hdigits, if_neg heven, pairsOnto_encodeDigits]
  rfl

theorem isWord_encode (bytes : Bytes) : Text.IsWord (encode bytes) := by
  refine Text.isWord_of_forall Char.isAlphanum rfl rfl fun c hmem => ?_
  rw [encode, String.toList_ofList] at hmem
  obtain ⟨code, hcode, rfl⟩ := List.mem_map.mp hmem
  obtain ⟨value, hsmall, rfl⟩ := exists_digit_of_mem hcode
  exact isAlphanum_digit hsmall

/-! ## Upper case -/

/-- The upper-case digit of a number below sixteen. -/
def upperDigit (value : Nat) : Char := value.digitChar.toUpper

/-- A byte is written as its two halves. -/
theorem toList_byteUpper (byte : UInt8) :
    (Text.byteUpper byte).toList = [upperDigit (byte.toNat / 16), upperDigit (byte.toNat % 16)] := by
  have hbound := byte.toNat_lt
  simp only [Text.byteUpper, Text.padLeft, Text.hexUpper, String.toList_ofList]
  rw [Nat.toDigits_eq_if (by decide)]
  split
  -- a single digit is filled up with a zero, which is what the high half is written as
  · have hhigh : byte.toNat / 16 = 0 := by omega
    have hlow : byte.toNat % 16 = byte.toNat := by omega
    rw [hhigh, hlow]
    rfl
  · rw [Nat.toDigits_of_lt_base (by omega : byte.toNat / 16 < 16)]
    rfl

/-- What an upper-case digit reads as, and that it is a letter or a digit. -/
theorem upperDigit_reads {value : Nat} (hsmall : value < 16) :
    (∃ code, String.utf8EncodeChar (upperDigit value) = [code] ∧ nibble? code = some value) ∧
      (upperDigit value).isAlphanum = true := by
  have hall : ∀ n : Fin 16,
      (String.utf8EncodeChar (upperDigit n.val) = [UInt8.ofNat (upperDigit n.val).toNat] ∧
        nibble? (UInt8.ofNat (upperDigit n.val).toNat) = some n.val) ∧
          (upperDigit n.val).isAlphanum = true := by decide
  obtain ⟨hreads, halnum⟩ := hall ⟨value, hsmall⟩
  exact ⟨⟨_, hreads⟩, halnum⟩

/-- **A byte in upper case reads back** behind the marker. -/
theorem decode_byteUpper (byte : UInt8) :
    decode ("0x" ++ Text.byteUpper byte).toList = .ok [byte] := by
  have hbound := byte.toNat_lt
  obtain ⟨high, hhigh, hhalf⟩ := (upperDigit_reads (by omega : byte.toNat / 16 < 16)).1
  obtain ⟨low, hlow, hother⟩ := (upperDigit_reads (by omega : byte.toNat % 16 < 16)).1
  have hdigits : utf8 (Text.byteUpper byte).toList = [high, low] := by
    rw [toList_byteUpper, utf8, List.flatMap_cons, List.flatMap_cons, hhigh, hlow]
    rfl
  have hwhole : UInt8.ofNat (byte.toNat / 16 * 16 + byte.toNat % 16) = byte := by
    rw [Nat.div_add_mod', UInt8.ofNat_toNat]
  have heven : ¬ [high, low].length % 2 = 1 := by simp
  rw [decode_marker, hdigits, if_neg heven]
  simp only [pairsOnto, hhalf, hother, hwhole, List.reverse_singleton]

theorem isWord_byteUpper (byte : UInt8) : Text.IsWord (Text.byteUpper byte) := by
  have hbound := byte.toNat_lt
  refine Text.isWord_of_forall Char.isAlphanum rfl rfl fun c hmem => ?_
  rw [toList_byteUpper] at hmem
  rcases List.mem_pair.mp hmem with rfl | rfl
  · exact (upperDigit_reads (by omega)).2
  · exact (upperDigit_reads (by omega)).2

end Hex

end EvmObject
