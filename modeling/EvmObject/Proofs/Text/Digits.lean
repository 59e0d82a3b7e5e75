import EvmObject.Proofs.Text.Lines
import EvmObject.Text.Digits

/-!
# What written numbers look like

A number in hexadecimal is a text of hexadecimal digits that reads back as the number, however it
is filled up (`hexValue_hexWide`). Whatever form a number is written in, it breaks neither a line nor a
word, so it can be told from what stands around it.
-/

namespace EvmObject.Text

/-! ## Hexadecimal digits -/

/-- The digits by their values. -/
def hexDigits : List Char :=
  ['0', '1', '2', '3', '4', '5', '6', '7', '8', '9', 'a', 'b', 'c', 'd', 'e', 'f']

/-- The number that hexadecimal digits write. -/
def hexValue (digits : List Char) : Nat :=
  digits.foldl (fun value digit => value * 16 + hexDigits.idxOf digit) 0

theorem digitChar_mem_hexDigits {digit : Nat} (hdigit : digit < 16) :
    digit.digitChar ∈ hexDigits := by
  have hall : ∀ n : Fin 16, n.val.digitChar ∈ hexDigits := by decide
  exact hall ⟨digit, hdigit⟩

theorem idxOf_digitChar {digit : Nat} (hdigit : digit < 16) :
    hexDigits.idxOf digit.digitChar = digit := by
  have hall : ∀ n : Fin 16, hexDigits.idxOf n.val.digitChar = n.val := by decide
  exact hall ⟨digit, hdigit⟩

theorem hexValue_append_singleton (digits : List Char) (digit : Char) :
    hexValue (digits ++ [digit]) = hexValue digits * 16 + hexDigits.idxOf digit := by
  rw [hexValue, List.foldl_append]
  rfl

/-- The induction is on the number, which loses its last digit. -/
theorem mem_hexDigits_of_mem_toDigits (n : Nat) : ∀ c ∈ Nat.toDigits 16 n, c ∈ hexDigits := by
  induction n using Nat.strongRecOn with
  | ind n ih =>
    rw [Nat.toDigits_eq_if (by decide)]
    split
    · intro c hc
      rw [List.mem_singleton.mp hc]
      exact digitChar_mem_hexDigits ‹n < 16›
    · intro c hc
      rcases List.mem_append.mp hc with hc | hc
      · exact ih (n / 16) (by omega) c hc
      · rw [List.mem_singleton.mp hc]
        exact digitChar_mem_hexDigits (Nat.mod_lt n (by decide))

theorem hexValue_toDigits (n : Nat) : hexValue (Nat.toDigits 16 n) = n := by
  induction n using Nat.strongRecOn with
  | ind n ih =>
    rw [Nat.toDigits_eq_if (by decide)]
    split
    · have hvalue := hexValue_append_singleton [] n.digitChar
      rw [List.nil_append, idxOf_digitChar ‹n < 16›] at hvalue
      rw [hvalue]
      simp [hexValue]
    · rw [hexValue_append_singleton, ih (n / 16) (by omega),
        idxOf_digitChar (Nat.mod_lt n (by decide))]
      omega

/-! ## Filled up -/

theorem toList_hexWide (width n : Nat) :
    (hexWide width n).toList =
      List.replicate (width - (Nat.toDigits 16 n).length) '0' ++ Nat.toDigits 16 n := by
  simp [hexWide, padLeft, hex, List.leftpad]

theorem mem_hexDigits_of_mem_hexWide {width n : Nat} {c : Char}
    (hmem : c ∈ (hexWide width n).toList) : c ∈ hexDigits := by
  rw [toList_hexWide] at hmem
  rcases List.mem_append.mp hmem with hmem | hmem
  · rw [List.eq_of_mem_replicate hmem]
    decide
  · exact mem_hexDigits_of_mem_toDigits n c hmem

/-- Zeros in front do not change what is read. -/
theorem hexValue_replicate_append (count : Nat) (digits : List Char) :
    hexValue (List.replicate count '0' ++ digits) = hexValue digits := by
  induction count with
  | zero => rfl
  | succ count ih => exact ih

/-- **A number reads back,** in whatever width it is written. -/
theorem hexValue_hexWide (width n : Nat) : hexValue (hexWide width n).toList = n := by
  rw [toList_hexWide, hexValue_replicate_append, hexValue_toDigits]

/-! ## Numbers as words -/

theorem isWord_hexWide (width n : Nat) : IsWord (hexWide width n) :=
  ⟨fun hmem => absurd (mem_hexDigits_of_mem_hexWide hmem) (by decide),
    fun hmem => absurd (mem_hexDigits_of_mem_hexWide hmem) (by decide)⟩

theorem isWord_toString (n : Nat) : IsWord (toString n) := by
  refine isWord_of_forall Char.isDigit rfl rfl fun c hmem => ?_
  rw [Nat.toString_eq_ofList_toDigits, String.toList_ofList] at hmem
  exact Nat.isDigit_of_mem_toDigits (by decide) (by decide) hmem

theorem isWord_signedDecimal (n : Int) : IsWord (signedDecimal n) := by
  unfold signedDecimal
  split
  · exact isWord_append (by decide) (isWord_toString _)
  · exact isWord_append (by decide) (isWord_toString _)

end EvmObject.Text
