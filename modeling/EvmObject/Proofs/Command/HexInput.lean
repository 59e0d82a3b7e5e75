import EvmObject.Command.Answer
import EvmObject.Proofs.Bytes.Hex
import EvmObject.Proofs.Sequencing

/-!
# Which inputs are hexadecimal

What a person types is read in two layers. The first drops blanks at both ends and a marker `0x`, and
hands over to a reader of digits, which drops a marker of its own. `Spells` says what the digits of
bytes are without any reader, and `IsTyped` what may stand around them. One of the
`optionalMarkers` is asked for; the two layers together take `furtherMarkers` too.

* `decode_eq_ok_iff_spells`: the reader of digits. It works on the UTF-8 form, so a character that is
  not ASCII has to be kept from passing for digits (`exists_cons_of_utf8_eq_cons`).
* `spells_dropMarkers_iff` and `spells_trimBlanks_iff`: a marker and blanks around digits are found
  again, since no digit is a blank or the letter of a marker.
* `readInput_exact`: the inputs that are accepted, against those with one optional `0x`.
-/

namespace EvmObject

/-! ## Blanks -/

namespace Text

/-- Every character is blank. -/
def IsBlanks (text : List Char) : Prop := ∀ c ∈ text, isBlank c = true

instance (text : List Char) : Decidable (IsBlanks text) :=
  decidable_of_iff (text.all isBlank = true) List.all_eq_true

/-- No character is blank. -/
def IsSolid (text : List Char) : Prop := ∀ c ∈ text, isBlank c = false

theorem IsSolid.dropWhile_eq {text : List Char} (hsolid : IsSolid text) :
    text.dropWhile isBlank = text := by
  cases text with
  | nil => rfl
  | cons c more =>
    refine List.dropWhile_cons_of_neg ?_
    rw [hsolid c List.mem_cons_self]
    exact Bool.false_ne_true

/-- Blanks around a solid text are dropped, and nothing else. -/
theorem trimBlanks_of_isSolid {before text after : List Char} (hbefore : IsBlanks before)
    (hsolid : IsSolid text) (hafter : IsBlanks after) :
    trimBlanks (before ++ text ++ after) = text := by
  have hreverse : ∀ c ∈ after.reverse, isBlank c = true := by simpa [IsBlanks] using hafter
  have hsolid' : IsSolid text.reverse := by simpa [IsSolid] using hsolid
  unfold trimBlanks
  rw [List.append_assoc, List.dropWhile_append_of_pos hbefore]
  cases text with
  | nil =>
    have hnothing : (after ++ []).dropWhile isBlank = [].dropWhile isBlank :=
      List.dropWhile_append_of_pos hafter
    rw [List.append_nil] at hnothing
    rw [List.nil_append, hnothing]
    rfl
  | cons c more =>
    have hfirst : ¬ isBlank c = true := by simp [hsolid c List.mem_cons_self]
    rw [List.cons_append, List.dropWhile_cons_of_neg hfirst, ← List.cons_append,
      List.reverse_append, List.dropWhile_append_of_pos hreverse, hsolid'.dropWhile_eq,
      List.reverse_reverse]

/-- What is dropped at both ends is blank. -/
theorem exists_trimBlanks (text : List Char) :
    ∃ before after, text = before ++ trimBlanks text ++ after ∧ IsBlanks before ∧
      IsBlanks after := by
  have hall : ∀ part : List Char, IsBlanks (part.takeWhile isBlank) :=
    fun part c hmem => List.all_eq_true.mp List.all_takeWhile c hmem
  refine ⟨text.takeWhile isBlank,
    ((text.dropWhile isBlank).reverse.takeWhile isBlank).reverse, ?_, hall text, ?_⟩
  · rw [trimBlanks, List.append_assoc, ← List.reverse_append, List.takeWhile_append_dropWhile,
      List.reverse_reverse, List.takeWhile_append_dropWhile]
  · intro c hmem
    exact hall _ c (List.mem_reverse.mp hmem)

end Text

namespace Hex

open Text (IsBlanks IsSolid trimBlanks)

/-! ## The statement -/

/-- The character writes a number below sixteen, in lower or in upper case. -/
def Writes (c : Char) (value : Nat) : Prop :=
  value < 16 ∧ (c = value.digitChar ∨ c = value.digitChar.toUpper)

instance (c : Char) (value : Nat) : Decidable (Writes c value) := inferInstanceAs (Decidable (_ ∧ _))

/-- The digits of bytes, two for each, the high half first. -/
inductive Spells : List Char → Bytes → Prop where
  | nil : Spells [] []
  | cons (high low : Char) (digits : List Char) (byte : UInt8) (bytes : Bytes)
      (hhigh : Writes high (byte.toNat / 16)) (hlow : Writes low (byte.toNat % 16))
      (hrest : Spells digits bytes) : Spells (high :: low :: digits) (byte :: bytes)

/-- The digits of bytes behind a marker, with blanks around them. -/
def IsTyped (marker text : List Char) (bytes : Bytes) : Prop :=
  ∃ before digits after, text = before ++ (marker ++ digits) ++ after ∧ IsBlanks before ∧
    IsBlanks after ∧ Spells digits bytes

/-- What may stand in front of the digits: nothing, or one `0x`. -/
def optionalMarkers : List (List Char) := [[], ['0', 'x']]

/-- What is taken for a marker besides. -/
def furtherMarkers : List (List Char) := [['0', 'X'], ['0', 'x', '0', 'x'], ['0', 'x', '0', 'X']]

/-! ## Digits -/

theorem Spells.length_eq {digits : List Char} {bytes : Bytes} (hspells : Spells digits bytes) :
    digits.length = 2 * bytes.length := by
  induction hspells with
  | nil => rfl
  | cons _ _ _ _ _ _ _ _ ih =>
    simp only [List.length_cons, ih]
    omega

/-- A digit is one byte of the UTF-8 form, which reads as its value. It is not blank, and it is not
the letter of a marker. -/
theorem Writes.reads {c : Char} {value : Nat} (hwrites : Writes c value) :
    (∃ code, String.utf8EncodeChar c = [code] ∧ nibble? code = some value) ∧
      Text.isBlank c = false ∧ c ≠ 'x' ∧ c ≠ 'X' := by
  have hall : ∀ (n : Fin 16) (isUpper : Bool),
      let c := if isUpper then n.val.digitChar.toUpper else n.val.digitChar
      (String.utf8EncodeChar c = [UInt8.ofNat c.toNat] ∧
        nibble? (UInt8.ofNat c.toNat) = some n.val) ∧
          Text.isBlank c = false ∧ c ≠ 'x' ∧ c ≠ 'X' := by decide +kernel
  obtain ⟨hsmall, hdigit⟩ := hwrites
  have hreads : (String.utf8EncodeChar c = [UInt8.ofNat c.toNat] ∧
      nibble? (UInt8.ofNat c.toNat) = some value) ∧
        Text.isBlank c = false ∧ c ≠ 'x' ∧ c ≠ 'X' := by
    rcases hdigit with rfl | rfl
    · exact hall ⟨value, hsmall⟩ false
    · exact hall ⟨value, hsmall⟩ true
  obtain ⟨hcode, hothers⟩ := hreads
  exact ⟨⟨_, hcode⟩, hothers⟩

/-- A byte that reads as a digit is the code of one. -/
theorem writes_of_nibble? {code : UInt8} {value : Nat} (hreads : nibble? code = some value) :
    code.toNat < 0x80 ∧ Writes (Char.ofNat code.toNat) value := by
  have hall : ∀ n : Fin 256, ∀ value ∈ (nibble? (UInt8.ofNat n.val)).toList,
      n.val < 0x80 ∧ Writes (Char.ofNat n.val) value := by decide +kernel
  refine hall ⟨code.toNat, code.toNat_lt⟩ value ?_
  rw [UInt8.ofNat_toNat, hreads]
  exact List.mem_singleton.mpr rfl

/-- The halves of a byte make it up again. -/
theorem ofNat_halves (byte : UInt8) :
    UInt8.ofNat (byte.toNat / 16 * 16 + byte.toNat % 16) = byte := by
  rw [Nat.div_add_mod', UInt8.ofNat_toNat]

theorem halves_ofNat {high low : Nat} (hhigh : high < 16) (hlow : low < 16) :
    (UInt8.ofNat (high * 16 + low)).toNat / 16 = high ∧
      (UInt8.ofNat (high * 16 + low)).toNat % 16 = low := by
  rw [UInt8.toNat_ofNat']
  omega

/-! ## The UTF-8 form -/

/-- **A character of ASCII is one byte,** and all others start with a byte above those of ASCII. -/
theorem utf8EncodeChar_cases (c : Char) :
    (∃ code, String.utf8EncodeChar c = [code] ∧ c = Char.ofNat code.toNat) ∨
      ∃ code more, String.utf8EncodeChar c = code :: more ∧ 0x80 ≤ code.toNat := by
  have hall : ∀ n : Fin 256, 0x80 ≤ (UInt8.ofNat n.val &&& 0x1f ||| 0xc0).toNat ∧
      0x80 ≤ (UInt8.ofNat n.val &&& 0x0f ||| 0xe0).toNat ∧
      0x80 ≤ (UInt8.ofNat n.val &&& 0x07 ||| 0xf0).toNat := by decide +kernel
  have hlead : ∀ byte : UInt8, 0x80 ≤ (byte &&& 0x1f ||| 0xc0).toNat ∧
      0x80 ≤ (byte &&& 0x0f ||| 0xe0).toNat ∧ 0x80 ≤ (byte &&& 0x07 ||| 0xf0).toNat := by
    intro byte
    have hbyte := hall ⟨byte.toNat, byte.toNat_lt⟩
    rwa [UInt8.ofNat_toNat] at hbyte
  obtain hone | htwo | hthree | hfour := c.utf8Size_eq
  · refine .inl ⟨_, String.utf8EncodeChar_eq_singleton hone, ?_⟩
    have hsmall := UInt32.le_iff_toNat_le.mp (Char.utf8Size_eq_one_iff.mp hone)
    have hvalue : c.val.toUInt8.toNat = c.toNat := by
      rw [UInt32.toNat_toUInt8]
      exact Nat.mod_eq_of_lt (Nat.lt_of_le_of_lt hsmall (by decide))
    rw [hvalue, Char.ofNat_toNat]
  · exact .inr ⟨_, _, String.utf8EncodeChar_eq_cons_cons htwo, (hlead _).1⟩
  · exact .inr ⟨_, _, String.utf8EncodeChar_eq_cons_cons_cons hthree, (hlead _).2.1⟩
  · exact .inr ⟨_, _, String.utf8EncodeChar_eq_cons_cons_cons_cons hfour, (hlead _).2.2⟩

theorem exists_cons_of_utf8_eq_cons {text : List Char} {code : UInt8} {rest : Bytes}
    (hutf8 : utf8 text = code :: rest) (hascii : code.toNat < 0x80) :
    ∃ more, text = Char.ofNat code.toNat :: more ∧ utf8 more = rest := by
  cases text with
  | nil => cases hutf8
  | cons c more =>
    rw [utf8, List.flatMap_cons] at hutf8
    rcases utf8EncodeChar_cases c with ⟨first, hcode, hc⟩ | ⟨first, others, hcode, hhigh⟩
    · rw [hcode] at hutf8
      obtain ⟨rfl, hrest⟩ := List.cons.inj hutf8
      exact ⟨more, congrArg (· :: more) hc, hrest⟩
    · rw [hcode] at hutf8
      obtain ⟨rfl, _⟩ := List.cons.inj hutf8
      exact absurd hascii (Nat.not_lt_of_le hhigh)

/-- A digit in the UTF-8 form is a digit of the text. -/
theorem exists_digit_of_utf8_eq_cons {text : List Char} {code : UInt8} {rest : Bytes} {value : Nat}
    (hutf8 : utf8 text = code :: rest) (hreads : nibble? code = some value) :
    ∃ c more, text = c :: more ∧ Writes c value ∧ utf8 more = rest := by
  obtain ⟨hascii, hwrites⟩ := writes_of_nibble? hreads
  obtain ⟨more, htext, hmore⟩ := exists_cons_of_utf8_eq_cons hutf8 hascii
  exact ⟨_, more, htext, hwrites, hmore⟩

/-! ## The reader of digits -/

/-- What reading pairs asks for, one pair at a time. -/
theorem pairsOnto_eq_ok_iff {codes : Bytes} {position : Nat} {done result : Bytes} :
    pairsOnto codes position done = .ok result ↔
      (codes = [] ∧ result = done.reverse) ∨
      ∃ hi lo rest high low, codes = hi :: lo :: rest ∧ nibble? hi = some high ∧
        nibble? lo = some low ∧
        pairsOnto rest (position + 2) (UInt8.ofNat (high * 16 + low) :: done) = .ok result := by
  match codes with
  | [] => simp [pairsOnto, eq_comm]
  | [_] => simp [pairsOnto]
  | hi :: lo :: rest =>
    cases hhigh : nibble? hi with
    | none => simp [pairsOnto, hhigh]
    | some high =>
      cases hlow : nibble? lo with
      | none => simp [pairsOnto, hhigh, hlow]
      | some low => simp [pairsOnto, hhigh, hlow]

/-- **Digits are read to the bytes that they spell.** The induction is on the bytes. -/
theorem Spells.pairsOnto_eq {digits : List Char} {bytes : Bytes} (hspells : Spells digits bytes)
    (position : Nat) (done : Bytes) :
    pairsOnto (utf8 digits) position done = .ok (done.reverse ++ bytes) := by
  induction hspells generalizing position done with
  | nil => simp [utf8, pairsOnto]
  | cons high low digits byte bytes hhigh hlow _ ih =>
    obtain ⟨⟨hi, hhi, hreadsHi⟩, _⟩ := hhigh.reads
    obtain ⟨⟨lo, hlo, hreadsLo⟩, _⟩ := hlow.reads
    have hutf8 : utf8 (high :: low :: digits) = hi :: lo :: utf8 digits := by
      rw [utf8, List.flatMap_cons, List.flatMap_cons, hhi, hlo]
      rfl
    have hrest := ih (position + 2) (byte :: done)
    rw [List.reverse_cons, List.append_assoc, List.singleton_append] at hrest
    refine pairsOnto_eq_ok_iff.mpr (.inr ⟨hi, lo, _, _, _, hutf8, hreadsHi, hreadsLo, ?_⟩)
    rw [ofNat_halves, hrest]

theorem Spells.length_utf8 {digits : List Char} {bytes : Bytes} (hspells : Spells digits bytes) :
    (utf8 digits).length = 2 * bytes.length := by
  induction hspells with
  | nil => rfl
  | cons high low digits _ _ hhigh hlow _ ih =>
    obtain ⟨⟨hi, hhi, _⟩, _⟩ := hhigh.reads
    obtain ⟨⟨lo, hlo, _⟩, _⟩ := hlow.reads
    unfold utf8 at ih ⊢
    rw [List.flatMap_cons, List.flatMap_cons, hhi, hlo]
    simp only [List.length_append, List.length_cons, List.length_nil, ih]
    omega

/-- **What is read is spelled by the text.** The recursion is on the text, two characters at a time:
each digit of the UTF-8 form is one of them. -/
theorem spells_of_pairsOnto (text : List Char) {position : Nat} {done result : Bytes}
    (hread : pairsOnto (utf8 text) position done = .ok result) :
    ∃ bytes, result = done.reverse ++ bytes ∧ Spells text bytes := by
  rcases pairsOnto_eq_ok_iff.mp hread with
    ⟨hempty, rfl⟩ | ⟨hi, lo, rest, high, low, hutf8, hhi, hlo, hmore⟩
  · refine ⟨[], (List.append_nil _).symm, ?_⟩
    cases text with
    | nil => exact .nil
    | cons c more =>
      rw [utf8, List.flatMap_cons] at hempty
      rcases utf8EncodeChar_cases c with ⟨_, hcode, _⟩ | ⟨_, _, hcode, _⟩
      · rw [hcode] at hempty
        cases hempty
      · rw [hcode] at hempty
        cases hempty
  · obtain ⟨first, behind, rfl, hfirst, hbehind⟩ := exists_digit_of_utf8_eq_cons hutf8 hhi
    obtain ⟨second, digits, rfl, hsecond, rfl⟩ := exists_digit_of_utf8_eq_cons hbehind hlo
    obtain ⟨bytes, rfl, hspells⟩ := spells_of_pairsOnto digits hmore
    obtain ⟨hhigh, hlow⟩ := halves_ofNat hfirst.1 hsecond.1
    refine ⟨UInt8.ofNat (high * 16 + low) :: bytes, by simp, ?_⟩
    exact .cons first second digits _ bytes (by rwa [hhigh]) (by rwa [hlow]) hspells
termination_by text.length

/-! ## Markers -/

/-- Digits do not start like a marker. -/
theorem Spells.ne_marker {c d : Char} {more : List Char} {bytes : Bytes}
    (hspells : Spells (c :: d :: more) bytes) : d ≠ 'x' ∧ d ≠ 'X' := by
  cases hspells with
  | cons _ _ _ _ _ _ hlow _ => exact hlow.reads.2.2

theorem Spells.isSolid {digits : List Char} {bytes : Bytes} (hspells : Spells digits bytes) :
    IsSolid digits := by
  induction hspells with
  | nil => exact fun c hmem => nomatch hmem
  | cons high low digits _ _ hhigh hlow _ ih =>
    intro c hmem
    rcases List.mem_cons.mp hmem with rfl | hmem
    · exact hhigh.reads.2.1
    rcases List.mem_cons.mp hmem with rfl | hmem
    · exact hlow.reads.2.1
    · exact ih c hmem

/-- Drops one marker, its letter in either case. -/
def dropEitherMarker : List Char → List Char
  | '0' :: 'x' :: rest => rest
  | '0' :: 'X' :: rest => rest
  | text => text

theorem dropMarker_utf8 (text : List Char) :
    dropMarker (utf8 text) = utf8 (dropEitherMarker text) := by
  unfold dropMarker
  split
  · next rest hutf8 =>
    obtain ⟨behind, rfl, hbehind⟩ := exists_cons_of_utf8_eq_cons hutf8 (by decide)
    obtain ⟨more, rfl, rfl⟩ := exists_cons_of_utf8_eq_cons hbehind (by decide)
    rfl
  · next rest hutf8 =>
    obtain ⟨behind, rfl, hbehind⟩ := exists_cons_of_utf8_eq_cons hutf8 (by decide)
    obtain ⟨more, rfl, rfl⟩ := exists_cons_of_utf8_eq_cons hbehind (by decide)
    rfl
  · next hlower hupper =>
    unfold dropEitherMarker
    split
    · next rest => exact absurd rfl (hlower (utf8 rest))
    · next rest => exact absurd rfl (hupper (utf8 rest))
    · rfl

/-- **The reader of digits takes digits behind one marker or none.** An odd number of digits does
not have to be looked for: it has no reading. -/
theorem decode_eq_ok_iff_spells {text : List Char} {bytes : Bytes} :
    decode text = .ok bytes ↔ Spells (dropEitherMarker text) bytes := by
  unfold decode decodeDigits
  simp only [dropMarker_utf8]
  constructor
  · intro hread
    split at hread
    · cases hread
    · obtain ⟨_, rfl, hspells⟩ := spells_of_pairsOnto _ hread
      exact hspells
  · intro hspells
    have hread := hspells.pairsOnto_eq 0 []
    have heven : ¬ (utf8 (dropEitherMarker text)).length % 2 = 1 := by
      rw [hspells.length_utf8]
      omega
    rw [if_neg heven, hread]
    rfl

/-- Digits have no marker that could be dropped. -/
theorem Spells.dropMarkers_eq {digits : List Char} {bytes : Bytes} (hspells : Spells digits bytes) :
    dropLowerMarker digits = digits ∧ dropEitherMarker digits = digits := by
  constructor
  · unfold dropLowerMarker
    split
    · exact absurd rfl hspells.ne_marker.1
    · rfl
  · unfold dropEitherMarker
    split
    · exact absurd rfl hspells.ne_marker.1
    · exact absurd rfl hspells.ne_marker.2
    · rfl

/-- One marker that may be missing. -/
theorem spells_dropLowerMarker_iff {text : List Char} {bytes : Bytes} :
    Spells (dropLowerMarker text) bytes ↔
      ∃ marker ∈ optionalMarkers, ∃ digits, text = marker ++ digits ∧ Spells digits bytes := by
  constructor
  · intro hspells
    unfold dropLowerMarker at hspells
    split at hspells
    · next digits => exact ⟨['0', 'x'], by decide, digits, rfl, hspells⟩
    · exact ⟨[], by decide, text, rfl, hspells⟩
  · rintro ⟨marker, hmarker, digits, rfl, hspells⟩
    rcases List.mem_pair.mp hmarker with rfl | rfl
    · rw [List.nil_append, hspells.dropMarkers_eq.1]
      exact hspells
    · exact hspells

/-- **Both layers together:** the second takes a marker behind that of the first, or the one that the
first left alone. -/
theorem spells_dropMarkers_iff {text : List Char} {bytes : Bytes} :
    Spells (dropEitherMarker (dropLowerMarker text)) bytes ↔
      ∃ marker ∈ optionalMarkers ++ furtherMarkers, ∃ digits, text = marker ++ digits ∧
        Spells digits bytes := by
  constructor
  · intro hspells
    unfold dropLowerMarker at hspells
    split at hspells
    · unfold dropEitherMarker at hspells
      split at hspells
      · next digits => exact ⟨['0', 'x', '0', 'x'], by decide, digits, rfl, hspells⟩
      · next digits => exact ⟨['0', 'x', '0', 'X'], by decide, digits, rfl, hspells⟩
      · exact ⟨['0', 'x'], by decide, _, rfl, hspells⟩
    · unfold dropEitherMarker at hspells
      split at hspells
      · next digits _ => exact ⟨['0', 'x'], by decide, digits, rfl, hspells⟩
      · next digits _ => exact ⟨['0', 'X'], by decide, digits, rfl, hspells⟩
      · exact ⟨[], by decide, text, rfl, hspells⟩
  · rintro ⟨marker, hmarker, digits, rfl, hspells⟩
    obtain ⟨hlower, heither⟩ := hspells.dropMarkers_eq
    rcases List.mem_append.mp hmarker with hoptional | hfurther
    · rcases List.mem_pair.mp hoptional with rfl | rfl
      · rw [List.nil_append, hlower, heither]
        exact hspells
      · show Spells (dropEitherMarker digits) bytes
        rw [heither]
        exact hspells
    · simp only [furtherMarkers, List.mem_cons, List.not_mem_nil, or_false] at hfurther
      rcases hfurther with rfl | rfl | rfl
      · exact hspells
      · exact hspells
      · exact hspells

/-- A marker has no blanks either, so blanks around it and its digits are found again. -/
theorem spells_trimBlanks_iff {marker text : List Char} {bytes : Bytes}
    (hmarker : marker ∈ optionalMarkers ++ furtherMarkers) :
    (∃ digits, trimBlanks text = marker ++ digits ∧ Spells digits bytes) ↔
      IsTyped marker text bytes := by
  have hsolid : IsSolid marker := by
    have hall : ∀ marker ∈ optionalMarkers ++ furtherMarkers,
        (marker.all fun c => !Text.isBlank c) = true := by decide
    intro c hmem
    have hsolid := List.all_eq_true.mp (hall marker hmarker) c hmem
    exact (Bool.not_eq_true' _).mp hsolid
  constructor
  · rintro ⟨digits, htext, hspells⟩
    obtain ⟨before, after, heq, hbefore, hafter⟩ := Text.exists_trimBlanks text
    exact ⟨before, digits, after, htext ▸ heq, hbefore, hafter, hspells⟩
  · rintro ⟨before, digits, after, rfl, hbefore, hafter, hspells⟩
    refine ⟨digits, Text.trimBlanks_of_isSolid hbefore (fun c hmem => ?_) hafter, hspells⟩
    rcases List.mem_append.mp hmem with hmem | hmem
    · exact hsolid c hmem
    · exact hspells.isSolid c hmem

/-! ## Written bytes -/

/-- **Either written form spells the bytes.** -/
theorem spells_encode (bytes : Bytes) :
    Spells (encode bytes).toList bytes ∧ Spells ((encode bytes).toList.map Char.toUpper) bytes := by
  have hdigit : ∀ n : Fin 16, Char.ofNat (digit n.val).toNat = n.val.digitChar := by decide
  have hwrites : ∀ value, value < 16 → Writes (Char.ofNat (digit value).toNat) value ∧
      Writes (Char.ofNat (digit value).toNat).toUpper value := by
    intro value hsmall
    rw [hdigit ⟨value, hsmall⟩]
    exact ⟨⟨hsmall, .inl rfl⟩, ⟨hsmall, .inr rfl⟩⟩
  rw [encode, String.toList_ofList]
  induction bytes with
  | nil => exact ⟨.nil, .nil⟩
  | cons byte rest ih =>
    have hbound := byte.toNat_lt
    obtain ⟨hlower, hupper⟩ := hwrites (byte.toNat / 16) (by omega)
    obtain ⟨hlower', hupper'⟩ := hwrites (byte.toNat % 16) (by omega)
    exact ⟨.cons _ _ _ byte rest hlower hlower' ih.1, .cons _ _ _ byte rest hupper hupper' ih.2⟩

end Hex

namespace Command

open Hex (Spells IsTyped dropLowerMarker optionalMarkers furtherMarkers)

theorem readInput_eq_ok_iff {input : String} {bytes : Bytes} :
    readInput input = .ok bytes ↔
      ∃ marker ∈ optionalMarkers ++ furtherMarkers, IsTyped marker input.toList bytes := by
  rw [readInput, mapError_eq_ok_iff, Hex.read, Hex.decode_eq_ok_iff_spells,
    Hex.spells_dropMarkers_iff]
  exact exists_congr fun marker => and_congr_right Hex.spells_trimBlanks_iff

/-- The inputs that have one optional marker. -/
theorem spells_of_input_iff {input : String} {bytes : Bytes} :
    Spells (dropLowerMarker (Text.trimBlanks input.toList)) bytes ↔
      ∃ marker ∈ optionalMarkers, IsTyped marker input.toList bytes := by
  rw [Hex.spells_dropLowerMarker_iff]
  exact exists_congr fun marker => and_congr_right fun hmarker =>
    Hex.spells_trimBlanks_iff (List.mem_append_left _ hmarker)

/-- **Which inputs are accepted, and as which bytes.** An input is accepted as some bytes exactly if,
between blanks, it is their digits behind nothing, behind `0x`, or behind one of three markers more.
The digits are two for each byte, in either case, so that what is written of the bytes in lower or in
upper case is accepted with blanks around it and with or without `0x`. An input with one of the further
markers is not of the form that is asked for: when blanks and one `0x` are taken away, what remains
spells nothing. -/
theorem readInput_exact (input : String) (bytes : Bytes) :
    (readInput input = .ok bytes ↔
        Spells (dropLowerMarker (Text.trimBlanks input.toList)) bytes ∨
          ∃ marker ∈ furtherMarkers, IsTyped marker input.toList bytes) ∧
      (Spells (dropLowerMarker (Text.trimBlanks input.toList)) bytes ↔
        ∃ marker ∈ optionalMarkers, IsTyped marker input.toList bytes) ∧
      (∀ marker ∈ furtherMarkers, IsTyped marker input.toList bytes →
        ∀ other, ¬ Spells (dropLowerMarker (Text.trimBlanks input.toList)) other) ∧
      (∀ digits, Spells digits bytes → digits.length = 2 * bytes.length) ∧
      Spells (Hex.encode bytes).toList bytes ∧
        Spells ((Hex.encode bytes).toList.map Char.toUpper) bytes := by
  refine ⟨?_, spells_of_input_iff, fun marker hmarker htyped other hother => ?_,
    fun digits hspells => hspells.length_eq, Hex.spells_encode bytes⟩
  · rw [readInput_eq_ok_iff, spells_of_input_iff]
    simp only [List.mem_append, or_and_right, exists_or]
  · obtain ⟨digits, htext, hspells⟩ :=
      (Hex.spells_trimBlanks_iff (List.mem_append_right _ hmarker)).mpr htyped
    rw [htext] at hother
    simp only [furtherMarkers, List.mem_cons, List.not_mem_nil, or_false] at hmarker
    rcases hmarker with rfl | rfl | rfl
    · exact hother.ne_marker.2 rfl
    · exact hother.ne_marker.1 rfl
    · exact hother.ne_marker.2 rfl

/-- The marker of the second layer on its own, between a blank and a line break. -/
theorem readInput_exact_upper_marker :
    let input := " 0XeF00\n"
    IsTyped ['0', 'X'] input.toList [0xEF, 0x00] ∧ readInput input = .ok [0xEF, 0x00] ∧
      (∀ other, ¬ Spells (dropLowerMarker (Text.trimBlanks input.toList)) other) ∧
      Spells ['e', 'F', '0', '0'] [0xEF, 0x00] ∧ ['e', 'F', '0', '0'].length = 2 * 2 := by
  intro input
  have hspells : Spells ['e', 'F', '0', '0'] [0xEF, 0x00] :=
    .cons _ _ _ _ _ (by decide) (by decide) (.cons _ _ _ _ _ (by decide) (by decide) .nil)
  have htyped : IsTyped ['0', 'X'] input.toList [0xEF, 0x00] :=
    ⟨[' '], ['e', 'F', '0', '0'], ['\n'], by decide +kernel, by decide, by decide, hspells⟩
  obtain ⟨haccepts, _, hfurther, hlength, _⟩ := readInput_exact input [0xEF, 0x00]
  have hmarker : ['0', 'X'] ∈ furtherMarkers := by decide
  exact ⟨htyped, haccepts.mpr (.inr ⟨_, hmarker, htyped⟩), hfurther _ hmarker htyped, hspells,
    hlength _ hspells⟩

/-- Two markers are taken where one is asked for: each layer takes its own. What the first leaves is
not digits. -/
theorem readInput_accepts_two_markers :
    readInput "0x0xef00" = .ok [0xEF, 0x00] ∧
      ∀ bytes, ¬ Spells (dropLowerMarker (Text.trimBlanks "0x0xef00".toList)) bytes := by
  refine ⟨eq_ok_of_toOption (by decide +kernel), fun bytes hspells => ?_⟩
  have hleft : dropLowerMarker (Text.trimBlanks "0x0xef00".toList) =
      ['0', 'x', 'e', 'f', '0', '0'] := by decide +kernel
  rw [hleft] at hspells
  exact hspells.ne_marker.1 rfl

end Command

end EvmObject
