import Mathlib.Data.List.Forall2
import EvmObject.Code.Listing
import EvmObject.Proofs.Bytes.Hex
import EvmObject.Proofs.Code.Blame
import EvmObject.Proofs.Code.Iteration
import EvmObject.Proofs.Opcode.Names
import EvmObject.Proofs.Text.Digits

/-!
# A listing loses nothing

A listing is text for people, but the code can be read back from it. It has one line per item,
headed by the offset. The second word of a line names the opcode or says that there is none, and
a later word writes the operand or the byte. So `readListing` puts the code together again
(`readListing_listing`), and two codes that are listed alike are one: `listing_lossless`.

What a listing does leave out is an operand that the code ends inside of. Only the last item of a
code can be cut like that (`Cursor.length_items_of_isTruncated`).
-/

namespace EvmObject.Code

/-! ## The statement -/

/-- The code ends before the operand of its last item does. -/
def EndsInOperand (code : Bytes) : Prop :=
  ∃ last, (items code).getLast? = some last ∧ last.isTruncated = true

instance (code : Bytes) : Decidable (EndsInOperand code) :=
  decidable_of_iff ((items code).getLast?.any Item.isTruncated = true) (Option.any_eq_true _ _)

/-- The line starts with the offset of the item. -/
structure Item.Heads (item : Item) (line : String) : Prop where
  /-- The offset is filled up to four digits, and a colon stands behind it. -/
  starts : (Text.hexWide 4 item.pc ++ ":").toList <+: line.toList
  /-- What stands in front of the first colon reads as the offset. -/
  reads : Text.hexValue (line.toList.takeWhile (· != ':')) = item.pc

/-! ## Reading back -/

/-- The bytes that a line writes: those of the second word if it is a name, with the operand behind
it, else the byte that the fourth word shows. -/
def bytesOfLine (line : String) : Option Bytes :=
  match Text.wordsOf line with
  | _ :: name :: more =>
    match Opcode.ofName? name, more with
    | some op, [] => some [op.byte]
    | some op, operand :: _ => (Hex.decode operand.toList).toOption.map (op.byte :: ·)
    | none, _ :: value :: _ => (Hex.decode value.toList).toOption
    | none, _ => none
  | _ => none

/-- The code that a listing is of, read line by line. -/
def readListing (text : String) : Option Bytes :=
  ((Text.linesOf text).mapM bytesOfLine).map List.flatten

/-! ## The words of a line -/

namespace Item

/-- The words that write the operand. -/
def operandWords (item : Item) : List String :=
  if item.immediate.isEmpty then [] else ["0x" ++ Hex.encode item.immediate]

/-- The words on where a jump or a call leads. -/
def destinationWords (item : Item) (op : Opcode) : List String :=
  if op.isRelativeJump then
    ["(" ++ Text.signedDecimal item.offset, "->", Text.hexPattern 4 item.target ++ ")"]
  else if op.isCall then
    ["(section", toString ((Bytes.readU16? item.immediate).getD 0).toNat ++ ")"]
  else []

/-- The first word behind the offset and those that follow it. -/
def textWords (item : Item) : String × List String :=
  match item.opcode? with
  | none => ("Unknown", ["opcode:", "0x" ++ Text.byteUpper item.byte])
  | some op =>
    (op.info.name,
      if item.isTruncated then ["Malformed", "code:", "immediate", "out", "of", "bounds"]
      else item.operandWords ++ item.destinationWords op)

/-- The words of the line. -/
def words (item : Item) : List String :=
  (Text.hexWide 4 item.pc ++ ":") :: item.textWords.1 :: item.textWords.2

theorem operand_eq (item : Item) : item.operand = Text.behindBlanks item.operandWords := by
  unfold operand operandWords
  split
  · rfl
  · rfl

theorem destination_eq (item : Item) (op : Opcode) :
    item.destination op = Text.behindBlanks (item.destinationWords op) := by
  -- a blank inside of a literal and one that stands alone meet only as characters
  apply String.toList_inj.mp
  unfold destination destinationWords Text.behindBlanks
  split
  · simp [toString]
  · split
    · simp [toString]
    · rfl

theorem text_eq (item : Item) :
    item.text = item.textWords.1 ++ Text.behindBlanks item.textWords.2 := by
  apply String.toList_inj.mp
  unfold text textWords
  cases item.opcode? with
  | none => simp [Text.behindBlanks, toString]
  | some op =>
    simp only
    split
    · simp [Text.behindBlanks, toString]
    · rw [Text.behindBlanks_append, ← operand_eq, ← destination_eq]
      simp [toString]

/-- **A line is its words** with blanks between them. -/
theorem line_eq_intercalate (item : Item) : item.line = " ".intercalate item.words := by
  rw [words, Text.intercalate_eq_append_behindBlanks, line, text_eq]
  apply String.toList_inj.mp
  simp [Text.behindBlanks, toString]

theorem isWord_of_mem_operandWords {item : Item} {word : String}
    (hmem : word ∈ item.operandWords) : Text.IsWord word := by
  unfold operandWords at hmem
  split at hmem
  · cases hmem
  · rw [List.mem_singleton.mp hmem]
    exact Text.isWord_append (by decide) (Hex.isWord_encode _)

theorem isWord_of_mem_destinationWords {item : Item} {op : Opcode} {word : String}
    (hmem : word ∈ item.destinationWords op) : Text.IsWord word := by
  have hopen : Text.IsWord ("(" ++ Text.signedDecimal item.offset) :=
    Text.isWord_append (by decide) (Text.isWord_signedDecimal _)
  have hclose : Text.IsWord (Text.hexPattern 4 item.target ++ ")") :=
    Text.isWord_append (Text.isWord_hexWide _ _) (by decide)
  have hcallee := Text.isWord_append
    (Text.isWord_toString ((Bytes.readU16? item.immediate).getD 0).toNat)
    (show Text.IsWord ")" by decide)
  unfold destinationWords at hmem
  split at hmem
  · rcases List.mem_cons.mp hmem with rfl | hmem
    · exact hopen
    · rcases List.mem_pair.mp hmem with rfl | rfl
      · decide
      · exact hclose
  · split at hmem
    · rcases List.mem_pair.mp hmem with rfl | rfl
      · decide
      · exact hcallee
    · cases hmem

theorem isWord_of_mem_words {item : Item} {word : String} (hmem : word ∈ item.words) :
    Text.IsWord word := by
  have hmalformed : ∀ other ∈ ["Malformed", "code:", "immediate", "out", "of", "bounds"],
      Text.IsWord other := by decide
  rcases List.mem_cons.mp hmem with rfl | hmem
  · exact Text.isWord_append (Text.isWord_hexWide _ _) (by decide)
  · unfold textWords at hmem
    cases hop : item.opcode? with
    | none =>
      simp only [hop, List.mem_cons, List.not_mem_nil, or_false] at hmem
      rcases hmem with rfl | rfl | rfl
      · decide
      · decide
      · exact Text.isWord_append (by decide) (Hex.isWord_byteUpper _)
    | some op =>
      simp only [hop, List.mem_cons] at hmem
      rcases hmem with rfl | hmem
      · exact op.isWord_name
      · split at hmem
        · exact hmalformed word hmem
        · rcases List.mem_append.mp hmem with hoperand | hdestination
          · exact isWord_of_mem_operandWords hoperand
          · exact isWord_of_mem_destinationWords hdestination

theorem wordsOf_line (item : Item) : Text.wordsOf item.line = item.words := by
  rw [line_eq_intercalate]
  exact Text.wordsOf_intercalate (List.cons_ne_nil _ _) fun _ => isWord_of_mem_words

/-! ## Reading a line -/

/-- An instruction without operand leads nowhere. -/
theorem destinationWords_eq_nil {item : Item} {op : Opcode} (hop : item.opcode? = some op)
    (hwhole : item.isTruncated = false) (hempty : item.immediate = []) :
    item.destinationWords op = [] := by
  have hsize : op.info.immediateSize = 0 := by
    rw [isTruncated, declaredSize, immediateSize_of_enabled hop, hempty] at hwhole
    simpa using hwhole
  have hjump : ¬ op.isRelativeJump = true := fun hjump => by
    rw [Opcode.immediateSize_of_isRelativeJump hjump] at hsize
    cases hsize
  have hcall : ¬ op.isCall = true := fun hcall => by
    rw [Opcode.immediateSize_of_isCall hcall] at hsize
    cases hsize
  rw [destinationWords, if_neg hjump, if_neg hcall]

/-- **A line reads as the bytes of its item,** if the operand is not cut off. -/
theorem bytesOfLine_line {item : Item} (hwhole : item.isTruncated = false)
    (hdisabled : item.opcode? = none → item.immediate = []) :
    bytesOfLine item.line = some item.bytes := by
  rw [bytesOfLine, wordsOf_line, words, textWords]
  cases hop : item.opcode? with
  | none =>
    -- the second word is no name, so the fourth is read
    simp only [Opcode.ofName?_unknown, Hex.decode_byteUpper, bytes, hdisabled hop]
    rfl
  | some op =>
    have hbyte : op.byte = item.byte := (Opcode.enabled?_eq_some_iff.mp hop).1
    simp only [hwhole, Opcode.ofName?_name, Bool.false_eq_true, if_false]
    -- the third word is the operand, or else the name was the last word
    cases himmediate : item.immediate with
    | nil =>
      rw [destinationWords_eq_nil hop hwhole himmediate]
      simp only [operandWords, himmediate, List.isEmpty_nil, if_true, List.append_nil, bytes, hbyte]
    | cons byte more =>
      simp only [operandWords, himmediate, List.isEmpty_cons, Bool.false_eq_true, if_false,
        List.cons_append, Hex.decode_encode, bytes, hbyte]
      rfl

/-- **A line starts with the offset of its item.** No digit is a colon, so the first colon is the
one behind the offset. -/
theorem heads_line (item : Item) : item.Heads item.line := by
  have hline : item.line.toList =
      (Text.hexWide 4 item.pc).toList ++ ':' :: ' ' :: item.text.toList := by
    simp [line, toString]
  have hdigits : ∀ c ∈ (Text.hexWide 4 item.pc).toList, (c != ':') = true := by
    intro c hmem
    have hcolon : ':' ∉ Text.hexDigits := by decide
    exact bne_iff_ne.mpr fun heq => hcolon (heq ▸ Text.mem_hexDigits_of_mem_hexWide hmem)
  refine ⟨⟨' ' :: item.text.toList, ?_⟩, ?_⟩
  · rw [hline, String.toList_append, List.append_assoc]
    rfl
  · rw [hline, List.takeWhile_append_of_pos hdigits, List.takeWhile_cons_of_neg (by decide),
      List.append_nil, Text.hexValue_hexWide]

end Item

/-! ## Cut items -/

theorem isTruncated_of_mem_items {code : Bytes} (hends : ¬ EndsInOperand code) {item : Item}
    (hmem : item ∈ items code) : item.isTruncated = false := by
  cases htruncated : item.isTruncated with
  | false => rfl
  | true =>
    obtain ⟨index, hitem⟩ := List.mem_iff_getElem?.mp hmem
    have hindex : index < (items code).length := (List.getElem?_eq_some_iff.mp hitem).1
    have hlength : (items code).length ≤ index + 1 :=
      Cursor.length_items_of_isTruncated hitem htruncated
    have hlast : (items code).getLast? = some item := by
      rw [List.getLast?_eq_getElem?, show (items code).length - 1 = index by omega, hitem]
    exact absurd ⟨item, hlast, htruncated⟩ hends

/-- A byte that is not enabled stands alone. -/
theorem immediate_eq_nil_of_mem_items {code : Bytes} {item : Item} (hmem : item ∈ items code)
    (hdisabled : item.opcode? = none) : item.immediate = [] := by
  obtain ⟨_, rest, _, hread⟩ := exists_read_of_mem_items hmem
  have himmediate : item.immediate = rest.take (Item.immediateSize item.byte) :=
    congrArg Item.immediate hread
  have hsize : Item.immediateSize item.byte = 0 := by
    unfold Item.immediateSize
    rw [show Opcode.enabled? item.byte = none from hdisabled]
    rfl
  rw [himmediate, hsize, List.take_zero]

/-! ## Reading a listing -/

/-- **The lines of a listing are those of the items.** -/
theorem linesOf_listing (code : Bytes) : Text.linesOf (listing code) = lines code := by
  refine Text.linesOf_join fun line hline => ?_
  obtain ⟨item, _, rfl⟩ := List.mem_map.mp hline
  rw [item.line_eq_intercalate]
  exact Text.newline_notMem_intercalate fun _ => Item.isWord_of_mem_words

/-- Lines that read each on its own read as a whole. -/
theorem mapM_bytesOfLine {split : List Item}
    (hread : ∀ item ∈ split, bytesOfLine item.line = some item.bytes) :
    (split.map Item.line).mapM bytesOfLine = some (split.map Item.bytes) := by
  induction split with
  | nil => rfl
  | cons item more ih =>
    have hmore := ih fun other hother => hread other (List.mem_cons_of_mem _ hother)
    rw [List.map_cons, List.mapM_cons, hread item List.mem_cons_self, hmore]
    rfl

/-- **A listing reads back** as the code, unless the code ends inside an operand. -/
theorem readListing_listing {code : Bytes} (hends : ¬ EndsInOperand code) :
    readListing (listing code) = some code := by
  have hread : ∀ item ∈ items code, bytesOfLine item.line = some item.bytes := fun item hmem =>
    Item.bytesOfLine_line (isTruncated_of_mem_items hends hmem)
      (immediate_eq_nil_of_mem_items hmem)
  rw [readListing, linesOf_listing, lines, mapM_bytesOfLine hread, Option.map_some,
    ← List.flatMap_def, flatMap_bytes_items]

/-- **A listing loses nothing.** It has one line per item, which starts with the offset of the item,
and codes that do not end inside an operand are listed alike only if they are the same. -/
theorem listing_lossless :
    (∀ code, List.Forall₂ Item.Heads (items code) (Text.linesOf (listing code))) ∧
      ∀ code other, ¬ EndsInOperand code → ¬ EndsInOperand other →
        listing code = listing other → code = other := by
  refine ⟨fun code => ?_, fun code other hcode hother hlisting => ?_⟩
  · rw [linesOf_listing, lines, List.forall₂_map_right_iff, List.forall₂_same]
    exact fun item _ => item.heads_line
  · have hread := readListing_listing hcode
    rw [hlisting, readListing_listing hother] at hread
    exact (Option.some.inj hread).symm

/-- A push, an undefined and a legacy byte, a branch and a call; one is written in two parts. -/
theorem listing_lossless_mixed :
    ¬ EndsInOperand [0x60, 0x01, 0x0C, 0x56, 0x5D, 0xFF, 0xF9, 0xB0, 0x00, 0x01, 0x00] ∧
      listing [0x60, 0x01, 0x0C, 0x56, 0x5D, 0xFF, 0xF9, 0xB0, 0x00, 0x01, 0x00] =
        "0000: PUSH1 0x01\n0002: Unknown opcode: 0x0C\n0003: Unknown opcode: 0x56\n" ++
          "0004: RJUMPI 0xfff9 (-7 -> 0000)\n0007: CALLF 0x0001 (section 1)\n000a: STOP\n" ∧
      [0x60, 0x01, 0x0C, 0x56, 0x5D, 0xFF, 0xF9, 0xB0, 0x00, 0x01, 0x00] =
        ([0x60, 0x01, 0x0C] ++ [0x56, 0x5D, 0xFF, 0xF9, 0xB0, 0x00, 0x01, 0x00] : Bytes) := by
  have hwhole : ¬ EndsInOperand
      [0x60, 0x01, 0x0C, 0x56, 0x5D, 0xFF, 0xF9, 0xB0, 0x00, 0x01, 0x00] := by decide +kernel
  exact ⟨hwhole, by decide +kernel, listing_lossless.2 _ _ hwhole hwhole rfl⟩

/-- An operand that is cut off is not listed. -/
example : EndsInOperand [0x61] ∧ EndsInOperand [0x61, 0xFF] ∧
    listing [0x61] = listing [0x61, 0xFF] := by decide +kernel

end EvmObject.Code
