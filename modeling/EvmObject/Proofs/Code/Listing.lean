import EvmObject.Code.Listing
import EvmObject.Proofs.Code.Operands

/-!
# What a listing says of a section in order

A listing has one line per item. In code that is in order the items are the instructions of the
split, each at an offset of its own, so a line belongs to one instruction. The line of a relative
jump shows the offset that the jump leads to: `Tiled.line_of_jump`. The listing adds the operand to
the end of the item in 64-bit two's complement, and a target inside the section reads the same there
as anywhere else.
-/

namespace EvmObject

/-! ## Targets as text -/

/-- A number that fits is its own pattern. -/
theorem Text.hexPattern_of_nonneg {width : Nat} {n : Int} (hnonneg : 0 ≤ n)
    (hfits : n < 0x10000000000000000) :
    hexPattern width n = hexWide width n.toNat := by
  have hmod : n % (0x10000000000000000 : Nat) = n := Int.emod_eq_of_lt hnonneg hfits
  have htoNat : (BitVec.ofInt 64 n).toNat = (n % (0x10000000000000000 : Nat)).toNat :=
    BitVec.toNat_ofInt n
  rw [hexPattern, htoNat, hmod]

namespace Code

/-! ## The statement -/

/-- The name of a relative jump. -/
def jumpName (byte : UInt8) : String :=
  if byte = Opcode.rjump then "RJUMP" else "RJUMPI"

/-- The line of a relative jump: where it stands, its name and operand, how far it goes from behind
its three bytes, and where it leads. -/
def Jump.line (jump : Jump) (byte : UInt8) (operand : Bytes) : String :=
  let distance : Int := jump.target - (jump.pc + 3)
  s!"{Text.hexWide 4 jump.pc}: {jumpName byte} 0x{Hex.encode operand}" ++
    s!" ({Text.signedDecimal distance} -> {Text.hexWide 4 jump.target})"

/-- The listing of the code shows where the jump leads. There is one line for each item, and that of
the only item at the offset of the jump is the line of the jump. -/
structure Jump.IsListed (jump : Jump) (code : Bytes) (item : Item) (before after : List Item) :
    Prop where
  items_eq : items code = before ++ item :: after
  pc_eq : item.pc = jump.pc
  /-- No other item starts there. -/
  only : ∀ other ∈ before ++ after, other.pc ≠ jump.pc
  listing_eq : listing code = String.join
    ((before.map Item.line ++ jump.line item.byte item.immediate :: after.map Item.line).map
      (·.push '\n'))

/-! ## One line -/

theorem name_eq_jumpName {op : Opcode}
    (hjump : op.byte = Opcode.rjump ∨ op.byte = Opcode.rjumpi) :
    op.info.name = jumpName op.byte := by
  rcases hjump with hbyte | hbyte
  · rw [Opcode.info_eq_of_byte hbyte rfl, hbyte]
    rfl
  · rw [Opcode.info_eq_of_byte hbyte rfl, hbyte]
    rfl

section
variable {pc : Nat} {code : Bytes} {split : List Item} {item : Item} (htiled : Tiled pc code split)
  (hmem : item ∈ split)
include htiled hmem

/-- **The line of a jump shows its target,** if that is not below the section and not out of the
range of 64 bits. -/
theorem Tiled.line_of_jump (hjump : item.HasJumpByte) (hnonneg : 0 ≤ item.landing)
    (hfits : item.landing < 0x10000000000000000) :
    item.line = Jump.line ⟨item.pc, item.landing.toNat⟩ item.byte item.immediate := by
  have htwo := htiled.length_of_hasJumpByte hmem hjump
  obtain ⟨op, hop, hbyte, hsize⟩ := htiled.exists_opcode hmem
  have hwhole : item.isTruncated = false := by
    unfold Item.isTruncated Item.declaredSize
    rw [immediateSize_of_enabled hop, hsize]
    exact decide_eq_false (Nat.lt_irrefl _)
  have hrelative : op.isRelativeJump = true := by
    have hisJump := (htiled.isJump_iff hmem).mpr hjump
    rwa [Item.isJump, hop, Option.any_some] at hisJump
  have hsome : item.immediate.isEmpty = false := by
    rw [List.isEmpty_eq_false_iff, ← List.length_pos_iff]
    omega
  have hname : op.info.name = jumpName item.byte := by
    rw [name_eq_jumpName (hbyte ▸ hjump), hbyte]
  have hdistance : item.offset = (item.landing.toNat : Int) - ((item.pc : Int) + 3) := by
    have hlanding : item.landing = (item.pc + 1 + item.immediate.length : Nat) + item.distance := rfl
    rw [Item.offset_eq_distance htwo]
    omega
  have htarget : Text.hexPattern 4 item.target = Text.hexWide 4 item.landing.toNat := by
    rw [Item.target_eq_landing htwo, Text.hexPattern_of_nonneg hnonneg hfits]
  -- the parts are those of the line, but they are put together in another order
  simp only [Item.line, Item.text, Item.operand, Item.destination, hop, hwhole, hsome, hrelative,
    hname, hdistance, htarget, Jump.line, Bool.false_eq_true, if_false, if_true, toString,
    String.append_assoc]

/-- An instruction stands between those in front of it and those behind it, and no other starts at
its offset. -/
theorem Tiled.exists_append :
    ∃ before after, split = before ++ item :: after ∧
      ∀ other ∈ before ++ after, other.pc ≠ item.pc := by
  obtain ⟨before, after, hsplit⟩ := List.append_of_mem hmem
  have hpairwise := htiled.pairwise
  rw [hsplit, List.pairwise_append, List.pairwise_cons] at hpairwise
  obtain ⟨_, ⟨hbehind, _⟩, hfront⟩ := hpairwise
  refine ⟨before, after, hsplit, fun other hother => ?_⟩
  rcases List.mem_append.mp hother with hbefore | hafter
  · have hends := hfront other hbefore item List.mem_cons_self
    unfold Item.next at hends
    omega
  · have hends := hbehind other hafter
    unfold Item.next at hends
    omega

end

/-! ## The whole listing -/

/-- **A relative jump of a well-formed section is listed with its target.** -/
theorem WellFormed.exists_isListed {code : Bytes} {split : List Item} {item : Item}
    (hwell : WellFormed code split) (hmem : item ∈ split) (hjump : item.HasJumpByte)
    (hsmall : code.length < 0x10000000000000000) :
    ∃ before after, Jump.IsListed ⟨item.pc, item.landing.toNat⟩ code item before after := by
  obtain ⟨before, after, hsplit, honly⟩ := hwell.tiled.exists_append hmem
  obtain ⟨hnonneg, hlanding⟩ := hwell.inside item hmem hjump
  have hfits : item.landing < 0x10000000000000000 := by omega
  have hitems : items code = before ++ item :: after := by
    rw [← hsplit]
    exact hwell.tiled.items_eq
  refine ⟨before, after, hitems, rfl, honly, ?_⟩
  rw [listing, lines, hitems, List.map_append, List.map_cons,
    hwell.tiled.line_of_jump hmem hjump hnonneg hfits]

end Code

end EvmObject
