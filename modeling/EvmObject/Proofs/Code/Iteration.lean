import EvmObject.Code.Cursor

/-!
# The walk, call by call

A walk over a code section is a series of calls, and each call gives the next item or, at the end,
nothing. `Cursor.after` is where the cursor stands after a number of calls. A call makes the first of
the steps ahead and leaves the others (`Cursor.steps_call`), and it moves along the code
(`Cursor.Follows.call`); the statements about any number of calls follow from these two by induction
on that number.

The main result is `walk_covers_code`: for every code the calls come to an end, what they give covers
the code, and after each of them the cursor tells what is left.
-/

namespace EvmObject.Code

/-! ## The statement -/

namespace Cursor

/-- Asks for the next item. At the end there is none, and the cursor stays where it is. -/
def call (cursor : Cursor) : Option Item × Cursor :=
  match cursor.next? with
  | none => (none, cursor)
  | some (item, behind) => (some item, behind)

/-- The cursor after a number of calls. -/
def after : (count : Nat) → Cursor → Cursor
  | 0, cursor => cursor
  | count + 1, cursor => after count cursor.call.2

/-- The cursor tells what is left of the code behind `read` and of the items, which are `ahead`. -/
structure Tells (code read : Bytes) (ahead : List Item) (cursor : Cursor) : Prop where
  /-- What was read is the code up to the cursor. -/
  read_eq : read = code.take cursor.pc
  /-- What is left is the code from the cursor on. -/
  rest_eq : cursor.rest = code.drop cursor.pc
  pc_le : cursor.pc ≤ code.length
  atLeast_eq : cursor.atLeast = min (code.length - cursor.pc) 1
  atMost_eq : cursor.atMost = code.length - cursor.pc
  atLeast_le : cursor.atLeast ≤ ahead.length
  le_atMost : ahead.length ≤ cursor.atMost

end Cursor

/-- The items stand one behind the other from the start of the code to its end. -/
structure Covers (code : Bytes) (found : List Item) : Prop where
  first : ∀ item, found[0]? = some item → item.pc = 0
  adjacent : ∀ (index : Nat) (item follower : Item), found[index]? = some item →
    found[index + 1]? = some follower → follower.pc = item.next
  advances : ∀ item ∈ found, item.pc + 1 ≤ item.next
  last : ∀ item, found.getLast? = some item → item.next = code.length
  bytes : found.flatMap Item.bytes = code
  /-- No item has more operand bytes than it should have. -/
  bounded : ∀ item ∈ found, item.immediate.length ≤ item.declaredSize
  /-- In front of the last item none has fewer. -/
  whole : ∀ (index : Nat) (item : Item), found[index]? = some item → index + 1 < found.length →
    item.isTruncated = false ∧ item.immediate.length = item.declaredSize

/-! ## One call -/

namespace Cursor

/-- What a call gives, and what it leaves. -/
inductive CallGives (cursor : Cursor) : Option Item × Cursor → Prop where
  | nothing (hend : cursor.rest = []) : CallGives cursor (none, cursor)
  | item (byte : UInt8) (rest : Bytes) (hrest : cursor.rest = byte :: rest) :
      CallGives cursor (some (Item.read cursor.pc byte rest), behind cursor.pc byte rest)

theorem call_gives (cursor : Cursor) : CallGives cursor cursor.call := by
  match cursor with
  | ⟨_, []⟩ => exact .nothing rfl
  | ⟨_, byte :: rest⟩ => exact .item byte rest rfl

/-- **A call makes the first step ahead** and leaves the others. -/
theorem steps_call (cursor : Cursor) :
    cursor.next? = cursor.steps.head? ∧ cursor.call.2.steps = cursor.steps.tail := by
  match cursor with
  | ⟨pc, []⟩ =>
    rw [steps_nil]
    exact ⟨rfl, steps_nil pc⟩
  | ⟨pc, byte :: rest⟩ =>
    rw [steps_cons]
    exact ⟨rfl, rfl⟩

theorem call_fst (cursor : Cursor) : cursor.call.1 = cursor.next?.map (·.1) := by
  unfold call
  cases cursor.next? <;> rfl

section
variable {cursor : Cursor} {item : Item} (hcall : cursor.call.1 = some item)
include hcall

/-- The item starts where the cursor stands, and the cursor moves to its end. -/
theorem pc_of_call : item.pc = cursor.pc ∧ cursor.call.2.pc = item.next := by
  have hgives := cursor.call_gives
  generalize cursor.call = given at hgives hcall ⊢
  cases hgives with
  | nothing => cases hcall
  | item byte rest hrest =>
    obtain rfl := Option.some.inj hcall
    exact ⟨rfl, rfl⟩

theorem length_immediate_of_call : item.immediate.length ≤ item.declaredSize := by
  have hgives := cursor.call_gives
  generalize cursor.call = given at hgives hcall
  cases hgives with
  | nothing => cases hcall
  | item byte rest hrest =>
    obtain rfl := Option.some.inj hcall
    exact List.length_take_le ..

/-- A cut operand takes all that is left. -/
theorem rest_of_isTruncated (htruncated : item.isTruncated = true) : cursor.call.2.rest = [] := by
  have hgives := cursor.call_gives
  generalize cursor.call = given at hgives hcall ⊢
  cases hgives with
  | nothing => cases hcall
  | item byte rest hrest =>
    obtain rfl := Option.some.inj hcall
    have hcut := of_decide_eq_true htruncated
    simp only [Item.read, Item.declaredSize, List.length_take] at hcut
    exact List.drop_eq_nil_of_le (by omega)

end

/-- Nothing is left of the code exactly if no item is. -/
theorem items_eq_nil_iff {cursor : Cursor} : cursor.items = [] ↔ cursor.rest = [] := by
  match cursor with
  | ⟨pc, []⟩ => simp
  | ⟨pc, byte :: rest⟩ => simp [items_cons]

/-- **The bounds enclose the number of items ahead:** each takes a byte at least, so the recursion is
on what is left of the code. -/
theorem length_items_le (cursor : Cursor) : cursor.items.length ≤ cursor.atMost := by
  match cursor with
  | ⟨pc, []⟩ => simp
  | ⟨pc, byte :: rest⟩ =>
    have htail := length_items_le (behind pc byte rest)
    rw [items_cons, List.length_cons]
    exact Nat.succ_le_succ (Nat.le_trans htail (length_behind_le ..))
termination_by cursor.rest.length
decreasing_by exact Nat.lt_succ_of_le (length_behind_le ..)

theorem atLeast_le_length_items (cursor : Cursor) : cursor.atLeast ≤ cursor.items.length := by
  match cursor with
  | ⟨pc, []⟩ => simp [atLeast]
  | ⟨pc, byte :: rest⟩ =>
    rw [items_cons, List.length_cons]
    exact Nat.le_trans (Nat.min_le_right ..) (Nat.succ_le_succ (Nat.zero_le _))

/-! ## Any number of calls -/

/-- After a number of calls so many steps less are ahead. -/
theorem steps_after (count : Nat) (cursor : Cursor) :
    (cursor.after count).steps = cursor.steps.drop count := by
  induction count generalizing cursor with
  | zero => rfl
  | succ count ih => rw [after, ih, cursor.steps_call.2, List.drop_tail]

theorem items_after (count : Nat) (cursor : Cursor) :
    (cursor.after count).items = cursor.items.drop count := by
  rw [items, steps_after, List.map_drop, ← items]

/-- **The calls make the steps in order,** and none from then on. -/
theorem next?_after (count : Nat) (cursor : Cursor) :
    (cursor.after count).next? = cursor.steps[count]? := by
  rw [(cursor.after count).steps_call.1, steps_after, List.head?_drop]

theorem call_after (count : Nat) (cursor : Cursor) :
    (cursor.after count).call.1 = cursor.items[count]? := by
  rw [call_fst, next?_after, items, List.getElem?_map]

theorem after_succ (count : Nat) (cursor : Cursor) :
    cursor.after (count + 1) = (cursor.after count).call.2 := by
  induction count generalizing cursor with
  | zero => rfl
  | succ count ih => exact ih cursor.call.2

/-- The cursor stands in the code, with the rest of the code ahead. -/
structure Follows (code : Bytes) (cursor : Cursor) : Prop where
  pc_le : cursor.pc ≤ code.length
  rest_eq : cursor.rest = code.drop cursor.pc

theorem follows_start (code : Bytes) : (start code).Follows code :=
  ⟨Nat.zero_le _, rfl⟩

/-- **A call moves along the code.** The operand is clamped to what is left, and so is the move. -/
theorem Follows.call {code : Bytes} {cursor : Cursor} (hfollows : cursor.Follows code) :
    cursor.call.2.Follows code := by
  obtain ⟨hpc, hcode⟩ := hfollows
  have hgives := cursor.call_gives
  generalize cursor.call = given at hgives ⊢
  cases hgives with
  | nothing => exact ⟨hpc, hcode⟩
  | item byte rest hrest =>
    rw [hrest] at hcode
    have hlength := congrArg List.length hcode
    rw [List.length_cons, List.length_drop] at hlength
    have htail : rest = code.drop (cursor.pc + 1) := by
      rw [← List.tail_drop, ← hcode, List.tail_cons]
    have hoperand : (rest.take (Item.immediateSize byte)).length ≤ rest.length :=
      List.length_take_le' ..
    refine ⟨?_, ?_⟩
    · simp only [behind, Item.read, Item.next]
      omega
    · simp only [behind, Item.read, Item.next]
      rw [← List.drop_drop, ← htail, List.length_take]
      rcases Nat.le_total (Item.immediateSize byte) rest.length with hfits | hcut
      · rw [Nat.min_eq_left hfits]
      · rw [Nat.min_eq_right hcut, List.drop_length, List.drop_eq_nil_of_le hcut]

theorem Follows.after {code : Bytes} {cursor : Cursor} (hfollows : cursor.Follows code)
    (count : Nat) : (cursor.after count).Follows code := by
  induction count generalizing cursor with
  | zero => exact hfollows
  | succ count ih => exact ih hfollows.call

/-- A cut item is given by the last call. -/
theorem length_items_of_isTruncated {cursor : Cursor} {index : Nat} {item : Item}
    (hitem : cursor.items[index]? = some item) (htruncated : item.isTruncated = true) :
    cursor.items.length ≤ index + 1 := by
  have hend := rest_of_isTruncated ((cursor.call_after index).trans hitem) htruncated
  have hnone := items_eq_nil_iff.mpr hend
  rw [← after_succ, items_after] at hnone
  exact List.drop_eq_nil_iff.mp hnone

end Cursor

/-! ## The whole walk -/

theorem covers_items (code : Bytes) : Covers code (items code) := by
  have hgiven : ∀ {index : Nat} {item : Item}, (items code)[index]? = some item →
      ((Cursor.start code).after index).call.1 = some item :=
    fun hitem => ((Cursor.start code).call_after _).trans hitem
  have hbounded : ∀ item ∈ items code, item.immediate.length ≤ item.declaredSize := by
    intro item hmem
    obtain ⟨index, hitem⟩ := List.mem_iff_getElem?.mp hmem
    exact Cursor.length_immediate_of_call (hgiven hitem)
  constructor
  case first =>
    intro item hitem
    exact (Cursor.pc_of_call (hgiven hitem)).1
  case adjacent =>
    intro index item follower hitem hfollower
    have hnext := (Cursor.pc_of_call (hgiven hitem)).2
    rw [← Cursor.after_succ] at hnext
    exact (Cursor.pc_of_call (hgiven hfollower)).1.trans hnext
  case advances =>
    intro item _
    exact Nat.le_add_right ..
  case last =>
    intro item hlast
    rw [List.getLast?_eq_getElem?] at hlast
    have hnonempty := (List.getElem?_eq_some_iff.mp hlast).1
    have hnext := (Cursor.pc_of_call (hgiven hlast)).2
    rw [← Cursor.after_succ, Nat.sub_add_cancel (Nat.one_le_of_lt hnonempty)] at hnext
    -- behind the last item the cursor is at the end
    have hfollows := (Cursor.follows_start code).after (items code).length
    have hnone : ((Cursor.start code).after (items code).length).items = [] := by
      rw [Cursor.items_after]
      exact List.drop_length
    have hrest := hfollows.rest_eq
    rw [Cursor.items_eq_nil_iff.mp hnone, hnext] at hrest
    have hend := List.drop_eq_nil_iff.mp hrest.symm
    exact Nat.le_antisymm (hnext ▸ hfollows.pc_le) hend
  case bytes => exact flatMap_bytes_items code
  case bounded => exact hbounded
  case whole =>
    intro index item hitem hindex
    have hwhole : item.isTruncated = false := by
      rw [Bool.eq_false_iff]
      intro htruncated
      exact Nat.not_le_of_lt hindex (Cursor.length_items_of_isTruncated hitem htruncated)
    have henough := of_decide_eq_false hwhole
    exact ⟨hwhole, Nat.le_antisymm (hbounded item (List.mem_of_getElem? hitem))
      (Nat.le_of_not_lt henough)⟩

theorem tells_after (code : Bytes) (count : Nat) :
    ((Cursor.start code).after count).Tells code (((items code).take count).flatMap Item.bytes)
      ((items code).drop count) := by
  have hfollows := (Cursor.follows_start code).after count
  have hahead : ((Cursor.start code).after count).items = (items code).drop count :=
    Cursor.items_after count _
  generalize (Cursor.start code).after count = cursor at hfollows hahead
  have hleft : cursor.rest.length = code.length - cursor.pc := by
    rw [hfollows.rest_eq, List.length_drop]
  constructor
  case read_eq =>
    have hcode := flatMap_bytes_items code
    rw [← List.take_append_drop count (items code), List.flatMap_append, ← hahead,
      Cursor.flatMap_bytes_items, hfollows.rest_eq] at hcode
    exact List.append_cancel_right (hcode.trans (List.take_append_drop ..).symm)
  case rest_eq => exact hfollows.rest_eq
  case pc_le => exact hfollows.pc_le
  case atLeast_eq => rw [Cursor.atLeast, hleft]
  case atMost_eq => exact hleft
  case atLeast_le => exact hahead ▸ cursor.atLeast_le_length_items
  case le_atMost => exact hahead ▸ cursor.length_items_le

/-- **The walk covers every code.** Whatever the bytes, enabled or not, call after call makes the
steps that are listed and gives their items, at most one for each byte, and nothing from then on. The
first item stands at offset zero, each other one right behind the one in front of it, and the last one
ends with the code, so that together their bytes are the code. Only the last item can be cut; all
others have exactly the operand bytes that they should have. After any number of calls the cursor
tells the offset up to which the code was read and what is left of it, and its bounds enclose the
number of items ahead. -/
theorem walk_covers_code (code : Bytes) :
    (∀ count, ((Cursor.start code).after count).next? = (Cursor.start code).steps[count]? ∧
        ((Cursor.start code).after count).call.1 = (items code)[count]?) ∧
      (items code).length ≤ code.length ∧ Covers code (items code) ∧
      ∀ count, ((Cursor.start code).after count).Tells code
        (((items code).take count).flatMap Item.bytes) ((items code).drop count) :=
  ⟨fun count => ⟨Cursor.next?_after count _, Cursor.call_after count _⟩,
    Cursor.length_items_le _, covers_items code, tells_after code⟩

/-- A legacy byte, an undefined one and a push that is cut; a fourth call gives nothing. -/
example : items [0x56, 0x0C, 0x62, 0xFF, 0xFF] =
      [⟨0, 0x56, []⟩, ⟨1, 0x0C, []⟩, ⟨2, 0x62, [0xFF, 0xFF]⟩] ∧
    ((Cursor.start [0x56, 0x0C, 0x62, 0xFF, 0xFF]).after 3).call = (none, ⟨5, []⟩) := by
  decide +kernel

end EvmObject.Code
