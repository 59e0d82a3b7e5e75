import EvmObject.Machine.ReturnStack

/-!
# Frames pushed and popped

What the return stack does, seen from its frames: pushing appends one if there is room, popping
takes the last one away. `ReturnStack.pop?_eq_some_iff` is the reading that proofs about calls want,
since it names the stack before the pop in terms of the stack after it.
-/

namespace EvmObject.Machine.ReturnStack

variable {stack after : ReturnStack} {frame : Frame}

@[simp] theorem frames_initial : initial.frames = #[.bottom] := rfl

theorem push_eq_ok_iff :
    stack.push frame = .ok after ↔
      stack.size < Limits.returnStack ∧ after.frames = stack.frames.push frame := by
  obtain ⟨frames, hbounded⟩ := after
  unfold push
  split
  · next hroom =>
    simp only [Except.ok.injEq, mk.injEq, size, hroom, true_and]
    exact eq_comm
  · next hfull =>
    simp only [reduceCtorEq, size, hfull, false_and]

theorem push_eq_error_iff {fault : Fault} :
    stack.push frame = .error fault ↔
      stack.size = Limits.returnStack ∧ fault = .returnStackOverflow := by
  have hbounded := stack.bounded
  unfold push
  split
  · next hroom =>
    simp only [reduceCtorEq, false_iff, not_and, size]
    omega
  · next hfull =>
    have hsize : stack.size = Limits.returnStack := by
      rw [size]
      omega
    simp only [Except.error.injEq, hsize, true_and]
    exact eq_comm

/-- **Popping undoes a push.** -/
theorem pop?_eq_some_iff :
    stack.pop? = some (frame, after) ↔ stack.frames = after.frames.push frame := by
  obtain ⟨frames, hbounded⟩ := stack
  obtain ⟨rest, hrest⟩ := after
  simp only [pop?, top?, Option.map_eq_some_iff, Prod.mk.injEq, mk.injEq]
  constructor
  · rintro ⟨_, hback, rfl, rfl⟩
    obtain ⟨rest, hpush⟩ := Array.back?_eq_some_iff.mp hback
    rw [hpush, Array.pop_push]
  · rintro rfl
    exact ⟨frame, Array.back?_push, rfl, Array.pop_push ..⟩

theorem pop?_eq_none_iff : stack.pop? = none ↔ stack.isEmpty = true := by
  rw [pop?, Option.map_eq_none_iff, top?, Array.back?_eq_none_iff, isEmpty, Array.isEmpty_iff]

theorem eq_of_frames (hframes : stack.frames = after.frames) : stack = after := by
  obtain ⟨frames, _⟩ := stack
  obtain ⟨_, _⟩ := after
  obtain rfl := hframes
  rfl

theorem isEmpty_iff_size : stack.isEmpty = true ↔ stack.size = 0 := Array.isEmpty_iff_size_eq_zero

theorem size_of_frames (hframes : stack.frames = after.frames.push frame) :
    stack.size = after.size + 1 := by
  unfold size
  rw [hframes, Array.size_push]

/-- The topmost frame says what is out of reach. -/
theorem height_of_frames {below : Array Frame} (hframes : stack.frames = below.push frame) :
    stack.height = frame.height := by
  rw [height, top?, hframes, Array.back?_push]
  rfl

end EvmObject.Machine.ReturnStack
