import EvmObject.Proofs.Machine.Fetch
import EvmObject.Proofs.Machine.Heights
import EvmObject.Proofs.Machine.StackHost

/-!
# Functions that are called and return

What a step does to the data stack and to the frames, for any host that stays within reach. No step
touches the words below the running function (`sameBelow_step`), if its frame is low, and one that
goes on stays in the function, calls another, or returns (`moved_of_step`).

`Inside` describes an execution in the middle of such a sequence: the frames that were there at the
start are still there, below those of the functions called since, and none of these reaches deeper
than the function at the start did. A step stays inside or takes the topmost of the old frames
(`Inside.next`). That is the invariant behind everything that holds from a call to its return.
-/

namespace EvmObject.Machine

namespace Execution

variable {σ : Type} {program : Program} {host : Host σ} {execution after : Execution σ}

/-! ## What stays below -/

/-- **No step touches the words below the running function.** -/
theorem sameBelow_step (hhost : host.StaysInReach)
    (hlow : execution.state.frames.height ≤ Limits.stack) {base : Nat}
    (hbase : base ≤ execution.state.frames.height) :
    Stack.SameBelow base (execution.step program host).after.stack execution.stack := by
  have hcases := step_cases program host execution
  generalize execution.step program host = taken at hcases ⊢
  -- only a branch and the host change the data stack
  cases hcases with
  | noFunction => exact rfl
  | noInstruction => exact rfl
  | stop => exact rfl
  | invalid => exact rfl
  | call _ _ _ _ _ hcase => cases hcase <;> exact rfl
  | ret _ _ _ _ _ hcase => cases hcase <;> exact rfl
  | jump _ _ _ _ _ hcase => cases hcase <;> exact rfl
  | branch _ _ _ _ _ hcase =>
    have hpop (hreaches : execution.reaches 1 = true) :
        Stack.SameBelow base execution.popped.stack execution.stack := by
      have henough := (reaches_iff_of_low hlow (by decide)).mp hreaches
      exact Stack.SameBelow.pop (by omega)
    cases hcase with
    | short => exact rfl
    | unread => exact rfl
    | untaken hreaches => exact hpop hreaches
    | nowhere => exact rfl
    | taken _ _ hreaches => exact hpop hreaches
  | host _ fetched _ hat _ hcase =>
    have heffect (hreaches : execution.reaches fetched.opcode.info.inputs = true) :
        Stack.SameBelow base (execution.effectOf host fetched).stack execution.stack := by
      have henough := (reaches_iff_of_low hlow fetched.opcode.inputs_lt).mp hreaches
      exact hhost.below _ _ _ _ _ hat.length_eq (by omega)
    cases hcase with
    | short => exact rfl
    | failed _ hreaches => exact heffect hreaches
    | ended _ hreaches => exact heffect hreaches
    | done hreaches => exact heffect hreaches

/-! ## What a step that goes on does to the frames -/

/-- A step stays in the running function, calls another, or returns to the one that called it. -/
inductive Moved (program : Program) (execution after : Execution σ) : Prop where
  | stayed (hfunction : after.state.function = execution.state.function)
      (hframes : after.state.frames = execution.state.frames)
  | called (function callee : Function) (fetched : Fetched) (frames : ReturnStack)
      (hat : execution.Fetches program function fetched)
      (hbyte : fetched.opcode.byte = Opcode.callf)
      (hcallee : program.function? fetched.callee = some callee)
      (hreaches : execution.reaches callee.signature.inputs.toNat = true)
      (hpush : execution.state.frames.push (execution.frameFor fetched callee) = .ok frames)
      (hafter : after = { execution with state := ⟨fetched.callee, 0, frames⟩ })
  | returned (function : Function) (fetched : Fetched) (frame : Frame) (frames : ReturnStack)
      (hat : execution.Fetches program function fetched)
      (hbyte : fetched.opcode.byte = Opcode.retf)
      (hreaches : execution.reaches function.signature.outputs.toNat = true)
      (hpop : execution.state.frames.pop? = some (frame, frames))
      (hmore : frames.isEmpty = false)
      (hafter : after = { execution with state := ⟨frame.function, frame.pc, frames⟩ })

theorem moved_of_step (hrunning : (execution.step program host).outcome = .running) :
    Moved program execution (execution.step program host).after := by
  have hcases := step_cases program host execution
  generalize execution.step program host = taken at hcases hrunning ⊢
  cases hcases with
  | noFunction => cases hrunning
  | noInstruction => cases hrunning
  | stop => cases hrunning
  | invalid => cases hrunning
  | call function fetched _ hat hbyte hcase =>
    cases hcase with
    | unknown => cases hrunning
    | short => cases hrunning
    | full => cases hrunning
    | entered callee frames hcallee hreaches hpush =>
      exact .called function callee fetched frames hat hbyte hcallee hreaches hpush rfl
  | ret function fetched _ hat hbyte hcase =>
    cases hcase with
    | short => cases hrunning
    | noFrame => cases hrunning
    | last => cases hrunning
    | returned frame frames hreaches hpop hmore =>
      exact .returned function fetched frame frames hat hbyte hreaches hpop hmore rfl
  | jump _ _ _ _ _ hcase =>
    cases hcase with
    | nowhere => cases hrunning
    | taken => exact .stayed rfl rfl
  | branch _ _ _ _ _ hcase =>
    cases hcase with
    | short => cases hrunning
    | unread => cases hrunning
    | untaken => exact .stayed rfl rfl
    | nowhere => cases hrunning
    | taken => exact .stayed rfl rfl
  | host _ _ _ _ _ hcase =>
    cases hcase with
    | short => cases hrunning
    | failed => cases hrunning
    | ended => cases hrunning
    | done => exact .stayed rfl rfl

/-- A step that goes on has read an instruction. -/
theorem exists_fetches_of_running (hrunning : (execution.step program host).outcome = .running) :
    ∃ function fetched, execution.Fetches program function fetched := by
  have hcases := step_cases program host execution
  generalize execution.step program host = taken at hcases hrunning
  cases hcases with
  | noFunction => cases hrunning
  | noInstruction => cases hrunning
  | stop function fetched hat => exact ⟨function, fetched, hat⟩
  | invalid function fetched hat => exact ⟨function, fetched, hat⟩
  | call function fetched _ hat => exact ⟨function, fetched, hat⟩
  | ret function fetched _ hat => exact ⟨function, fetched, hat⟩
  | jump function fetched _ hat => exact ⟨function, fetched, hat⟩
  | branch function fetched _ hat => exact ⟨function, fetched, hat⟩
  | host function fetched _ hat => exact ⟨function, fetched, hat⟩

/-- A step that goes on leaves a frame if it finds one. -/
theorem Moved.isEmpty_eq_false (hmoved : Moved program execution after)
    (hsome : execution.state.frames.isEmpty = false) : after.state.frames.isEmpty = false := by
  cases hmoved with
  | stayed _ hframes => rw [hframes, hsome]
  | called _ _ _ frames _ _ _ _ hpush hafter =>
    obtain ⟨_, hframes⟩ := ReturnStack.push_eq_ok_iff.mp hpush
    rw [hafter, ReturnStack.isEmpty, hframes, Array.isEmpty_push]
  | returned _ _ _ _ _ _ _ _ hmore hafter => rw [hafter, hmore]

/-! ## Between a call and its return -/

/-- The frames of `outer` are in place, below those of functions that were called since; none of
these reaches below the words that were out of reach then, and all of them are low. -/
structure Inside (outer : ReturnStack) (above : List Frame) (execution : Execution σ) : Prop where
  frames_eq : execution.state.frames.frames.toList = outer.frames.toList ++ above
  le_height : ∀ frame ∈ above, outer.height ≤ frame.height
  low : ∀ frame ∈ above, frame.height ≤ Limits.stack
  le_size : outer.height ≤ execution.stack.size

/-- The function that runs once the functions of the frames have returned, the latest first. -/
def lowest (above : List Frame) (function : Nat) : Nat :=
  (above.head?.map (·.function)).getD function

namespace Inside

/-- An execution is inside its own frames, if the running function leaves out no more words than
there are. -/
theorem of_height_le {outer : ReturnStack} (hframes : execution.state.frames = outer)
    (hheight : outer.height ≤ execution.stack.size) : Inside outer [] execution where
  frames_eq := by rw [hframes, List.append_nil]
  le_height := List.forall_mem_nil _
  low := List.forall_mem_nil _
  le_size := hheight

variable {outer : ReturnStack} {above : List Frame} (hinside : Inside outer above execution)
include hinside

/-- The height of the running function is that of the one at the start, or that of a frame above. -/
theorem height_cases : execution.state.frames.height = outer.height ∨
    ∃ frame ∈ above, execution.state.frames.height = frame.height := by
  rcases List.eq_nil_or_concat above with rfl | ⟨init, last, hconcat⟩
  · have hframes := hinside.frames_eq
    rw [List.append_nil] at hframes
    have hsame := ReturnStack.eq_of_frames (Array.toList_inj.mp hframes)
    exact .inl (congrArg ReturnStack.height hsame)
  · rw [List.concat_eq_append] at hconcat
    subst hconcat
    have hframes : execution.state.frames.frames = (outer.frames ++ init.toArray).push last := by
      apply Array.toList_inj.mp
      rw [hinside.frames_eq]
      simp
    exact .inr ⟨last, by simp, ReturnStack.height_of_frames hframes⟩

/-- The running function reaches no deeper than the one at the start. -/
theorem le_running : outer.height ≤ execution.state.frames.height := by
  rcases hinside.height_cases with hheight | ⟨frame, hmem, hheight⟩
  · exact Nat.le_of_eq hheight.symm
  · rw [hheight]
    exact hinside.le_height frame hmem

theorem running_low : execution.state.frames.height ≤ Limits.stack := by
  rcases hinside.height_cases with hheight | ⟨frame, hmem, hheight⟩
  · rw [hheight]
    exact Nat.le_trans hinside.le_size execution.stack.size_le
  · rw [hheight]
    exact hinside.low frame hmem

/-- A call puts its frame above the others. -/
theorem called {callee : Function} {fetched : Fetched} {frames : ReturnStack}
    (hreaches : execution.reaches callee.signature.inputs.toNat = true)
    (hpush : execution.state.frames.push (execution.frameFor fetched callee) = .ok frames) :
    Inside outer (above ++ [execution.frameFor fetched callee])
      { execution with state := ⟨fetched.callee, 0, frames⟩ } := by
  obtain ⟨_, hframes⟩ := ReturnStack.push_eq_ok_iff.mp hpush
  -- the arguments of the call were within reach of the caller
  have hcount := callee.signature.inputs.toNat_lt
  have henough := (reaches_iff_of_low hinside.running_low hcount).mp hreaches
  have hheight : (execution.frameFor fetched callee).height =
      execution.stack.size - callee.signature.inputs.toNat := height_frameFor (by omega)
  refine ⟨?_, ?_, ?_, hinside.le_size⟩
  · show frames.frames.toList = _
    rw [hframes, Array.toList_push, hinside.frames_eq, List.append_assoc]
  · intro frame hmem
    rcases List.mem_append.mp hmem with hold | hnew
    · exact hinside.le_height frame hold
    · obtain rfl := List.mem_singleton.mp hnew
      have hrunning := hinside.le_running
      omega
  · intro frame hmem
    rcases List.mem_append.mp hmem with hold | hnew
    · exact hinside.low frame hold
    · obtain rfl := List.mem_singleton.mp hnew
      have hsize := execution.stack.size_le
      omega

omit hinside in
/-- A return takes the last of the frames above, if there is one. -/
theorem returned {init : List Frame} {last frame : Frame} {frames : ReturnStack}
    (hinside : Inside outer (init ++ [last]) execution)
    (hpop : execution.state.frames.pop? = some (frame, frames)) :
    last = frame ∧
      Inside outer init { execution with state := ⟨frame.function, frame.pc, frames⟩ } := by
  have hframes := congrArg Array.toList (ReturnStack.pop?_eq_some_iff.mp hpop)
  rw [hinside.frames_eq, Array.toList_push, ← List.append_assoc] at hframes
  obtain ⟨hrest, hlast⟩ := List.append_inj' hframes rfl
  refine ⟨List.singleton_inj.mp hlast, hrest.symm, ?_, ?_, hinside.le_size⟩
  · exact fun other hmem => hinside.le_height other (List.mem_append_left _ hmem)
  · exact fun other hmem => hinside.low other (List.mem_append_left _ hmem)

/-- **A step stays inside, or takes the topmost of the old frames.** In the first case the function
that was called first does not change. -/
theorem next (hhost : host.StaysInReach)
    (hrunning : (execution.step program host).outcome = .running) :
    (∃ above', Inside outer above' (execution.step program host).after ∧
      lowest above' (execution.step program host).after.state.function =
        lowest above execution.state.function) ∨
    (above = [] ∧ ∃ function frame frames,
      program.function? execution.state.function = some function ∧
      execution.reaches function.signature.outputs.toNat = true ∧
      outer.pop? = some (frame, frames) ∧ (execution.step program host).after =
        { execution with state := ⟨frame.function, frame.pc, frames⟩ }) := by
  have hbelow : Stack.SameBelow outer.height (execution.step program host).after.stack
      execution.stack := sameBelow_step hhost hinside.running_low hinside.le_running
  have hsize := hbelow.le_size hinside.le_size
  have hmoved := moved_of_step hrunning
  generalize (execution.step program host).after = after at hmoved hsize ⊢
  cases hmoved with
  | stayed hfunction hframes =>
    have hinside' : Inside outer above after :=
      ⟨hframes ▸ hinside.frames_eq, hinside.le_height, hinside.low, hsize⟩
    exact .inl ⟨above, hinside', by rw [hfunction]⟩
  | called _ callee fetched frames _ _ _ hreaches hpush hafter =>
    subst hafter
    refine .inl ⟨_, hinside.called hreaches hpush, ?_⟩
    cases above with
    | nil => rfl
    | cons first rest => rfl
  | returned function _ frame frames hat _ hreaches hpop _ hafter =>
    subst hafter
    rcases List.eq_nil_or_concat above with rfl | ⟨init, last, hconcat⟩
    · -- there is no function left to return from but the one at the start
      have hframes := hinside.frames_eq
      rw [List.append_nil] at hframes
      rw [ReturnStack.eq_of_frames (Array.toList_inj.mp hframes)] at hpop
      exact .inr ⟨rfl, function, frame, frames, hat.function_eq, hreaches, hpop, rfl⟩
    · rw [List.concat_eq_append] at hconcat
      subst hconcat
      obtain ⟨rfl, hinit⟩ := hinside.returned hpop
      refine .inl ⟨init, hinit, ?_⟩
      cases init with
      | nil => rfl
      | cons first rest => rfl

end Inside

end Execution

end EvmObject.Machine
