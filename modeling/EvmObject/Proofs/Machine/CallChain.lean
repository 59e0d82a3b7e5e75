import EvmObject.Proofs.Container.Layout
import EvmObject.Proofs.Machine.Activations
import EvmObject.Proofs.Machine.ControlFlow
import EvmObject.Proofs.Machine.Fetch

/-!
# The frames are a chain of calls

Whatever a valid container does, the return frames tell how the machine got where it is: the bottom
frame belongs to the entry function, and each frame above it returns behind a call of the function
that runs on top of it. So a return ends the execution only if it is the return of the function that
the execution started with, which recursion into section 0 makes a different thing from a return out
of section 0.

`Chain` builds such frames call by call, and that is the form that a step keeps: a call adds a frame
at the top and a return takes it off. `IsCallChain` reads the same frames by their index.
-/

namespace EvmObject.Machine

open Validation (Validated)

/-! ## The statement -/

/-- The frame returns behind a call of the section, one that the analysis lists. A call is three
bytes long. -/
def Frame.ReturnsFrom (valid : Validated) (frame : Frame) (callee : Nat) : Prop :=
  ∃ analysis, valid.analysis? frame.function = some analysis ∧
    ∃ call ∈ analysis.calls, call.pc + 3 = frame.pc ∧ call.callee.toNat = callee

/-- The section that runs with the frame of an index: the frame above says where it will go on, and
if there is none it is the running one. -/
def sectionAt (frames : List Frame) (running index : Nat) : Nat :=
  (frames[index + 1]?.map (·.function)).getD running

/-- The frames and the data stack are those of calls that have not returned. -/
structure IsCallChain {σ : Type} (valid : Validated) (execution : Execution σ) : Prop where
  count : 1 ≤ execution.state.frames.size ∧ execution.state.frames.size ≤ 1024
  bottom : execution.state.frames.frames[0]? = some .bottom
  /-- What started is section 0. -/
  entry : sectionAt execution.state.frames.frames.toList execution.state.function 0 = 0
  /-- Every other frame returns behind a call of the section that runs with it. -/
  linked : ∀ index frame, 1 ≤ index → execution.state.frames.frames[index]? = some frame →
    frame.ReturnsFrom valid
      (sectionAt execution.state.frames.frames.toList execution.state.function index)
  heights : execution.state.frames.frames.toList.Pairwise fun lower upper =>
    lower.height ≤ upper.height
  /-- The topmost of these heights is within the data stack. -/
  height_le : execution.state.frames.height ≤ execution.stack.size
  size_le : execution.stack.size ≤ 1024

/-- How many of the first `n` steps find a byte at the position of the machine. -/
def Execution.countOf {σ : Type} (valid : Validated) (host : Host σ) (byte : UInt8) :
    (n : Nat) → Execution σ → Nat
  | 0, _ => 0
  | n + 1, execution =>
    (if valid.byteAt? execution.state.function execution.state.pc = some byte then 1 else 0) +
      countOf valid host byte n (execution.step (Program.ofValidated valid) host).after

/-! ## Chains, call by call -/

/-- The frames are those of calls that lead from the entry function to the section. -/
inductive Chain (valid : Validated) : List Frame → Nat → Prop where
  | entry : Chain valid [.bottom] 0
  | call (frames : List Frame) (frame : Frame) (callee : Nat)
      (hfront : Chain valid frames frame.function) (hcall : frame.ReturnsFrom valid callee) :
      Chain valid (frames ++ [frame]) callee

section
variable {frames : List Frame} {frame : Frame} {running index : Nat}

/-- Below the top a new frame changes nothing: it says that its own section goes on there. -/
theorem sectionAt_append (hindex : index < frames.length) :
    sectionAt (frames ++ [frame]) running index = sectionAt frames frame.function index := by
  unfold sectionAt
  rcases Nat.lt_or_eq_of_le (Nat.succ_le_of_lt hindex) with hless | hlast
  · rw [List.getElem?_append_left hless, List.getElem?_eq_getElem hless]
    rfl
  · have hnext : index + 1 = frames.length := hlast
    rw [hnext, List.getElem?_concat_length, List.getElem?_eq_none (Nat.le_refl _)]
    rfl

theorem sectionAt_length : sectionAt (frames ++ [frame]) running frames.length = running := by
  unfold sectionAt
  rw [List.getElem?_eq_none (by simp)]
  rfl

end

namespace Chain

variable {valid : Validated} {frames : List Frame} {frame : Frame} {running : Nat}

/-- The last call of a chain comes off, and the rest leads to the section that called. -/
theorem front (hchain : Chain valid (frames ++ [frame]) running) (hmore : frames ≠ []) :
    Chain valid frames frame.function := by
  generalize hall : frames ++ [frame] = all at hchain
  cases hchain with
  | entry =>
    -- one frame alone has none below it
    have hlength := congrArg List.length hall
    simp only [List.length_append, List.length_singleton, Nat.add_eq_right] at hlength
    exact absurd (List.eq_nil_of_length_eq_zero hlength) hmore
  | call frames' frame' _ hfront _ =>
    obtain ⟨hframes, hframe⟩ := List.append_inj' hall rfl
    rw [hframes, List.singleton_inj.mp hframe]
    exact hfront

theorem length_pos (hchain : Chain valid frames running) : 0 < frames.length := by
  cases hchain with
  | entry => exact Nat.one_pos
  | call frames frame _ _ _ =>
    rw [List.length_append]
    exact Nat.succ_pos _

theorem getElem?_zero (hchain : Chain valid frames running) : frames[0]? = some .bottom := by
  induction hchain with
  | entry => rfl
  | call frames frame _ hfront _ ih => rw [List.getElem?_append_left hfront.length_pos, ih]

/-- What the bottom frame belongs to is section 0. -/
theorem sectionAt_zero (hchain : Chain valid frames running) :
    sectionAt frames running 0 = 0 := by
  induction hchain with
  | entry => rfl
  | call frames frame _ hfront _ ih => rw [sectionAt_append hfront.length_pos, ih]

/-- **In a chain every frame but the bottom one returns behind a call** of the section that runs
with it. -/
theorem returnsFrom (hchain : Chain valid frames running) {index : Nat} {frame : Frame}
    (hpos : 1 ≤ index) (hframe : frames[index]? = some frame) :
    frame.ReturnsFrom valid (sectionAt frames running index) := by
  induction hchain generalizing frame with
  | entry =>
    rw [List.getElem?_eq_none (by simpa using hpos)] at hframe
    cases hframe
  | call frames top callee _ hcall ih =>
    obtain ⟨hlt, _⟩ := List.getElem?_eq_some_iff.mp hframe
    rw [List.length_append, List.length_singleton] at hlt
    rcases Nat.lt_or_eq_of_le (Nat.le_of_lt_succ hlt) with hless | rfl
    · rw [List.getElem?_append_left hless] at hframe
      rw [sectionAt_append hless]
      exact ih hframe
    · -- the new frame is the one of the call that leads to the running section
      rw [List.getElem?_concat_length] at hframe
      obtain rfl := Option.some.inj hframe
      rw [sectionAt_length]
      exact hcall

end Chain

/-! ## Heights -/

/-- No frame reaches deeper than one below it. -/
def ReturnStack.Ascends (stack : ReturnStack) : Prop :=
  stack.frames.toList.Pairwise fun lower upper => lower.height ≤ upper.height

namespace ReturnStack

variable {stack after : ReturnStack} {frame : Frame}

theorem Ascends.le_height (hascends : stack.Ascends) (hmem : frame ∈ stack.frames.toList) :
    frame.height ≤ stack.height := by
  rcases List.eq_nil_or_concat stack.frames.toList with hnil | ⟨init, last, hconcat⟩
  · rw [hnil] at hmem
    exact absurd hmem List.not_mem_nil
  · rw [List.concat_eq_append] at hconcat
    have hframes : stack.frames = init.toArray.push last := by
      apply Array.toList_inj.mp
      rw [hconcat, Array.toList_push]
    unfold Ascends at hascends
    rw [hconcat] at hascends hmem
    rw [height_of_frames hframes]
    rcases List.mem_append.mp hmem with hinit | hlast
    · exact (List.pairwise_append.mp hascends).2.2 frame hinit last List.mem_cons_self
    · exact Nat.le_of_eq (congrArg Frame.height (List.mem_singleton.mp hlast))

/-- **One more frame keeps the order exactly if it is no lower than the top.** -/
theorem ascends_push_iff (hframes : after.frames = stack.frames.push frame) :
    after.Ascends ↔ stack.Ascends ∧ stack.height ≤ frame.height := by
  unfold Ascends
  rw [hframes, Array.toList_push, List.pairwise_append]
  constructor
  · rintro ⟨hbelow, _, hacross⟩
    refine ⟨hbelow, ?_⟩
    cases htop : stack.top? with
    | none =>
      rw [height, htop]
      exact Nat.zero_le _
    | some top =>
      have hmem : top ∈ stack.frames.toList := by
        rw [Array.mem_toList_iff]
        exact Array.mem_of_back? htop
      rw [height, htop]
      exact hacross top hmem frame List.mem_cons_self
  · rintro ⟨hbelow, htop⟩
    refine ⟨hbelow, List.pairwise_singleton _ _, fun lower hmem upper hupper => ?_⟩
    rw [List.mem_singleton.mp hupper]
    exact Nat.le_trans (Ascends.le_height hbelow hmem) htop

end ReturnStack

/-! ## One step -/

/-- The frames are a chain that leads to the running section, and its heights ascend to the data
stack. -/
structure Execution.Chained {σ : Type} (valid : Validated) (execution : Execution σ) : Prop where
  chain : Chain valid execution.state.frames.frames.toList execution.state.function
  ascends : execution.state.frames.Ascends
  height_le : execution.state.frames.height ≤ execution.stack.size

namespace Execution

variable {σ : Type} {valid : Validated} {execution : Execution σ}

theorem chained_initial (state : σ) : (Execution.initial state).Chained valid where
  chain := .entry
  ascends := List.pairwise_singleton _ _
  height_le := Nat.le_refl 0

theorem Chained.low (hchained : execution.Chained valid) :
    execution.state.frames.height ≤ Limits.stack :=
  Nat.le_trans hchained.height_le execution.stack.size_le

/-- The frame of a call returns behind that call. -/
theorem returnsFrom_frameFor {function callee : Function} {fetched : Fetched}
    (htrack : execution.state.OnTrack valid)
    (hat : execution.Fetches (Program.ofValidated valid) function fetched)
    (hbyte : fetched.opcode.byte = Opcode.callf) :
    (execution.frameFor fetched callee).ReturnsFrom valid fetched.callee := by
  obtain ⟨_, split, item, op, hstands, hhere⟩ := exists_standsAt htrack
  obtain ⟨rfl, rfl⟩ := hhere.unique hat
  have hcall : item.byte = Opcode.callf := hstands.byte_eq ▸ hbyte
  have htwo := hstands.loaded.wellFormed.tiled.length_of_callf hstands.mem hcall
  obtain ⟨analysis, hanalysis, hdescribes, _⟩ := hstands.loaded.analysis
  refine ⟨analysis, hanalysis, ⟨item.pc, UInt16.ofNat (Bytes.toNat item.immediate)⟩, ?_, ?_, ?_⟩
  · rw [hdescribes.calls, List.mem_map]
    exact ⟨item, List.mem_filter.mpr ⟨hstands.mem, decide_eq_true hcall⟩, rfl⟩
  · show item.pc + 3 = item.next
    rw [Code.Item.next, htwo]
  · show (UInt16.ofNat (Bytes.toNat item.immediate)).toNat = _
    rw [hstands.loaded.callee_eq hstands.mem hcall, UInt16.toNat_ofNat',
      Nat.mod_eq_of_lt (Code.toNat_lt_of_length htwo)]

/-- A call adds its frame to the chain, and a frame no lower than the top. -/
theorem Chained.called (hchained : execution.Chained valid) {callee : Function} {fetched : Fetched}
    {frames : ReturnStack}
    (hreturns : (execution.frameFor fetched callee).ReturnsFrom valid fetched.callee)
    (hreaches : execution.reaches callee.signature.inputs.toNat = true)
    (hpush : execution.state.frames.push (execution.frameFor fetched callee) = .ok frames) :
    Chained valid { execution with state := ⟨fetched.callee, 0, frames⟩ } := by
  obtain ⟨_, hframes⟩ := ReturnStack.push_eq_ok_iff.mp hpush
  have hcount := callee.signature.inputs.toNat_lt
  have henough := (reaches_iff_of_low hchained.low hcount).mp hreaches
  have hheight : (execution.frameFor fetched callee).height =
      execution.stack.size - callee.signature.inputs.toNat := height_frameFor (by omega)
  refine ⟨?_, (ReturnStack.ascends_push_iff hframes).mpr ⟨hchained.ascends, ?_⟩, ?_⟩
  · show Chain valid frames.frames.toList fetched.callee
    rw [hframes, Array.toList_push]
    exact .call _ _ _ hchained.chain hreturns
  · omega
  · show frames.height ≤ execution.stack.size
    rw [ReturnStack.height_of_frames hframes, hheight]
    exact Nat.sub_le _ _

/-- A return takes the last call off the chain. -/
theorem Chained.returned (hchained : execution.Chained valid) {frame : Frame} {frames : ReturnStack}
    (hpop : execution.state.frames.pop? = some (frame, frames)) (hmore : frames.isEmpty = false) :
    Chained valid { execution with state := ⟨frame.function, frame.pc, frames⟩ } := by
  have hframes := ReturnStack.pop?_eq_some_iff.mp hpop
  have hchain := hchained.chain
  rw [hframes, Array.toList_push] at hchain
  obtain ⟨hascends, hle⟩ := (ReturnStack.ascends_push_iff hframes).mp hchained.ascends
  refine ⟨hchain.front ?_, hascends, ?_⟩
  · intro hnil
    rw [ReturnStack.isEmpty, Array.toList_eq_nil_iff.mp hnil] at hmore
    cases hmore
  · -- the heights descend with the frames, and the data stack stays
    have htop : execution.state.frames.height = frame.height := ReturnStack.height_of_frames hframes
    have hheight := hchained.height_le
    show frames.height ≤ execution.stack.size
    omega

/-- **A step keeps the chain,** for a host that leaves the words of the callers alone. -/
theorem Chained.step {host : Host σ} (hhost : host.StaysInReach)
    (htrack : execution.state.OnTrack valid) (hchained : execution.Chained valid)
    (hrunning : (execution.step (Program.ofValidated valid) host).outcome = .running) :
    (execution.step (Program.ofValidated valid) host).after.Chained valid := by
  have hbelow : Stack.SameBelow execution.state.frames.height
      (execution.step (Program.ofValidated valid) host).after.stack execution.stack :=
    sameBelow_step hhost hchained.low (Nat.le_refl _)
  have hsize := hbelow.le_size hchained.height_le
  have hmoved := moved_of_step hrunning
  generalize (execution.step (Program.ofValidated valid) host).after = after at hmoved hsize ⊢
  cases hmoved with
  | stayed hfunction hframes =>
    refine ⟨?_, ?_, ?_⟩
    · rw [hfunction, hframes]
      exact hchained.chain
    · rw [hframes]
      exact hchained.ascends
    · rw [hframes]
      exact hsize
  | called _ _ _ _ hat hbyte _ hreaches hpush hafter =>
    rw [hafter]
    exact hchained.called (returnsFrom_frameFor htrack hat hbyte) hreaches hpush
  | returned _ _ _ _ _ _ _ hpop hmore hafter =>
    rw [hafter]
    exact hchained.returned hpop hmore

/-- Calls and returns are what changes the number of frames, by one each. -/
theorem size_frames_step {config : Validation.Config} {raw : Bytes}
    (hvalid : Validation.validate config raw = .ok valid) {host : Host σ}
    (hrunning : (execution.step (Program.ofValidated valid) host).outcome = .running) :
    let byte? := valid.byteAt? execution.state.function execution.state.pc
    (execution.step (Program.ofValidated valid) host).after.state.frames.size +
        (if byte? = some Opcode.retf then 1 else 0) =
      execution.state.frames.size + (if byte? = some Opcode.callf then 1 else 0) := by
  intro byte?
  -- an instruction that is neither a call nor a return leaves the frames
  have hother {function : Function} {fetched : Fetched}
      (hat : execution.Fetches (Program.ofValidated valid) function fetched)
      (hcallf : fetched.opcode.byte ≠ Opcode.callf) (hretf : fetched.opcode.byte ≠ Opcode.retf) :
      byte? ≠ some Opcode.retf ∧ byte? ≠ some Opcode.callf := by
    rw [show byte? = some fetched.opcode.byte from hat.byteAt?_eq hvalid]
    exact ⟨fun h => hretf (Option.some.inj h), fun h => hcallf (Option.some.inj h)⟩
  have hcases := step_cases (Program.ofValidated valid) host execution
  generalize execution.step (Program.ofValidated valid) host = taken at hcases hrunning ⊢
  cases hcases with
  | noFunction => cases hrunning
  | noInstruction => cases hrunning
  | stop => cases hrunning
  | invalid => cases hrunning
  | call _ _ _ hat hbyte hcase =>
    have hcallf : byte? = some Opcode.callf := hbyte ▸ hat.byteAt?_eq hvalid
    cases hcase with
    | unknown => cases hrunning
    | short => cases hrunning
    | full => cases hrunning
    | entered _ frames _ _ hpush =>
      obtain ⟨_, hframes⟩ := ReturnStack.push_eq_ok_iff.mp hpush
      rw [hcallf]
      exact ReturnStack.size_of_frames hframes
  | ret _ _ _ hat hbyte hcase =>
    have hretf : byte? = some Opcode.retf := hbyte ▸ hat.byteAt?_eq hvalid
    cases hcase with
    | short => cases hrunning
    | noFrame => cases hrunning
    | last => cases hrunning
    | returned _ frames _ hpop _ =>
      rw [hretf]
      exact (ReturnStack.size_of_frames (ReturnStack.pop?_eq_some_iff.mp hpop)).symm
  | jump _ _ _ hat hbyte hcase =>
    obtain ⟨hretf, hcallf⟩ := hother hat (by rw [hbyte]; decide) (by rw [hbyte]; decide)
    rw [if_neg hretf, if_neg hcallf]
    cases hcase with
    | nowhere => cases hrunning
    | taken => rfl
  | branch _ _ _ hat hbyte hcase =>
    obtain ⟨hretf, hcallf⟩ := hother hat (by rw [hbyte]; decide) (by rw [hbyte]; decide)
    rw [if_neg hretf, if_neg hcallf]
    cases hcase with
    | short => cases hrunning
    | unread => cases hrunning
    | untaken => rfl
    | nowhere => cases hrunning
    | taken => rfl
  | host _ _ _ hat hbyte hcase =>
    simp only [IsControl, not_or] at hbyte
    obtain ⟨_, _, hnotCallf, hnotRetf, _⟩ := hbyte
    obtain ⟨hretf, hcallf⟩ := hother hat hnotCallf hnotRetf
    rw [if_neg hretf, if_neg hcallf]
    cases hcase with
    | short => cases hrunning
    | failed => cases hrunning
    | ended => cases hrunning
    | done => rfl

/-! ## Whole runs -/

variable {after : Execution σ} {config : Validation.Config} {raw : Bytes}
  (hvalid : Validation.validate config raw = .ok valid) {host : Host σ}
include hvalid

/-- **The frames that are left are the calls that have not returned,** one more for the function
that the run started with. -/
theorem size_frames_run {n : Nat}
    (hrun : execution.runWithin (Program.ofValidated valid) host n = (.running, after)) :
    after.state.frames.size + countOf valid host Opcode.retf n execution =
      execution.state.frames.size + countOf valid host Opcode.callf n execution := by
  induction n generalizing execution with
  | zero =>
    obtain ⟨_, rfl⟩ := Prod.mk.inj hrun
    rfl
  | succ n ih =>
    obtain ⟨hrunning, hrest⟩ := runWithin_succ_eq_running_iff.mp hrun
    have hlater := ih hrest
    have hfirst := size_frames_step hvalid hrunning
    rw [countOf, countOf]
    omega

/-- A run from the start keeps to the track and to a chain of calls. -/
theorem chained_of_run (hreach : host.StaysInReach) (htrack : host.KeepsTrack) {state : σ} {n : Nat}
    (hrun : (Execution.initial state).runWithin (Program.ofValidated valid) host n =
      (.running, after)) :
    after.state.OnTrack valid ∧ after.Chained valid := by
  have hall : ∀ index < valid.codeCount, ∃ function split, Loaded valid index function split :=
    fun index hindex => exists_loaded hvalid hindex
  refine runWithin_induction
    (P := fun execution => execution.state.OnTrack valid ∧ execution.Chained valid) ?_ ?_ hrun
  · intro execution hbefore hrunning
    exact ⟨(OnTrack.step hall htrack hbefore.1).after hrunning,
      hbefore.2.step hreach hbefore.1 hrunning⟩
  · exact ⟨onTrack_initial (hall 0 (codeCount_pos hvalid)) state, chained_initial state⟩

omit hvalid in
/-- Frames that were put together call by call are a chain by their indices. -/
theorem Chained.isCallChain (hchained : execution.Chained valid) : IsCallChain valid execution where
  count := by
    refine ⟨?_, execution.state.frames.bounded⟩
    have hpos := hchained.chain.length_pos
    rwa [Array.length_toList] at hpos
  bottom := by
    rw [← Array.getElem?_toList]
    exact hchained.chain.getElem?_zero
  entry := hchained.chain.sectionAt_zero
  linked index frame hpos hframe := by
    rw [← Array.getElem?_toList] at hframe
    exact hchained.chain.returnsFrom hpos hframe
  heights := hchained.ascends
  height_le := hchained.height_le
  size_le := execution.stack.size_le

/-- With one frame left section 0 runs. It has no outputs, and no word is out of its reach. -/
theorem Chained.reaches_of_size_eq_one (hchained : execution.Chained valid)
    (hone : execution.state.frames.size = 1) {function : Function}
    (hfunction : (Program.ofValidated valid).function? execution.state.function = some function) :
    execution.reaches function.signature.outputs.toNat = true := by
  have hchain := hchained.isCallChain
  -- there is no frame above the bottom one, so the running section is the one that it belongs to
  have hzero : execution.state.function = 0 := by
    have hentry := hchain.entry
    unfold sectionAt at hentry
    rwa [List.getElem?_eq_none (Nat.le_of_eq (Array.length_toList.trans hone))] at hentry
  have hheight : execution.state.frames.height = 0 := by
    have htop : execution.state.frames.top? = some .bottom := by
      unfold ReturnStack.top?
      rw [Array.back?_eq_getElem?, show execution.state.frames.frames.size = 1 from hone]
      exact hchain.bottom
    rw [ReturnStack.height, htop]
    rfl
  have houtputs : function.signature = .entry := by
    obtain ⟨_, _, hdecode, _⟩ := Validation.validate_eq_ok_iff.mp hvalid
    obtain ⟨_, _, hlayout⟩ := Container.layout_of_decode hdecode
    obtain ⟨_, hloaded⟩ := exists_loaded_of_function? hvalid hfunction
    have hsignature := hloaded.signature_eq
    rw [hzero, hlayout.signature?_eq, hlayout.entry] at hsignature
    exact (Option.some.inj hsignature).symm
  apply reaches_of_le
  rw [hheight, houtputs]
  exact Nat.zero_le _

/-- **A return ends the execution exactly if no other frame is left.** -/
theorem Chained.halts_iff (hchained : execution.Chained valid) {function : Function}
    {fetched : Fetched} (hat : execution.Fetches (Program.ofValidated valid) function fetched)
    (hbyte : fetched.opcode.byte = Opcode.retf) (ending : Halt) :
    (execution.step (Program.ofValidated valid) host).outcome = .halted ending ↔
      ending = .stopped ∧ execution.state.frames.size = 1 := by
  have hstep : execution.step (Program.ofValidated valid) host = execution.ret function :=
    (StepCase.ret function fetched _ hat hbyte (ret_cases ..)).eq_step.symm
  have hcases := ret_cases execution function
  rw [hstep]
  generalize execution.ret function = taken at hcases ⊢
  cases hcases with
  | short hshort =>
    constructor
    · intro hhalted
      cases hhalted
    · rintro ⟨_, hone⟩
      rw [hchained.reaches_of_size_eq_one hvalid hone hat.function_eq] at hshort
      cases hshort
  | noFrame _ hempty =>
    -- a chain has a frame
    have hpos := hchained.isCallChain.count.1
    rw [ReturnStack.isEmpty_iff_size] at hempty
    omega
  | last frame frames _ hpop hlast =>
    have hsize := ReturnStack.size_of_frames (ReturnStack.pop?_eq_some_iff.mp hpop)
    rw [ReturnStack.isEmpty_iff_size] at hlast
    constructor
    · intro hhalted
      exact ⟨(Outcome.halted.inj hhalted).symm, by omega⟩
    · rintro ⟨hending, _⟩
      rw [hending]
      rfl
  | returned frame frames _ hpop hmore =>
    have hsize := ReturnStack.size_of_frames (ReturnStack.pop?_eq_some_iff.mp hpop)
    have hsome : frames.size ≠ 0 := by
      intro hnone
      rw [ReturnStack.isEmpty_iff_size.mpr hnone] at hmore
      cases hmore
    constructor
    · intro hhalted
      cases hhalted
    · rintro ⟨_, hone⟩
      omega

end Execution

/-- **The return frames are always a chain of calls.** Take a valid container and any number of
steps with the stack-only host that have all gone on. Then there are between one and 1024 frames,
and at the bottom is the frame of the entry function, which is section 0. Every other frame returns
behind a call that the analysis of its section lists, and that call names the section which runs
with it. The heights ascend and end within the data stack. There are as many frames as there were
calls without a return, and one. So a return ends the execution exactly if it is that of the
function that the execution started with. -/
theorem frames_form_call_chain {config : Validation.Config} {raw : Bytes} {valid : Validated}
    (hvalid : Validation.validate config raw = .ok valid) (trace : StackHost.Trace) (n : Nat)
    (execution : Execution StackHost.Trace)
    (hrun : (Execution.initial trace).runWithin (Program.ofValidated valid) stackHost n =
      (.running, execution)) :
    IsCallChain valid execution ∧
      execution.state.frames.size +
          Execution.countOf valid stackHost Opcode.retf n (Execution.initial trace) =
        1 + Execution.countOf valid stackHost Opcode.callf n (Execution.initial trace) ∧
      (valid.byteAt? execution.state.function execution.state.pc = some Opcode.retf →
        ∀ ending, (execution.step (Program.ofValidated valid) stackHost).outcome = .halted ending ↔
          ending = .stopped ∧ execution.state.frames.size = 1) := by
  obtain ⟨htrack, hchained⟩ :=
    Execution.chained_of_run hvalid stackHost_staysInReach stackHost_keepsTrack hrun
  refine ⟨hchained.isCallChain, Execution.size_frames_run hvalid hrun, fun hretf => ?_⟩
  obtain ⟨_, _, _, _, _, hat⟩ := Execution.exists_standsAt htrack
  exact hchained.halts_iff hvalid hat (Option.some.inj ((hat.byteAt?_eq hvalid).symm.trans hretf))

/-- Four steps push, push, call and add. The machine stands at a return, with a frame that returns
behind the call, and goes on. -/
theorem frames_form_call_chain_sum :
    ∃ execution, Validation.validate .default (Container.ofBody sumBody).raw = .ok sumValid ∧
      (Execution.initial []).runWithin (Program.ofValidated sumValid) stackHost 4 =
        (.running, execution) ∧
      execution.state.frames.frames = #[.bottom, ⟨0, 7, 0⟩] ∧
      Frame.ReturnsFrom sumValid ⟨0, 7, 0⟩ 1 ∧
      sumValid.byteAt? execution.state.function execution.state.pc = some Opcode.retf ∧
      ∀ ending, (execution.step (Program.ofValidated sumValid) stackHost).outcome ≠
        .halted ending := by
  have hvalid : Validation.validate .default (Container.ofBody sumBody).raw = .ok sumValid :=
    eq_ok_of_toOption (by decide +kernel)
  have hrunning : ((Execution.initial []).runWithin (Program.ofValidated sumValid) stackHost 4).1 =
      .running := by decide +kernel
  have hframes : ((Execution.initial []).runWithin (Program.ofValidated sumValid) stackHost
      4).2.state.frames.frames = #[.bottom, ⟨0, 7, 0⟩] := by decide +kernel
  have hposition : ((Execution.initial []).runWithin (Program.ofValidated sumValid) stackHost
      4).2.state.function = 1 ∧ ((Execution.initial []).runWithin (Program.ofValidated sumValid)
        stackHost 4).2.state.pc = 1 := by decide +kernel
  cases hrun : (Execution.initial []).runWithin (Program.ofValidated sumValid) stackHost 4 with
  | mk outcome execution =>
    rw [hrun] at hrunning hframes hposition
    obtain rfl : outcome = .running := hrunning
    obtain ⟨hfunction, hpc⟩ := hposition
    obtain ⟨hchain, _, hhalts⟩ := frames_form_call_chain hvalid [] 4 execution hrun
    have hlinked := hchain.linked 1 ⟨0, 7, 0⟩ (Nat.le_refl 1) (by rw [hframes]; rfl)
    rw [hframes, hfunction] at hlinked
    have hretf : sumValid.byteAt? execution.state.function execution.state.pc =
        some Opcode.retf := by
      rw [hfunction, hpc]
      decide +kernel
    refine ⟨execution, hvalid, rfl, hframes, hlinked, hretf, fun ending hhalted => ?_⟩
    -- two frames are left, so the return has somewhere to go
    obtain ⟨_, hone⟩ := (hhalts hretf ending).mp hhalted
    unfold ReturnStack.size at hone
    rw [hframes] at hone
    exact absurd hone (by decide)

end EvmObject.Machine
