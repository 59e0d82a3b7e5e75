import EvmObject.Container.Basic
import EvmObject.Proofs.Container.Preamble

/-!
# Where the errors of a container come from

The two classes of errors are defined by listing them. Here they are tied to the readers: whatever
goes wrong in the preamble is an error of the header (`Preamble.failsOnly_read`), and whatever goes
wrong behind it, in the layout of the sections or in the body, is one of the structure
(`failsOnly_decode`). So the class of an error says how far reading came.
-/

namespace EvmObject.Container

/-! ## The preamble -/

-- induction along the reader: only its ways out matter, not what it has read
theorem failsOnly_readDescriptors (bytes : Bytes) (done : List Descriptor) :
    FailsOnly (·.isHeader = true) (readDescriptors bytes done) := by
  fun_induction readDescriptors bytes done with
  | case1 => exact .error rfl
  | case2 => exact .ok _
  | case3 => exact .error rfl
  | case4 _ _ _ _ _ _ _ _ ih => exact ih
  | case5 => exact .error rfl

theorem Preamble.failsOnly_read (raw : Bytes) : FailsOnly (·.isHeader = true) (read raw) := by
  unfold read
  refine .ite (.error rfl) ?_
  split
  · exact .error rfl
  · refine .ite (.error rfl) ?_
    exact .bind (failsOnly_readDescriptors _ _) fun _ => .ok _

/-! ## Behind the preamble -/

namespace Header

theorem failsOnly_take (header : Header) (descriptor : Descriptor) :
    FailsOnly (·.isStructural = true) (header.take descriptor) := by
  unfold take
  split
  · exact .error rfl
  · exact .ite (.error rfl) (.ite (.error rfl) (.ok _))
  · exact .ite (.error rfl) (.ok _)
  · exact .ite (.error rfl) (.ite (.error rfl) (.ok _))

theorem failsOnly_checkCounts (header : Header) :
    FailsOnly (·.isStructural = true) header.checkCounts := by
  unfold checkCounts
  refine .ite (.error rfl) (.ite (.error rfl) (.ite ?_ ?_))
  · exact .ite (.ok _) (.error rfl)
  · exact .ite (.ok _) (.error rfl)

theorem failsOnly_ofDescriptors (version : UInt8) (descriptors : List Descriptor) :
    FailsOnly (·.isStructural = true) (ofDescriptors version descriptors) := by
  unfold ofDescriptors
  refine .bind (.foldlM failsOnly_take descriptors (bare version)) fun header => ?_
  exact .bind (failsOnly_checkCounts header) fun _ => .ok header

end Header

theorem Body.failsOnly_decode (raw : Bytes) (header : Header) :
    FailsOnly (Failure.ForCause (·.isStructural = true)) (decode raw header) := by
  unfold decode
  refine .ite (.error rfl) (.ite (.error rfl) (.ite ?_ (.ok _)))
  split
  · exact .error trivial
  · exact .ite (.ok _) (.error rfl)

/-- Behind a preamble that can be read, reading fails with errors of the structure. -/
theorem failsOnly_decode {raw : Bytes} {preamble : Preamble}
    (hread : Preamble.read raw = .ok preamble) :
    FailsOnly (Failure.ForCause (·.isStructural = true)) (decode raw) := by
  have hheader : FailsOnly (·.isStructural = true) (Header.decode raw) := by
    rw [Header.decode, hread, ok_bind]
    exact .bind (Header.failsOnly_ofDescriptors _ _) fun _ => .ok _
  unfold decode
  refine .bind hheader.ofExcept fun found => ?_
  exact .bind (Body.failsOnly_decode raw found.1) fun _ => .ok _

end EvmObject.Container
