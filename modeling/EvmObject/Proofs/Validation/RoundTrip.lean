import EvmObject.Proofs.Validation.Stages

/-!
# Reading and writing back

A container that is read is written back byte for byte, and its body alone makes up the whole
container again: the header, which the reader took from the descriptors, is the one that the body
computes from its section ends. So nothing is lost if a container is passed on as bytes, and
validating it twice is the same as validating it once.
-/

namespace EvmObject.Validation

/-- **Reading then writing is the identity.** Whatever bytes are read as a container, the container
writes the same bytes, has their size, and is made up by its body. So what validation accepts it
accepts again from the written form, with the same result. -/
theorem decode_encode_identity (raw : Bytes) :
    (∀ container, Container.decode raw = .ok container →
      container.encode = raw ∧ container.size = raw.length ∧
        Container.ofBody container.body = container) ∧
      ∀ config valid, validate config raw = .ok valid →
        validate config valid.container.encode = .ok valid := by
  refine ⟨fun container hdecode => ?_, fun config valid hvalid => ?_⟩
  · have hread := Container.readFrom_of_decode hdecode
    exact ⟨hread.encode_eq, hread.size_eq, Container.ofBody_of_decode hdecode⟩
  · obtain ⟨_, _, hdecode, _⟩ := validate_eq_ok_iff.mp hvalid
    rw [(Container.readFrom_of_decode hdecode).encode_eq]
    exact hvalid

/-- Three sections with their signatures and three bytes of data are read from 46 bytes and valid,
and all of this holds of them. -/
theorem decode_encode_identity_relay :
    let container := Container.ofBody (relayBody 2)
    (Container.decode container.raw = .ok container ∧ container.raw.length = 46 ∧
        validate .default container.raw = .ok relayValid) ∧
      (container.encode = container.raw ∧ container.size = 46 ∧
        Container.ofBody container.body = container) ∧
      validate .default relayValid.container.encode = .ok relayValid := by
  intro container
  have hdecode : Container.decode container.raw = .ok container :=
    eq_ok_of_toOption (by decide +kernel)
  have hlength : container.raw.length = 46 := by decide +kernel
  have hvalid : validate .default container.raw = .ok relayValid :=
    eq_ok_of_toOption (by decide +kernel)
  obtain ⟨hread, hagain⟩ := decode_encode_identity container.raw
  obtain ⟨hencode, hsize, hbody⟩ := hread container hdecode
  exact ⟨⟨hdecode, hlength, hvalid⟩, ⟨hencode, hsize.trans hlength, hbody⟩,
    hagain .default relayValid hvalid⟩

end EvmObject.Validation
