import EvmObject.Machine.StackHost
import EvmObject.Proofs.Container.Encodable
import EvmObject.Proofs.Machine.HostCalls
import EvmObject.Proofs.Machine.Stack
import EvmObject.Proofs.Validation.Stages

/-!
# Code in another package

The version of a container, its data, and whether the signatures of a single section are written say
nothing about its code, but each of them moves every offset behind it. `Body.repack` changes all
three, and `repacked_runs_alike` says that the code does not notice: the new container is valid, its
sections, signatures and jump tables are the old ones, and so is every run.
-/

namespace EvmObject.Container.Body

/-! ## Another package -/

/-- The body with another version, other data, and the signatures written or not. -/
def repack (body : Body) (version : UInt8) (data : Bytes) (isTypesImplicit : Bool) : Body :=
  { body with version, data, isTypesImplicit }

variable {body : Body} {version : UInt8} {data : Bytes} {isTypesImplicit : Bool}

/-- A single section has the signature that need not be written. -/
theorem Consistent.signatures_of_one (hconsistent : body.Consistent) (hencodable : body.Encodable)
    (hone : body.codeCount = 1) : body.signatures = #[.entry] := by
  rcases hencodable.signatures with ⟨himplicit, _⟩ | ⟨_, hsize, hentry⟩
  · exact hconsistent.signatures_of_implicit himplicit
  · rw [hone] at hsize
    obtain ⟨signature, hsignatures⟩ := Array.size_eq_one_iff.mp hsize
    rw [hsignatures] at hentry ⊢
    obtain rfl : signature = .entry := Option.some.inj hentry
    rfl

section
variable (hconsistent : body.Consistent) (hencodable : body.Encodable)
  (himplicit : isTypesImplicit = body.isTypesImplicit ∨ body.codeCount = 1)
include hconsistent hencodable himplicit

theorem Consistent.repack : (body.repack version data isTypesImplicit).Consistent where
  sorted := hconsistent.sorted
  last := hconsistent.last
  signatures := by
    show if isTypesImplicit then body.signatures = #[.entry] else body.signatures ≠ #[]
    rcases himplicit with rfl | hone
    · exact hconsistent.signatures
    · rw [hconsistent.signatures_of_one hencodable hone]
      cases isTypesImplicit <;> simp

theorem Encodable.repack (hversion : version ≠ 0) (hdata : data.length < 0x10000) :
    (body.repack version data isTypesImplicit).Encodable where
  version_ne := hversion
  count := hencodable.count
  sizes := hencodable.sizes
  data := hdata
  signatures := by
    show isTypesImplicit = true ∧ body.codeCount = 1 ∨ isTypesImplicit = false ∧
      body.signatures.size = body.codeCount ∧ body.signatures[0]? = some .entry
    rcases himplicit with rfl | hone
    · exact hencodable.signatures
    · rw [hconsistent.signatures_of_one hencodable hone, hone]
      cases isTypesImplicit <;> simp

end

end EvmObject.Container.Body

namespace EvmObject.Machine

open Container (ofBody)
open Validation (Validated)

/-! ## The same code -/

theorem validate_repack {config : Validation.Config} {raw : Bytes} {valid : Validated}
    (hvalid : Validation.validate config raw = .ok valid) {version : UInt8} {data : Bytes}
    {isTypesImplicit : Bool} (hversion : version ≠ 0) (hdata : data.length < 0x10000)
    (himplicit : isTypesImplicit = valid.container.body.isTypesImplicit ∨
      valid.container.body.codeCount = 1) :
    let body := valid.container.body.repack version data isTypesImplicit
    Validation.validate .default (ofBody body).raw = .ok ⟨ofBody body, valid.analyses⟩ := by
  intro body
  obtain ⟨_, _, hdecode, hcode⟩ := Validation.validate_eq_ok_iff.mp hvalid
  have hconsistent := Container.consistent_of_decode hdecode
  have hencodable := Container.encodable_of_decode hdecode
  have hread : Container.decode (ofBody body).raw = .ok (ofBody body) :=
    (Container.decode_ofBody_eq_ok_iff (hconsistent.repack hencodable himplicit)).mpr
      ⟨rfl, hencodable.repack hconsistent himplicit hversion hdata⟩
  have hallows : Validation.Config.default.allowsVersion version = true := by
    simp [Validation.Config.allowsVersion, Validation.Config.default, hversion]
  -- the analysis looks at the section ends and the code, and these are the old ones
  exact Validation.validate_eq_ok_iff.mpr ⟨rfl, hallows, hread, hcode⟩

/-- **Data, version and the way signatures are written never influence code.** Take any valid
container, and give its body any version but zero, any data that can be declared, and, if it has a
single section, its signatures written or not. The container of that body is valid with the same
analyses, its program is the same, and under every host every run goes the same way, to the same
outcome, position and data stack, with the host asked for the same instructions on the way. -/
theorem repacked_runs_alike {config : Validation.Config} {raw : Bytes} {valid : Validated}
    (hvalid : Validation.validate config raw = .ok valid) (version : UInt8) (data : Bytes)
    (isTypesImplicit : Bool) (hversion : version ≠ 0) (hdata : data.length ≤ 0xFFFF)
    (himplicit : isTypesImplicit = valid.container.body.isTypesImplicit ∨
      valid.container.body.codeCount = 1) :
    let body := valid.container.body.repack version data isTypesImplicit
    ∃ other, Validation.validate .default (ofBody body).raw = .ok other ∧
      other.container.body = body ∧ other.analyses = valid.analyses ∧
      Program.ofValidated other = Program.ofValidated valid ∧
      ∀ {σ : Type} (host : Host σ) (state : σ) (n : Nat),
        (Execution.initial state).runWithin (.ofValidated other) host n =
            (Execution.initial state).runWithin (.ofValidated valid) host n ∧
          (Execution.initial state).hostCalls (.ofValidated other) host n =
            (Execution.initial state).hostCalls (.ofValidated valid) host n := by
  intro body
  have hother := validate_repack hvalid hversion (Nat.lt_succ_of_le hdata) himplicit
  have hprogram : Program.ofValidated ⟨ofBody body, valid.analyses⟩ = .ofValidated valid := rfl
  refine ⟨_, hother, rfl, rfl, hprogram, fun host state n => ?_⟩
  rw [hprogram]
  exact ⟨rfl, rfl⟩

/-- A body of one section that adds two numbers and has its signature written. -/
def additionBody : Container.Body :=
  ⟨1, #[.entry], #[6], [0x60, 1, 0x60, 2, 0x01, 0x00], [], false⟩

/-- The container of that body with its analysis. -/
def additionValid : Validated :=
  ⟨ofBody additionBody,
    [⟨[⟨0, 0x60, 1⟩, ⟨2, 0x60, 1⟩, ⟨4, 0x01, 0⟩, ⟨5, 0x00, 0⟩],
      ⟨#[true, false, true, false, true, true]⟩, [], []⟩]⟩

/-- With another version, the signature not written and three bytes of data that are no code, the
addition still asks for two numbers, adds them and stops. -/
theorem repacked_runs_alike_addition :
    ∃ other, Validation.validate .default (ofBody additionBody).raw = .ok additionValid ∧
      Validation.validate .default (ofBody (additionBody.repack 7 [0xFE, 0xFE, 0xFE] true)).raw =
        .ok other ∧
      ((Execution.initial []).runWithin (.ofValidated other) stackHost 4).1 = .halted .stopped ∧
      ((Execution.initial []).runWithin (.ofValidated other) stackHost 4).2.stack.toList = [3] ∧
      ((Execution.initial []).hostCalls (.ofValidated other) stackHost 4).map (·.opcode.byte) =
        [0x60, 0x60, 0x01] := by
  have hvalid : Validation.validate .default (ofBody additionBody).raw = .ok additionValid :=
    eq_ok_of_toOption (by decide +kernel)
  obtain ⟨other, hother, _, _, _, hruns⟩ := repacked_runs_alike hvalid 7 [0xFE, 0xFE, 0xFE] true
    (by decide) (by decide) (.inr rfl)
  obtain ⟨hrun, hcalls⟩ := hruns stackHost [] 4
  refine ⟨other, hvalid, hother, ?_, ?_, ?_⟩
  · rw [hrun]
    decide +kernel
  · rw [hrun]
    decide +kernel
  · rw [hcalls]
    decide +kernel

end EvmObject.Machine
