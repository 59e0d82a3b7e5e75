import EvmObject.Proofs.Container.ErrorClasses
import EvmObject.Proofs.Validation.CodeVerdict

/-!
# Validation and decoding

Validation does not call the reader of containers. It goes through the same stages on its own, with
the settings checked in between: the size in front of everything, and the version between the
preamble and the layout. `byDecoding` is validation as one would write it with the reader, and
`validate_agrees_with_decode` says that the two give the same value and the same error on all bytes.
From it follows which class an error has and that settings can only refuse.
-/

namespace EvmObject.Validation

open Container (Preamble Header)

/-! ## The statement -/

/-- Validation in terms of the reader of containers. -/
def byDecoding (config : Config) (raw : Bytes) : Attempt Error Validated := do
  if !config.allowsSize raw.length then throw (.refused (.container .containerTooLarge))
  let preamble ← (Preamble.read raw).mapError (.refused ∘ .container)
  if !config.allowsVersion preamble.version then throw (.refused (.container .invalidVersion))
  let container ← (Container.decode raw).mapCause .container
  let analyses ← (validateCode container.body).mapCause fun cause => .code cause.error
  return ⟨container, analyses⟩

/-- The size is allowed, the preamble can be read, and its version is allowed. -/
def IsAdmitted (config : Config) (raw : Bytes) : Prop :=
  config.allowsSize raw.length = true ∧
    ∃ preamble, Preamble.read raw = .ok preamble ∧ config.allowsVersion preamble.version = true

/-- What the loose settings ask, the tight ones ask as well. -/
structure Config.IsLooser (loose tight : Config) : Prop where
  sizeLimit : ∀ limit, loose.sizeLimit = some limit →
    ∃ tighter, tight.sizeLimit = some tighter ∧ tighter ≤ limit
  version : ∀ version, loose.version = some version → tight.version = some version

/-! ## The same stages -/

section
variable {config : Config} {raw : Bytes}

/-- Both ways behind a header: the body, then its code. -/
theorem mapCause_validate_of_header {preamble : Preamble} {header : Header}
    (hsize : config.allowsSize raw.length = true) (hread : Preamble.read raw = .ok preamble)
    (hversion : config.allowsVersion preamble.version = true)
    (hheader : Header.ofDescriptors preamble.version preamble.descriptors = .ok header) :
    (validate config raw).mapCause Rejection.error = byDecoding config raw := by
  have hdecode : Header.decode raw = .ok (header, preamble.size) := by
    rw [Header.decode, hread, ok_bind, hheader]
    rfl
  -- the check that validation makes of the size of the preamble is passed
  have hlength : preamble.size = header.size := (Header.decode_eq_ok_iff.mp hdecode).2.1
  simp only [validate, byDecoding, Container.decode, Attempt.ofExcept, hsize, hread, hversion,
    hheader, hdecode, hlength, mapError_ok, ok_bind, Bool.not_true, Bool.false_eq_true, ne_eq,
    not_true_eq_false, if_false]
  cases Container.Body.decode raw header with
  | error failure => cases failure <;> rfl
  | ok body =>
    show Attempt.mapCause _ (Attempt.mapCause _ (validateCode body) >>= _) =
      Attempt.mapCause _ (validateCode body) >>= _
    cases validateCode body with
    | error failure => cases failure <;> rfl
    | ok analyses => rfl

/-- **Validation is what one would write with the reader of containers.** -/
theorem mapCause_validate (config : Config) (raw : Bytes) :
    (validate config raw).mapCause Rejection.error = byDecoding config raw := by
  cases hsize : config.allowsSize raw.length with
  | false => simp [validate, byDecoding, hsize, Rejection.error]
  | true =>
    cases hread : Preamble.read raw with
    | error error => simp [validate, byDecoding, hsize, hread, Rejection.error]
    | ok preamble =>
      cases hversion : config.allowsVersion preamble.version with
      | false => simp [validate, byDecoding, hsize, hread, hversion, Rejection.error]
      | true =>
        cases hheader : Header.ofDescriptors preamble.version preamble.descriptors with
        | error error =>
          have hrefused : Container.decode raw = .error (.refused error) := by
            rw [Container.decode, Header.decode, hread, ok_bind, hheader]
            rfl
          simp [validate, byDecoding, hsize, hread, hversion, hheader, hrefused, Rejection.error]
        | ok header => exact mapCause_validate_of_header hsize hread hversion hheader

/-- A refusal of `byDecoding` is one of validation without its records. -/
theorem exists_validate_refused_iff {P : Error → Prop} :
    (∃ cause, validate config raw = .error (.refused cause) ∧ P cause.error) ↔
      ∃ error, byDecoding config raw = .error (.refused error) ∧ P error := by
  rw [← mapCause_validate]
  cases validate config raw with
  | ok valid => simp
  | error failure => cases failure <;> simp

/-! ## The stages one by one -/

theorem byDecoding_of_not_isAdmitted (hnot : ¬ IsAdmitted config raw) :
    ∃ error : Container.Error, error.isHeader = true ∧
      byDecoding config raw = .error (.refused (.container error)) := by
  cases hsize : config.allowsSize raw.length with
  | false => exact ⟨.containerTooLarge, rfl, by simp [byDecoding, hsize]⟩
  | true =>
    cases hread : Preamble.read raw with
    | error error =>
      exact ⟨error, Preamble.failsOnly_read raw error hread, by simp [byDecoding, hsize, hread]⟩
    | ok preamble =>
      cases hversion : config.allowsVersion preamble.version with
      | false => exact ⟨.invalidVersion, rfl, by simp [byDecoding, hsize, hread, hversion]⟩
      | true => exact absurd ⟨hsize, preamble, hread, hversion⟩ hnot

section
variable (hadmitted : IsAdmitted config raw)
include hadmitted

theorem byDecoding_of_isAdmitted :
    byDecoding config raw = (do
      let container ← (Container.decode raw).mapCause .container
      let analyses ← (validateCode container.body).mapCause fun cause => .code cause.error
      return ⟨container, analyses⟩) := by
  obtain ⟨hsize, preamble, hread, hversion⟩ := hadmitted
  simp [byDecoding, hsize, hread, hversion]

/-- What is wrong behind an admitted preamble is wrong with the structure. -/
theorem isStructural_of_isAdmitted {error : Container.Error}
    (hrefused : Container.decode raw = .error (.refused error)) : error.isStructural = true := by
  obtain ⟨_, preamble, hread, _⟩ := hadmitted
  exact Container.failsOnly_decode hread _ hrefused

end

/-- The code of a container that is read is refused or valid. -/
theorem validateCode_ne_crashed_of_decode {container : Container}
    (hdecode : Container.decode raw = .ok container) :
    validateCode container.body ≠ .error .crashed :=
  validateCode_ne_crashed fun _ hindex =>
    (Container.consistent_of_decode hdecode).exists_slice? hindex

end

/-! ## Looser settings -/

namespace Config.IsLooser

variable {loose tight : Config} (hlooser : loose.IsLooser tight)
include hlooser

theorem allowsSize {size : Nat} (hallows : tight.allowsSize size = true) :
    loose.allowsSize size = true := by
  rw [Config.allowsSize, Option.all_eq_true] at hallows ⊢
  intro limit hlimit
  obtain ⟨tighter, htighter, hle⟩ := hlooser.sizeLimit limit hlimit
  have hsize : size ≤ tighter := by simpa using hallows tighter htighter
  exact decide_eq_true (Nat.le_trans hsize hle)

theorem allowsVersion {version : UInt8} (hallows : tight.allowsVersion version = true) :
    loose.allowsVersion version = true := by
  rw [Config.allowsVersion, Bool.and_eq_true, Option.all_eq_true] at hallows ⊢
  exact ⟨hallows.1, fun fixed hfixed => hallows.2 fixed (hlooser.version fixed hfixed)⟩

theorem validate_eq_ok {raw : Bytes} {valid : Validated} (hvalid : validate tight raw = .ok valid) :
    validate loose raw = .ok valid := by
  obtain ⟨hsize, hversion, hdecode, hcode⟩ := validate_eq_ok_iff.mp hvalid
  exact validate_eq_ok_iff.mpr
    ⟨hlooser.allowsSize hsize, hlooser.allowsVersion hversion, hdecode, hcode⟩

end Config.IsLooser

theorem Config.default_isLooser (config : Config) : Config.default.IsLooser config :=
  ⟨nofun, nofun⟩

/-! ## Validation -/

/-- The verdict of `byDecoding`, by how far it comes. -/
inductive Verdict (config : Config) (raw : Bytes) : Prop where
  | header (error : Container.Error) (hnot : ¬ IsAdmitted config raw)
      (hclass : error.isHeader = true)
      (hverdict : byDecoding config raw = .error (.refused (.container error)))
  | structural (error : Container.Error) (hadmitted : IsAdmitted config raw)
      (hdecode : Container.decode raw = .error (.refused error)) (hclass : error.isHeader = false)
      (hverdict : byDecoding config raw = .error (.refused (.container error)))
  | code (container : Container) (cause : CodeRejection) (hadmitted : IsAdmitted config raw)
      (hdecode : Container.decode raw = .ok container)
      (hcode : validateCode container.body = .error (.refused cause))
      (hverdict : byDecoding config raw = .error (.refused (.code cause.error)))
  | valid (container : Container) (analyses : List Code.Analysis)
      (hadmitted : IsAdmitted config raw) (hdecode : Container.decode raw = .ok container)
      (hcode : validateCode container.body = .ok analyses)
      (hverdict : byDecoding config raw = .ok ⟨container, analyses⟩)

theorem verdict (config : Config) (raw : Bytes) : Verdict config raw := by
  -- there is no fifth case: the reader does not crash, nor does the code that it gives
  by_cases hadmitted : IsAdmitted config raw
  · have hrest := byDecoding_of_isAdmitted hadmitted
    cases hdecode : Container.decode raw with
    | error failure =>
      cases failure with
      | crashed => exact absurd hdecode (Container.decode_ne_crashed raw)
      | refused error =>
        have hclass := isStructural_of_isAdmitted hadmitted hdecode
        rw [Container.Error.isStructural, Bool.not_eq_true'] at hclass
        exact .structural error hadmitted hdecode hclass (by rw [hrest, hdecode]; rfl)
    | ok container =>
      rw [hdecode, Attempt.mapCause_ok, ok_bind] at hrest
      cases hcode : validateCode container.body with
      | error failure =>
        cases failure with
        | crashed => exact absurd hcode (validateCode_ne_crashed_of_decode hdecode)
        | refused cause =>
          exact .code container cause hadmitted hdecode hcode (by rw [hrest, hcode]; rfl)
      | ok analyses =>
        exact .valid container analyses hadmitted hdecode hcode (by rw [hrest, hcode]; rfl)
  · obtain ⟨error, hclass, hverdict⟩ := byDecoding_of_not_isAdmitted hadmitted
    exact .header error hadmitted hclass hverdict

section
variable {config : Config} {raw : Bytes}

theorem validate_ne_crashed : validate config raw ≠ .error .crashed := by
  intro hcrashed
  have hverdict := mapCause_validate config raw
  rw [hcrashed, Attempt.mapCause_crashed] at hverdict
  cases verdict config raw with
  | header _ _ _ h => cases hverdict.trans h
  | structural _ _ _ _ h => cases hverdict.trans h
  | code _ _ _ _ _ h => cases hverdict.trans h
  | valid _ _ _ _ _ h => cases hverdict.trans h

theorem exists_isHeader_iff :
    (∃ cause, validate config raw = .error (.refused cause) ∧ cause.error.isHeader = true) ↔
      ¬ IsAdmitted config raw := by
  rw [exists_validate_refused_iff (P := fun error => error.isHeader = true)]
  cases verdict config raw with
  | header error hnot hclass h => simp [h, hnot, hclass, Error.isHeader]
  | structural error hadmitted _ hclass h => simp [h, hadmitted, hclass, Error.isHeader]
  | code _ cause hadmitted _ _ h => simp [h, hadmitted, Error.isHeader]
  | valid _ _ hadmitted _ _ h => simp [h, hadmitted]

theorem exists_isStructural_iff :
    (∃ cause, validate config raw = .error (.refused cause) ∧
        cause.error.isStructural = true) ↔
      IsAdmitted config raw ∧ ∃ error, Container.decode raw = .error (.refused error) := by
  rw [exists_validate_refused_iff (P := fun error => error.isStructural = true)]
  cases verdict config raw with
  | header error hnot hclass h =>
    simp [h, hnot, hclass, Error.isStructural, Container.Error.isStructural]
  | structural error hadmitted hdecode hclass h =>
    simp [h, hadmitted, hdecode, hclass, Error.isStructural, Container.Error.isStructural]
  | code _ cause _ hdecode _ h => simp [h, hdecode, Error.isStructural]
  | valid _ _ _ hdecode _ h => simp [h, hdecode]

theorem exists_isCode_iff :
    (∃ cause, validate config raw = .error (.refused cause) ∧ cause.error.isCode = true) ↔
      IsAdmitted config raw ∧ ∃ container refused, Container.decode raw = .ok container ∧
        validateCode container.body = .error (.refused refused) := by
  rw [exists_validate_refused_iff (P := fun error => error.isCode = true)]
  cases verdict config raw with
  | header error hnot _ h => simp [h, hnot, Error.isCode]
  | structural error _ hdecode _ h => simp [h, hdecode, Error.isCode]
  | code container cause hadmitted hdecode hcode h =>
    simp [h, hadmitted, hdecode, hcode, Error.isCode]
  | valid container analyses _ hdecode hcode h => simp [h, hdecode, hcode]

end

/-- **Validation agrees with the reader of containers, and its errors say how far it came.** On all
bytes and for all settings it gives what `byDecoding` gives, and it never crashes. It refuses with
an error of the header exactly if the settings or the preamble already refuse, with one of the
structure exactly if they do not and the container cannot be read, and with one of the code exactly
if a container is read and its code is refused. So settings only ever refuse: what is valid under
some is valid, with the same result, under none and under looser ones. -/
theorem validate_agrees_with_decode (config : Config) (raw : Bytes) :
    (validate config raw).mapCause Rejection.error = byDecoding config raw ∧
      validate config raw ≠ .error .crashed ∧
      ((∃ cause, validate config raw = .error (.refused cause) ∧ cause.error.isHeader = true) ↔
        ¬ IsAdmitted config raw) ∧
      ((∃ cause, validate config raw = .error (.refused cause) ∧
          cause.error.isStructural = true) ↔
        IsAdmitted config raw ∧ ∃ error, Container.decode raw = .error (.refused error)) ∧
      ((∃ cause, validate config raw = .error (.refused cause) ∧ cause.error.isCode = true) ↔
        IsAdmitted config raw ∧ ∃ container refused, Container.decode raw = .ok container ∧
          validateCode container.body = .error (.refused refused)) ∧
      ∀ valid, validate config raw = .ok valid →
        Container.decode raw = .ok valid.container ∧
          valid.analyses.length = valid.container.body.codeCount ∧
          validate .default raw = .ok valid ∧
          ∀ loose : Config, loose.IsLooser config → validate loose raw = .ok valid := by
  refine ⟨mapCause_validate config raw, validate_ne_crashed, exists_isHeader_iff,
    exists_isStructural_iff, exists_isCode_iff, fun valid hvalid => ?_⟩
  obtain ⟨_, _, hdecode, hcode⟩ := validate_eq_ok_iff.mp hvalid
  exact ⟨hdecode, (validateCode_eq_ok_iff.mp hcode).1,
    (Config.default_isLooser config).validate_eq_ok hvalid,
    fun loose hlooser => hlooser.validate_eq_ok hvalid⟩

/-- A container of three sections under settings that just admit it: it is read, and what the
settings allow is allowed under looser ones. A limit below its size refuses it. Behind settings that
admit them, one byte more is refused for its structure, and a call of a fourth section for its
code. -/
theorem validate_agrees_with_decode_relay :
    let raw := (Container.ofBody (relayBody 2)).raw
    let astray := Container.ofBody (relayBody 3)
    let tight := (Config.default.withSizeLimit 46).withVersion 1
    let loose := Config.default.withSizeLimit 100
    let small := Config.default.withSizeLimit 45
    (validate tight raw = .ok relayValid ∧ loose.IsLooser tight) ∧
      (byDecoding tight raw = .ok relayValid ∧ Container.decode raw = .ok relayValid.container ∧
        validate .default raw = .ok relayValid ∧ validate loose raw = .ok relayValid) ∧
      ¬ IsAdmitted small raw ∧
      (IsAdmitted loose (raw ++ [0]) ∧
        ∃ error, Container.decode (raw ++ [0]) = .error (.refused error)) ∧
      IsAdmitted tight astray.raw ∧
        ∃ container refused, Container.decode astray.raw = .ok container ∧
          validateCode container.body = .error (.refused refused) := by
  intro raw astray tight loose small
  have hvalid : validate tight raw = .ok relayValid := eq_ok_of_toOption (by decide +kernel)
  have hlooser : loose.IsLooser tight := by
    constructor
    · rintro _ ⟨⟩
      exact ⟨46, rfl, by decide⟩
    · nofun
  have htooLarge : validate small raw = .error (.refused (.tooLarge 46)) :=
    eq_error_of_match (by decide +kernel)
  have hdangling : validate loose (raw ++ [0]) = .error (.refused (.body .danglingData)) :=
    eq_error_of_match (by decide +kernel)
  have hastray : validate tight astray.raw =
      .error (.refused (.code (.reference (.missingCallee 1 1 3)))) :=
    eq_error_of_match (by decide +kernel)
  obtain ⟨_, _, hheader, _⟩ := validate_agrees_with_decode small raw
  obtain ⟨_, _, _, hstructural, _⟩ := validate_agrees_with_decode loose (raw ++ [0])
  obtain ⟨_, _, _, _, hcode, _⟩ := validate_agrees_with_decode tight astray.raw
  obtain ⟨hsame, _, _, _, _, hok⟩ := validate_agrees_with_decode tight raw
  obtain ⟨hdecode, _, hdefault, hloose⟩ := hok relayValid hvalid
  rw [hvalid] at hsame
  exact ⟨⟨hvalid, hlooser⟩, ⟨hsame.symm, hdecode, hdefault, hloose loose hlooser⟩,
    hheader.mp ⟨_, htooLarge, rfl⟩, hstructural.mp ⟨_, hdangling, rfl⟩, hcode.mp ⟨_, hastray, rfl⟩⟩

end EvmObject.Validation
