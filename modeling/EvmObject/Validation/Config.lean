import EvmObject.Limits

/-!
# Validation settings

A `Config` may bound the size of a container and may fix its version. By default every size and
every version but zero is accepted.
-/

namespace EvmObject.Validation

/-- What validation accepts besides well-formed containers. -/
structure Config where
  /-- The largest size that is accepted; any size if absent. -/
  sizeLimit : Option Nat := none
  /-- The only version that is accepted; any but zero if absent. -/
  version : Option UInt8 := none
  deriving DecidableEq, Repr

namespace Config

/-- Accepts every size and every version but zero. -/
def default : Config := {}

/-- Bounds the size. -/
def withSizeLimit (config : Config) (limit : Nat) : Config :=
  { config with sizeLimit := some limit }

/-- Fixes the version. -/
def withVersion (config : Config) (version : UInt8) : Config :=
  { config with version := some version }

/-- Bounds the size by that of creation code. -/
def initcode : Config := default.withSizeLimit Limits.initcodeSize

/-- The size is within the bound. -/
def allowsSize (config : Config) (size : Nat) : Bool :=
  config.sizeLimit.all (size ≤ ·)

/-- The version is accepted; zero never is. -/
def allowsVersion (config : Config) (version : UInt8) : Bool :=
  version != 0 && config.version.all (· == version)

end Config

end EvmObject.Validation
