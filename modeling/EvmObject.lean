import EvmObject.Main
import EvmObject.Proofs.Validation.CodeVerdict
import EvmObject.Proofs.Validation.RoundTrip
import EvmObject.Proofs.Machine.CallContract
import EvmObject.Proofs.Machine.CallerStack
import EvmObject.Proofs.Machine.Faults
import EvmObject.Proofs.Machine.FailedSteps
import EvmObject.Proofs.Container.Layout
import EvmObject.Proofs.Validation.Pipeline
import EvmObject.Proofs.Machine.Repackaging
import EvmObject.Proofs.Container.Grammar
import EvmObject.Proofs.Machine.CallChain
import EvmObject.Proofs.Code.Listing
import EvmObject.Proofs.Checked
import EvmObject.Proofs.Container.Checked
import EvmObject.Proofs.Machine.JumpDestinations
import EvmObject.Proofs.Validation.Checked
import EvmObject.Proofs.Container.HeaderCodec
import EvmObject.Proofs.Container.Cuts
import EvmObject.Proofs.Code.Blame
import EvmObject.Proofs.Machine.HostConformance
import EvmObject.Proofs.Machine.HostContract
import EvmObject.Proofs.Machine.Termination
import EvmObject.Proofs.Validation.SectionAccess
import EvmObject.Proofs.Machine.Resumption
import EvmObject.Proofs.Machine.UnboundedRuns
import EvmObject.Proofs.Code.Concatenation
import EvmObject.Proofs.Suite.Accounts
import EvmObject.Proofs.Code.LosslessListing
import EvmObject.Proofs.Code.Iteration
import EvmObject.Proofs.Command.HexInput
import EvmObject.Proofs.FileTree
import EvmObject.Proofs.Suite.JsonFiles
import EvmObject.Proofs.Logged
import EvmObject.Proofs.Validation.Trail
import EvmObject.Proofs.Machine.Trail
import EvmObject.Proofs.Machine.StackRefinement
