import Inference.Command.Disk
import Inference.Command.Program
import Inference.Descriptor.Draft
import Inference.Main
import Inference.Session.Diagnostic
import Inference.Proofs.Descriptor.Entries
import Inference.Proofs.Descriptor.Acceptance
import Inference.Proofs.Descriptor.Writing
import Inference.Proofs.Descriptor.WrittenEntries
import Inference.Proofs.Descriptor.RoundTrip
import Inference.Proofs.Memory.Regions
import Inference.Proofs.Descriptor.Consistency
import Inference.Proofs.Engine.Reference
import Inference.Proofs.Engine.Refinement
import Inference.Proofs.Session.Discarding
import Inference.Proofs.Session.Lifecycle
import Inference.Proofs.Session.Releasing
import Inference.Proofs.Dispatch.Resolution
import Inference.Proofs.Memory.Padding
import Inference.Proofs.Descriptor.Extent
import Inference.Proofs.Session.Loading
import Inference.Proofs.Session.Retrying
import Inference.Proofs.Builtin.Soundness
import Inference.Proofs.Session.Stages
import Inference.Proofs.Memory.Independence
import Inference.Proofs.Descriptor.Fields
import Inference.Proofs.Kernel.Overwriting
import Inference.Proofs.Engine.FeedForward
import Inference.Proofs.Builtin.Overwriting
import Inference.Proofs.Descriptor.Framing
import Inference.Proofs.Session.Ranges
import Inference.Proofs.Session.Profiling
import Inference.Proofs.Session.Declining
import Inference.Proofs.Kernel.Accumulation
import Inference.Proofs.Session.Constants
import Inference.Proofs.Memory.Allocation
import Inference.Proofs.Kernel.InPlace
import Inference.Proofs.Session.Arguments
import Inference.Proofs.Descriptor.Refusal
import Inference.Proofs.Engine.Commuting
import Inference.Proofs.Descriptor.Counting
import Inference.Proofs.Memory.BudgetText
import Inference.Proofs.Builtin.Registering
import Inference.Proofs.Descriptor.Tiling
import Inference.Proofs.Toml.Quoting
import Inference.Proofs.Toml.Lines
import Inference.Proofs.Toml.Settings
import Inference.Proofs.Command.Steps
import Inference.Proofs.Session.Alike
import Inference.Proofs.Command.Running
