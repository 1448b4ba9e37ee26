import Yang.Entry.Table
import Yang.Main
import Yang.Proofs.Gather.Collected
import Yang.Proofs.Library.Named
import Yang.Proofs.Library.Widened
import Yang.Proofs.ModuleSet.Addressed
import Yang.Proofs.ModuleSet.Appended
import Yang.Proofs.ModuleSet.Augmented
import Yang.Proofs.ModuleSet.Bounded
import Yang.Proofs.ModuleSet.Diagnosed
import Yang.Proofs.ModuleSet.Expanded
import Yang.Proofs.ModuleSet.Extended
import Yang.Proofs.ModuleSet.Frozen
import Yang.Proofs.ModuleSet.Inherited
import Yang.Proofs.ModuleSet.Inlined
import Yang.Proofs.ModuleSet.Joined
import Yang.Proofs.ModuleSet.Legible
import Yang.Proofs.ModuleSet.Listed
import Yang.Proofs.ModuleSet.Outlined
import Yang.Proofs.ModuleSet.Owned
import Yang.Proofs.ModuleSet.Prefixed
import Yang.Proofs.ModuleSet.Reordered
import Yang.Proofs.ModuleSet.Traversed
import Yang.Proofs.ModuleSet.Typed
import Yang.Proofs.Run.Contract
import Yang.Proofs.Schema.Normalised
import Yang.Proofs.SearchPath
import Yang.Schema.Written
