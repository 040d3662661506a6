import Shading.Main
import Shading.Proofs.BuildHistory
import Shading.Proofs.Changed
import Shading.Proofs.Dataflow
import Shading.Proofs.Declared
import Shading.Proofs.Destinations
import Shading.Proofs.Displacement
import Shading.Proofs.Exhaustion
import Shading.Proofs.FirstFit
import Shading.Proofs.Flags
import Shading.Proofs.Freshness
import Shading.Proofs.Joining
import Shading.Proofs.Linking
import Shading.Proofs.Meaning
import Shading.Proofs.Naming
import Shading.Proofs.Omission
import Shading.Proofs.Packing
import Shading.Proofs.Safety
import Shading.Proofs.Saved
import Shading.Proofs.Scheduling
import Shading.Proofs.Staleness
