import LinkedSchema.Main
import LinkedSchema.Proofs.Parity
import LinkedSchema.Proofs.SharedTrails
import LinkedSchema.Proofs.Verdict
import LinkedSchema.Proofs.AlternativeOrder
import LinkedSchema.Proofs.Protection
import LinkedSchema.Proofs.Targets
import LinkedSchema.Proofs.Depth
import LinkedSchema.Proofs.Tracking
import LinkedSchema.Proofs.Transparency
import LinkedSchema.Proofs.Mirrors
import LinkedSchema.Proofs.Pinning
import LinkedSchema.Proofs.FirstCome
import LinkedSchema.Proofs.Batches
import LinkedSchema.Proofs.Existence
import LinkedSchema.Proofs.Cycles
import LinkedSchema.Proofs.Visits
import LinkedSchema.Proofs.Ceilings
import LinkedSchema.Proofs.Recursion
import LinkedSchema.Proofs.Comparison
import LinkedSchema.Proofs.Verbosity
import LinkedSchema.Proofs.DocumentOrder
import LinkedSchema.Proofs.Placement
import LinkedSchema.Proofs.InstancePointers
import LinkedSchema.Proofs.Integers
import LinkedSchema.Proofs.EqualValues
import LinkedSchema.Proofs.PatternParity
import LinkedSchema.Proofs.Spellings
import LinkedSchema.Proofs.Addresses
import LinkedSchema.Proofs.Conversion
import LinkedSchema.Proofs.Layers
