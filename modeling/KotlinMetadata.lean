import KotlinMetadata.Main
import KotlinMetadata.Tree.Declarations
import KotlinMetadata.Proofs.ClassEvents
import KotlinMetadata.Proofs.Header.Overwriting
import KotlinMetadata.Proofs.Names.Bookkeeping
import KotlinMetadata.Proofs.Names.Resolution
import KotlinMetadata.Proofs.Packing.Groups
import KotlinMetadata.Proofs.Packing.Limits
import KotlinMetadata.Proofs.Renaming.Frame
import KotlinMetadata.Proofs.Renaming.FreshTable
import KotlinMetadata.Proofs.Renaming.Identity
import KotlinMetadata.Proofs.Renaming.LocalMark
import KotlinMetadata.Proofs.Renaming.Lookups
import KotlinMetadata.Proofs.Renaming.NestedNames
import KotlinMetadata.Proofs.Renaming.Parts
import KotlinMetadata.Proofs.Renaming.Reports
import KotlinMetadata.Proofs.Renaming.Signatures
import KotlinMetadata.Proofs.Tiny.Printing
import KotlinMetadata.Proofs.Tiny.Reversal
import KotlinMetadata.Proofs.Tree.Rearranging
import KotlinMetadata.Proofs.Tree.Tags
import KotlinMetadata.Proofs.Wire.ReadBack
import KotlinMetadata.Proofs.Wire.Session
import KotlinMetadata.Proofs.Wire.Survival
