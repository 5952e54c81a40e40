import DocStore.Database
import DocStore.Filter.Dump
import DocStore.Proofs.Fields
import DocStore.Proofs.Equality
import DocStore.Proofs.Paths
import DocStore.Proofs.Updates
import DocStore.Proofs.Operations
import DocStore.Proofs.Runs
import DocStore.Proofs.Bookkeeping
import DocStore.Proofs.Identifiers
import DocStore.Proofs.InPlace
import DocStore.Proofs.Failures
import DocStore.Proofs.Compilation
import DocStore.Proofs.Divergence
import DocStore.Proofs.Reflexivity
import DocStore.Proofs.Pointwise
import DocStore.Proofs.Upserts
import DocStore.Proofs.Lookup
import DocStore.Proofs.Selection
import DocStore.Proofs.Sorting
import DocStore.Proofs.FindAndUpdate
import DocStore.Proofs.Acceptance
import DocStore.Proofs.Effects
import DocStore.Proofs.Ledger
import DocStore.Proofs.Pieces
import DocStore.Proofs.Settings
import DocStore.Proofs.Missing
import DocStore.Proofs.DocumentForm
import DocStore.Proofs.Reordering
import DocStore.Proofs.KeyOrder
import DocStore.Proofs.QueryLog
import DocStore.Proofs.Pages
import DocStore.Proofs.Rounding
import DocStore.Proofs.SortOrder
import DocStore.Proofs.Requests
import DocStore.Proofs.Isolation
import DocStore.Proofs.ReadBack
import DocStore.Proofs.Stability
import DocStore.Proofs.Removal
import DocStore.Proofs.WriteExtent
import DocStore.Proofs.Equalities
import DocStore.Proofs.Increment
import DocStore.Proofs.Untouched
import DocStore.Proofs.Rearrangement
import DocStore.Proofs.Commuting
import DocStore.Proofs.Assignment
import DocStore.Proofs.Ranges
import DocStore.Proofs.Timestamps
import DocStore.Proofs.Containment
import DocStore.Proofs.Alternatives
import DocStore.Proofs.IndexList
import DocStore.Proofs.Slots
import DocStore.Proofs.Pinning
import DocStore.Proofs.CanonicalForm
