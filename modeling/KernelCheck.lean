import KernelCheck.Main
import KernelCheck.Syntax.Builder
import KernelCheck.Syntax.Outline
import KernelCheck.Proofs.Building.Grids
import KernelCheck.Proofs.Building.Spans
import KernelCheck.Proofs.Distinct
import KernelCheck.Proofs.Extent
import KernelCheck.Proofs.Interning
import KernelCheck.Proofs.Loading.Numbering
import KernelCheck.Proofs.Loading.ReadBack
import KernelCheck.Proofs.Loading.Shown
import KernelCheck.Proofs.Nesting.Soundness
import KernelCheck.Proofs.Output
import KernelCheck.Proofs.Records
import KernelCheck.Proofs.Registration
import KernelCheck.Proofs.Storage.Resolution
import KernelCheck.Proofs.Storage.Outside
import KernelCheck.Proofs.Storage.Splitting
import KernelCheck.Proofs.Nesting.Chains
import KernelCheck.Proofs.Nesting.Reports
import KernelCheck.Proofs.Escapes
import KernelCheck.Proofs.Headers
import KernelCheck.Proofs.Steps
import KernelCheck.Proofs.FamilyOrder
import KernelCheck.Proofs.Roles
import KernelCheck.Proofs.Loading.Acceptance
import KernelCheck.Proofs.Storage.InitTargets
import KernelCheck.Proofs.Loading.Respelling
import KernelCheck.Proofs.Nodes
import KernelCheck.Proofs.Lines
import KernelCheck.Proofs.Underlines
import KernelCheck.Proofs.Storage.Restored
import KernelCheck.Proofs.Options
import KernelCheck.Proofs.Colors
import KernelCheck.Proofs.Snippets
import KernelCheck.Proofs.Mentions
