import Graft.Main
import Graft.Proofs.Session
import Graft.Proofs.Refinement
import Graft.Proofs.Batches
import Graft.Proofs.Codec.Agreement
import Graft.Proofs.Codec.Spelling
import Graft.Proofs.Codec.Truncation
import Graft.Proofs.Commands
import Graft.Proofs.Splitting
import Graft.Proofs.Unchanged
import Graft.Proofs.Reloading
import Graft.Proofs.Mentions
import Graft.Proofs.Commuting
import Graft.Proofs.Legibility
import Graft.Proofs.Renumbering
import Graft.Proofs.Bystanders
import Graft.Proofs.Paths
import Graft.Proofs.Refusals
import Graft.Proofs.Plan.Spelling
import Graft.Proofs.Plan.Joining
import Graft.Proofs.Plan.Mnemonics
import Graft.Proofs.Splicing
import Graft.Proofs.Cloning
import Graft.Proofs.Arguments
import Graft.Proofs.Undoing
import Graft.Proofs.Cutting
import Graft.Proofs.VerifiedCopies
import Graft.Proofs.Injection
import Graft.Proofs.Padding
import Graft.Proofs.LiteralReturns
import Graft.Proofs.Keeping
import Graft.Proofs.Nesting
import Graft.Proofs.DeclaredDepths
