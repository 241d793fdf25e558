import SourceEvolution.Main
import SourceEvolution.Tree.Sample
import SourceEvolution.Proofs.Passes
import SourceEvolution.Proofs.Json.Scanning
import SourceEvolution.Proofs.Json.Reading
import SourceEvolution.Proofs.Json.Formats
import SourceEvolution.Proofs.Tree.Places
import SourceEvolution.Proofs.Tree.Replacement
import SourceEvolution.Proofs.Scope.Meaning
import SourceEvolution.Proofs.Scope.NormalForms
import SourceEvolution.Proofs.Scope.Shadowing
import SourceEvolution.Proofs.Change.Reordering
import SourceEvolution.Proofs.Change.Findings
import SourceEvolution.Proofs.Change.Eligibility
import SourceEvolution.Proofs.Change.Application
import SourceEvolution.Proofs.Change.Defaults
import SourceEvolution.Proofs.Planning.Survey
import SourceEvolution.Proofs.Planning.Harvest
import SourceEvolution.Proofs.Planning.Discipline
import SourceEvolution.Proofs.Planning.Blocks
import SourceEvolution.Proofs.Planning.Permission
import SourceEvolution.Proofs.Planning.AliasBound
import SourceEvolution.Proofs.Planning.Obstacles
import SourceEvolution.Proofs.Planning.Documents
import SourceEvolution.Proofs.Replay.BottomUp
import SourceEvolution.Proofs.Replay.Planned
import SourceEvolution.Proofs.Replay.Evolves
import SourceEvolution.Proofs.Replay.Success
import SourceEvolution.Proofs.Replay.Separation
import SourceEvolution.Proofs.Replay.Applicability
import SourceEvolution.Proofs.Planning.Saved
import SourceEvolution.Proofs.Planning.Digests
import SourceEvolution.Proofs.Planning.Relevance
import SourceEvolution.Proofs.Replay.Layout
import SourceEvolution.Proofs.Scope.Bare
import SourceEvolution.Proofs.Planning.Positions
import SourceEvolution.Proofs.Replay.Initialization
import SourceEvolution.Proofs.Replay.Interchange
import SourceEvolution.Proofs.Replay.Frame
import SourceEvolution.Proofs.Replay.Independence
import SourceEvolution.Proofs.Exclusion.Entries
import SourceEvolution.Proofs.Tree.PathText
import SourceEvolution.Proofs.Typing.Quotation
import SourceEvolution.Proofs.Planning.Pairing
import SourceEvolution.Proofs.Typing.Grammar
