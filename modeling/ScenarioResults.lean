import ScenarioResults.Report.Files
import ScenarioResults.Tree.History
import ScenarioResults.Tree.Merge
import ScenarioResults.Proofs.Tree.Reachable
import ScenarioResults.Proofs.Builder.Anchored
import ScenarioResults.Proofs.Stream.Protocol
import ScenarioResults.Proofs.Stream.Grouping
import ScenarioResults.Proofs.Stream.Content
import ScenarioResults.Proofs.Tree.Tally
import ScenarioResults.Proofs.Tree.Path
import ScenarioResults.Proofs.Tree.Lookup
import ScenarioResults.Proofs.Name.Adoption
import ScenarioResults.Proofs.Tree.Merge
import ScenarioResults.Proofs.Tree.Links
import ScenarioResults.Proofs.Builder.Continuing
import ScenarioResults.Proofs.Report.Building
import ScenarioResults.Proofs.Stream.Accounting
import ScenarioResults.Proofs.Tree.Balance
import ScenarioResults.Proofs.Tree.Completion
import ScenarioResults.Proofs.Tree.Frame
import ScenarioResults.Proofs.Tree.Appended
import ScenarioResults.Proofs.Tree.MergeOrder
import ScenarioResults.Proofs.Builder.Resuming
import ScenarioResults.Proofs.Tree.Shared
import ScenarioResults.Proofs.Builder.Isolation
import ScenarioResults.Proofs.Report.Batch
import ScenarioResults.Proofs.Stream.Attachments
import ScenarioResults.Proofs.Tree.Precedence
import ScenarioResults.Proofs.Tree.Tags
import ScenarioResults.Proofs.Name.Alike
import ScenarioResults.Proofs.Name.Suffix
import ScenarioResults.Proofs.Tree.Primary
import ScenarioResults.Proofs.Tree.Bases
import ScenarioResults.Proofs.Tree.Headings
import ScenarioResults.Proofs.Stream.Headings
import ScenarioResults.Proofs.Tree.Counterparts
import ScenarioResults.Proofs.Tree.Streaks
import ScenarioResults.Proofs.Tree.Age
import ScenarioResults.Proofs.Tree.Explanation
