import BranchingStory.Config.SettingsFile
import BranchingStory.Json.Sorted
import BranchingStory.Locks
import BranchingStory.Operation.Wire
import BranchingStory.Proofs.Locks.Service
import BranchingStory.Proofs.Merge.EitherOrder
import BranchingStory.Proofs.Merge.Proposals
import BranchingStory.Proofs.Merge.References
import BranchingStory.Proofs.Merge.SameAttribute
import BranchingStory.Proofs.Merge.Steady
import BranchingStory.Proofs.Operation.Fields
import BranchingStory.Proofs.Operator.Lists
import BranchingStory.Proofs.Operator.Maps
import BranchingStory.Proofs.Operator.Twins
import BranchingStory.Proofs.Story.Access
import BranchingStory.Proofs.Story.Finalization
import BranchingStory.Proofs.Story.Following
import BranchingStory.Proofs.Story.History
import BranchingStory.Proofs.Story.Interleaving
import BranchingStory.Proofs.Story.Line
import BranchingStory.Proofs.Story.Merging
import BranchingStory.Proofs.Story.Presentation
import BranchingStory.Proofs.Story.Refusal
import BranchingStory.Proofs.Story.Restart
import BranchingStory.Proofs.Story.RoundTrip
import BranchingStory.Proofs.Story.Timing
import BranchingStory.Proofs.Story.Tree
import BranchingStory.Proofs.Value.Importing
import BranchingStory.Proofs.Value.Reading
import BranchingStory.Proofs.Value.Twins
import BranchingStory.Proofs.World.Counter
import BranchingStory.Proofs.World.Life
import BranchingStory.Proofs.World.Projection
import BranchingStory.Proofs.World.Representation
import BranchingStory.Proofs.World.Trace
import BranchingStory.Proofs.World.Twins
import BranchingStory.Story.Path
import BranchingStory.Story.Wire
