import MarkdownFences.Main
import MarkdownFences.Program
import MarkdownFences.Run
import MarkdownFences.Proofs.Scan.Layout
import MarkdownFences.Proofs.Scan.Progress
import MarkdownFences.Proofs.Admission.Pass
import MarkdownFences.Proofs.Admission.Delivery
import MarkdownFences.Proofs.Run.Independence
import MarkdownFences.Proofs.Check.FixPass
import MarkdownFences.Proofs.Run.Rerun
import MarkdownFences.Proofs.Run.Transparency
import MarkdownFences.Proofs.Remote.Traffic
import MarkdownFences.Proofs.Remote.Calls
import MarkdownFences.Proofs.Run.Conservation
import MarkdownFences.Proofs.Run.Ending
import MarkdownFences.Proofs.Run.Attribution
import MarkdownFences.Proofs.Classifier.Calls
import MarkdownFences.Proofs.Check.Calls
import MarkdownFences.Proofs.Classifier.Overlap
import MarkdownFences.Proofs.Run.Twins
import MarkdownFences.Proofs.Run.Marks
import MarkdownFences.Proofs.Check.Warm
import MarkdownFences.Proofs.Run.Warm
import MarkdownFences.Proofs.Run.Display
import MarkdownFences.Proofs.Admission.Saturation
import MarkdownFences.Proofs.Classifier.Accounts
import MarkdownFences.Proofs.FenceFix.Refusal
import MarkdownFences.Proofs.Fence.Overwrite
import MarkdownFences.Proofs.Repair.Effect
import MarkdownFences.Proofs.Remote.Thrown
import MarkdownFences.Proofs.Path.Normal
import MarkdownFences.Proofs.ValidationCache.Collision
import MarkdownFences.Proofs.ValidationCache.Saving
import MarkdownFences.Proofs.Pattern.Padding
import MarkdownFences.Proofs.Pattern.Line
import MarkdownFences.Proofs.Verdict.Padding
import MarkdownFences.Proofs.Snippet.Comments
import MarkdownFences.Proofs.Snippet.Signs
import MarkdownFences.Proofs.Snippet.Flags
import MarkdownFences.Proofs.Verdict.Json
import MarkdownFences.Proofs.Discovery.Listing
import MarkdownFences.Proofs.Remote.Answer
import MarkdownFences.Proofs.Report.Grouping
import MarkdownFences.Proofs.Settings.Accepted
