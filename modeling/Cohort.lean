import Cohort.Main
import Cohort.Meaning
import Cohort.Memory.Node
import Cohort.Proofs.Regroup.Split
import Cohort.Proofs.Regroup.Rules
import Cohort.Proofs.Regroup.Remap
import Cohort.Proofs.Regroup.Deal
import Cohort.Proofs.Regroup.MultiRules
import Cohort.Proofs.Regroup.Values
import Cohort.Proofs.Regroup.Sweep
import Cohort.Proofs.Regroup.Numbering
import Cohort.Proofs.Session.Calls
import Cohort.Proofs.Session.Guarantees
import Cohort.Proofs.Grouping.Complete
import Cohort.Proofs.Session.Conclusions
import Cohort.Proofs.Session.Progress
import Cohort.Proofs.Alike
import Cohort.Proofs.Memory.Footing
import Cohort.Proofs.Grouping.Agree
import Cohort.Proofs.Regroup.Agree
import Cohort.Proofs.Session.Agree
import Cohort.Proofs.Session.Replay
import Cohort.Proofs.Session.Budget
import Cohort.Proofs.Memory.Books
import Cohort.Proofs.Regroup.Spares
import Cohort.Proofs.Session.GroupZero
import Cohort.Proofs.Shard.Postings
import Cohort.Proofs.Utf8
import Cohort.Proofs.Shard.Columns
import Cohort.Proofs.Session.RuleOutcomes
import Cohort.Proofs.Session.ValueOutcomes
import Cohort.Proofs.Query.Meaning
import Cohort.Proofs.Memory.Peak
import Cohort.Proofs.Query.Peak
import Cohort.Proofs.Regroup.SplitMeaning
import Cohort.Proofs.Session.SplitOutcomes
import Cohort.Proofs.Query.Outcomes
import Cohort.Proofs.Session.RemapOutcomes
import Cohort.Proofs.Session.MetricOutcomes
import Cohort.Proofs.Hash.Cuts
import Cohort.Proofs.Hash.Fractions
import Cohort.Proofs.Regroup.Rearrange
import Cohort.Proofs.Session.Rearrange
import Cohort.Proofs.Regroup.DealMeaning
import Cohort.Proofs.Session.DealOutcomes
import Cohort.Proofs.Grouping.Fitted
import Cohort.Proofs.Session.Room
import Cohort.Proofs.Session.Counts
import Cohort.Proofs.Report
import Cohort.Proofs.DocSet.Operations
import Cohort.Proofs.Session.RegexOutcomes
import Cohort.Proofs.Bucket.Spans
import Cohort.Proofs.Bucket.Labels
import Cohort.Proofs.Regroup.Matches
import Cohort.Proofs.Memory.Lending
import Cohort.Proofs.Session.SumOutcomes
import Cohort.Proofs.Chunk
