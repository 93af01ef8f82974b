import ElephantFlow.Corruption
import ElephantFlow.Recovery
import ElephantFlow.CutJournal
import ElephantFlow.Withdrawal
import ElephantFlow.Supersession
import ElephantFlow.Worker
import ElephantFlow.Refusals
import ElephantFlow.ServiceRuns
import ElephantFlow.Framing
import ElephantFlow.PathMoves
import ElephantFlow.ActiveRules
import ElephantFlow.GapRecovery
import ElephantFlow.RuleInformation
import ElephantFlow.StoredDigests
import ElephantFlow.RoundTrip
import ElephantFlow.Labels
import ElephantFlow.Rendering
import ElephantFlow.Guarantee
