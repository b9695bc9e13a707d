import Dbosify.Dict
import Dbosify.EventLoop
import Dbosify.Values
import Dbosify.Failure
import Dbosify.Retry
import Dbosify.Ids
import Dbosify.Inbox
import Dbosify.Interp
import Dbosify.Runtime
import Dbosify.Deliver
import Dbosify.Commands
import Dbosify.Run
import Dbosify.Frames
import Dbosify.Slots
import Dbosify.WaiterPass
import Dbosify.Rounds
import Dbosify.Delivery
import Dbosify.FunctionIds
import Dbosify.Mailbox
import Dbosify.Close
import Dbosify.Carryover
import Dbosify.ChainHop
import Dbosify.Recording
import Dbosify.Patched
import Dbosify.Backoff
import Dbosify.ChainResolution
import Dbosify.ActivityWorkflow
import Dbosify.ActivityPaths
import Dbosify.Budget
import Dbosify.Status
import Dbosify.Transitions
import Dbosify.AttemptStep
import Dbosify.StartWorkflow
import Dbosify.ScheduleFire
import Dbosify.TerminateChain
import Dbosify.ChildTree
import Dbosify.CloseTree
import Dbosify.Rest
import Dbosify.ChildSweep
import Dbosify.InboxErrors
import Dbosify.Conversions
import Dbosify.Drift
import Dbosify.Clock
import Dbosify.Strings
import Dbosify.SyncConversion
import Dbosify.ChainMeta
import Dbosify.RunIds
import Dbosify.FailureTrace
import Dbosify.DataConversion
import Dbosify.ReplayIdentity
import Dbosify.SearchAttributes
import Dbosify.Schedule
import Dbosify.ScheduleUpdate
import Dbosify.ScheduleRoundTrip
import Dbosify.VisibilityQuery
import Dbosify.QueryJoin
import Dbosify.Visibility
import Dbosify.Listing
import Dbosify.CountWorkflows
import Dbosify.Along
import Dbosify.UpdateFrames
import Dbosify.UpdateProtocol
import Dbosify.AsyncPark
import Dbosify.ReplyFlush
import Dbosify.VirtualLoop
import Dbosify.ReadOnly
import Dbosify.SignalOrder
import Dbosify.ActivityFrames
import Dbosify.TimerOrder
import Dbosify.ActivityMarkers
import Dbosify.QueryReading
import Dbosify.Quoting
import Dbosify.QueryErrors
import Dbosify.QueryGrammar
import Dbosify.ChainListing
import Dbosify.KeyedLists
import Dbosify.AttributeUpdates
import Dbosify.AttributeValues
import Dbosify.Upserts
import Dbosify.Gregorian
import Dbosify.Cron
import Dbosify.CalendarCron
import Dbosify.FireRates
import Dbosify.IntervalCron
import Dbosify.WaitCancel
import Dbosify.Pointers
import Dbosify.FailureCycles
import Dbosify.JsonText
import Dbosify.JsonRoundTrip
import Dbosify.JsonLoads
import Dbosify.Base64
import Dbosify.PayloadDicts
import Dbosify.TypeHints
import Dbosify.TypedDecoding
import Dbosify.RestoredValues
import Dbosify.Decided
import Dbosify.VerifyMode
import Dbosify.ReplayVerify
import Dbosify.ResultFollowing
import Dbosify.ReplySweep
import Dbosify.AttemptRegistry
import Dbosify.AwaitMany
import Dbosify.Checkpoint
import Dbosify.AttemptLaw
import Dbosify.AttemptRuns
import Dbosify.DrainedWaits
import Dbosify.Awaited
