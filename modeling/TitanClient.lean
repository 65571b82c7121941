import TitanClient.Transition
import TitanClient.Table
import TitanClient.Requests
import TitanClient.RequestTokens
import TitanClient.RequestAnswers
import TitanClient.Resumption
import TitanClient.ResumptionOutcomes
import TitanClient.ResumptionKept
import TitanClient.SlotLedger
import TitanClient.SlotAccounting
import TitanClient.Lifecycle
import TitanClient.LifecycleBasics
import TitanClient.LifecycleChanges
import TitanClient.LifecycleWiring
import TitanClient.LifecycleMail
import TitanClient.LifecycleGap
import TitanClient.Backpressure
import TitanClient.BackpressureDrop
import TitanClient.Zombies
import TitanClient.Delivery
import TitanClient.LifecycleTransit
import TitanClient.LifecycleTurns
import TitanClient.Neighbours
import TitanClient.GivenUp
import TitanClient.Remap
import TitanClient.Handoff
import TitanClient.SlotChanges
import TitanClient.SlotOrder
import TitanClient.SlotWakeups
import TitanClient.Cancellation
import TitanClient.Keepalive
import TitanClient.RequestIds
import TitanClient.Publishing
import TitanClient.ReportedState
import TitanClient.Arrival
import TitanClient.OpenStreams
import TitanClient.StopRequests
import TitanClient.SlotBound
import TitanClient.Backoff
import TitanClient.SocketUse
import TitanClient.WaitConnected
import TitanClient.ResumptionFrames
import TitanClient.Client
import TitanClient.Announcements
import TitanClient.ClientCalls
import TitanClient.ClientClosing
import TitanClient.Session
import TitanClient.SessionFailures
import TitanClient.Budget
import TitanClient.OneShotRuns
import TitanClient.Interaction
import TitanClient.Semaphore
import TitanClient.SessionBudget
import TitanClient.Stalling
import TitanClient.SlotSemaphore
import TitanClient.Swap
import TitanClient.SwapRuns
import TitanClient.Latest
import TitanClient.Methods
import TitanClient.Streaming
import TitanClient.Watching
import TitanClient.Standstill
import TitanClient.LifecycleBudget
import TitanClient.LifecycleRest
import TitanClient.Queueing
import TitanClient.QueueingLock
import TitanClient.QueueingRest
