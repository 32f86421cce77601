import Peppy.StackCycles
import Peppy.RestartCap
import Peppy.PairLaws
import Peppy.GoalCancels
import Peppy.Envelopes
import Peppy.CallReplay
import Peppy.InstanceKeys
import Peppy.DatastoreLaws
import Peppy.McpDeployment
import Peppy.GeneratedTypes
import Peppy.Moves
import Peppy.PlanVacancy
import Peppy.RepoCacheLaws
import Peppy.Callers
import Peppy.CopyForget
import Peppy.MockKeys
import Peppy.FeedbackSink
import Peppy.LatestQueue
import Peppy.SlotStream
import Peppy.FleetReplay
import Peppy.FleetFollowers
import Peppy.SlotUpdate
import Peppy.RefineMembers
import Peppy.SchemaText
import Peppy.SliceOwnership
import Peppy.JoinOrder
import Peppy.ClockPlan
import Peppy.KeyedLock
import Peppy.CheckoutPrune
import Peppy.Fingerprint
import Peppy.Pins
import Peppy.SampleKeys
import Peppy.PairEnds
import Peppy.StackHolds
