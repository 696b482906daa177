import RosRtems.Core.Runs
import RosRtems.Core.WhileLoop
import RosRtems.Core.EventSet
import RosRtems.Core.KeepLast
import RosRtems.Core.FixedPriority
import RosRtems.Core.Custody
import RosRtems.Core.LinkedChain
import RosRtems.Core.PeriodicGrid
import RosRtems.Core.Claims
import RosRtems.Core.Potential
import RosRtems.Core.ServiceOrder
import RosRtems.Core.ThrowingLoop
import RosRtems.Core.Dependency
import RosRtems.Core.Mailboxes
import RosRtems.Driver.TimerDriver
import RosRtems.Driver.TimerDriverSpec
import RosRtems.Driver.DriverRuns
import RosRtems.Driver.DeviceClients
import RosRtems.Driver.InterruptStorm
import RosRtems.Driver.TimedCountdown
import RosRtems.Driver.TimerLoad
import RosRtems.Driver.ChannelSchedule
import RosRtems.Driver.TimeManager
import RosRtems.Driver.ReadyQueue
import RosRtems.Executor.CallbackLoop
import RosRtems.IntraProcess.RingBuffer
import RosRtems.IntraProcess.SubscriptionIntraProcess
import RosRtems.IntraProcess.DirectNotify
import RosRtems.IntraProcess.IntraProcessManager
import RosRtems.IntraProcess.MessageDelivery
import RosRtems.IntraProcess.MessageTakes
import RosRtems.IntraProcess.RoutingTables
import RosRtems.IntraProcess.Pipeline
import RosRtems.Executor.RtSubscription
import RosRtems.Executor.DeliveryRoutes
import RosRtems.Executor.CallbackGroups
import RosRtems.Executor.SpinCancel
import RosRtems.Executor.RtExecutor
import RosRtems.Executor.RtTimerPeriod
import RosRtems.Executor.Shutdown
import RosRtems.Executor.TaskLifetime
import RosRtems.Executor.OrderlyLifetime
import RosRtems.Executor.MemoryStrategy
import RosRtems.Executor.ReadyHandles
import RosRtems.Executor.SingleThreadedSpin
import RosRtems.Executor.MultiThreadedSpin
import RosRtems.Executor.Bookkeeping
import RosRtems.Executor.GroupMaps
import RosRtems.Executor.GuardConditions
import RosRtems.Executor.GuardConditionRuns
import RosRtems.Executor.NodeAddition
import RosRtems.Executor.NodeAtomicity
import RosRtems.NoExecutor.Executables
import RosRtems.NoExecutor.WorkerPool
import RosRtems.NoExecutor.WorkerJobs
import RosRtems.NoExecutor.MessageOrder
import RosRtems.NoExecutor.StackAtomic
import RosRtems.NoExecutor.PosixTimers
import RosRtems.NoExecutor.TimerSignals
import RosRtems.NoExecutor.Condition
import RosRtems.NoExecutor.Registrations
import RosRtems.NoExecutor.StartNotifications
import RosRtems.NoExecutor.EdfChain
import RosRtems.NoExecutor.DispatchTiming
import RosRtems.NoExecutor.TimingReports
import RosRtems.Picas.Selection
import RosRtems.Picas.Workers
import RosRtems.Picas.MutexTwoPriorities
import RosRtems.RtColcon.Script
import RosRtems.RtColcon.Termination
import RosRtems.RtColcon.Calls
import RosRtems.RtColcon.Selection
import RosRtems.RtColcon.BuildOrder
import RosRtems.RtColcon.Failures
import RosRtems.RtColcon.BuildOnce
import RosRtems.Lifecycle.StateMachine
import RosRtems.Lifecycle.ChangeState
import RosRtems.Lifecycle.ChangeRuns
import RosRtems.Rcl.Timer
import RosRtems.Rcl.WaitSet
import RosRtems.Rmw.GuardConditionWait
import RosRtems.Executor.WaitForWork
import RosRtems.Action.ActionServer
import RosRtems.Action.GoalResults
import RosRtems.Action.ForgottenRequests
import RosRtems.Rcutils.HashMap
import RosRtems.Rcutils.KeyedStore
import RosRtems.Rcutils.StoreRuns
import RosRtems.Rcl.LoggingRosout
import RosRtems.Core.Alignment
import RosRtems.Core.ByteOrder
import RosRtems.Core.WireLayout
import RosRtems.Serialization.Cdr
import RosRtems.Serialization.CdrLayout
import RosRtems.Serialization.TypeSupport
import RosRtems.Serialization.MessageFormat
import RosRtems.Serialization.RoundTrip
import RosRtems.Serialization.SerializedSize
import RosRtems.Serialization.TypeSize
import RosRtems.Serialization.Truncation
