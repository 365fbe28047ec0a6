import FastapiProject.MachineRuns
import FastapiProject.PythonExceptions
import FastapiProject.PythonJson
import FastapiProject.HealthChecker
import FastapiProject.HealthCheckerAlerts
import FastapiProject.ConsumerMessage
import FastapiProject.ConsumerMessageSettlement
import FastapiProject.LifespanShutdown
import FastapiProject.RefreshRotation
import FastapiProject.RefreshRotationRuns
import FastapiProject.JobStore
import FastapiProject.JobStoreTerminal
import FastapiProject.ConsumerLoop
import FastapiProject.ConsumerTrafficSteps
import FastapiProject.ConsumerMessageLoss
import FastapiProject.ConsumerRetries
import FastapiProject.ConsumerShutdown
import FastapiProject.ConsumerDrainAcks
import FastapiProject.ModuleInstances
import FastapiProject.PublishedMessage
import FastapiProject.ConsumerInFlight
import FastapiProject.MessageSlots
import FastapiProject.HealthProbes
import FastapiProject.UserModels
import FastapiProject.UserRequests
import FastapiProject.UserEvents
import FastapiProject.UserRollback
import FastapiProject.ActiveConnections
import FastapiProject.WatchedConnections
import FastapiProject.BroadcastReach
import FastapiProject.ConnectionRemoval
import FastapiProject.JobNotifications
import FastapiProject.HealthHistory
import FastapiProject.RecoveryAlerts
import FastapiProject.HealthRecordCoherence
import FastapiProject.ProbePaths
import FastapiProject.HealthCheckerLoop
import FastapiProject.DeletePermission
import FastapiProject.PublisherConnection
import FastapiProject.PublisherDiscipline
import FastapiProject.PublisherClose
import FastapiProject.JobDispatch
import FastapiProject.JobPolls
import FastapiProject.TrimmedLists
import FastapiProject.UserRecords
import FastapiProject.CanonicalUsers
import FastapiProject.JsonStrings
import FastapiProject.JsonNumbers
import FastapiProject.JsonRoundTrip
import FastapiProject.EventDelivery
import FastapiProject.JobHistory
import FastapiProject.UserAnswers
import FastapiProject.MachineProgress
import FastapiProject.MessageProgress
import FastapiProject.PublisherProgress
import FastapiProject.RefreshLineage
import FastapiProject.AsyncioGather
import FastapiProject.AsyncJobSteps
import FastapiProject.ConsumerFates
import FastapiProject.DrainTimeout
import FastapiProject.SemaphoreTuning
import FastapiProject.MachineProducts
import FastapiProject.WebSocketFrames
import FastapiProject.SplitStores
import FastapiProject.StoresAlone
import FastapiProject.ApplicationShutdown
import FastapiProject.ShutdownProgress
import FastapiProject.JobProgress
import FastapiProject.AsyncDemo
import FastapiProject.TrafficProgress
import FastapiProject.PublishedMessages
import FastapiProject.QueueProgress
