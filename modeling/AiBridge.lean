import AiBridge.CriticalRelease
import AiBridge.RetryRelease
import AiBridge.AckedPlan
import AiBridge.RegistryCoherence
import AiBridge.HeldPlans
import AiBridge.DaemonRuns
import AiBridge.SafetyGuard
import AiBridge.Wire
import AiBridge.MaestroHandler
import AiBridge.MaestroRequests
import AiBridge.OwnerDecision
import AiBridge.AckFailure
import AiBridge.GateText
import AiBridge.PolicyLock
import AiBridge.ExecutorGate
import AiBridge.LockState
import AiBridge.Handshake
import AiBridge.UiStream
import AiBridge.IdentityFields
import AiBridge.SessionDelivery
import AiBridge.ApprovedCommand
import AiBridge.TaskIsolation
import AiBridge.PollSchedule
import AiBridge.HandshakeGate
import AiBridge.BranchRuns
import AiBridge.BranchDelivery
import AiBridge.ReadyListing
import AiBridge.WireRouting
import AiBridge.LoweringChanges
import AiBridge.RelaxedCriteria
import AiBridge.SaveGuard
import AiBridge.AuditTruth
import AiBridge.SavedConfig
import AiBridge.PlanCriteria
import AiBridge.PatternMeaning
import AiBridge.RoleAssignments
import AiBridge.ChatStores
import AiBridge.AuditMonths
import AiBridge.Backups
import AiBridge.BackupRuns
import AiBridge.Ledger
import AiBridge.SafetyAudit
import AiBridge.ValidatedCriteria
import AiBridge.LockBlanks
import AiBridge.PlanOutcome
import AiBridge.SessionReports
import AiBridge.Registrations
import AiBridge.NotificationCodec
import AiBridge.ManualPlans
import AiBridge.Envelope
import AiBridge.OverrideAttribution
import AiBridge.ConfigBoundary
import AiBridge.DocumentedLowering
import AiBridge.RowRoundTrip
import AiBridge.AuditTail
import AiBridge.JsonRecords
import AiBridge.StoreConfinement
import AiBridge.DelegableProgress
import AiBridge.Hand
import AiBridge.Keystrokes
import AiBridge.FailureReport
import AiBridge.Eye
import AiBridge.LoopMessages
import AiBridge.DashboardSession
import AiBridge.DashboardRuns
import AiBridge.DashboardLink
import AiBridge.RoleFiles
import AiBridge.PanelReload
import AiBridge.PanelSession
import AiBridge.ChannelBoot
import AiBridge.AllowlistEditor
import AiBridge.SeededCriteria
import AiBridge.SubChatService
