import GraphPilot.Properties.Budget
import GraphPilot.Properties.Ledger
import GraphPilot.Properties.Cancel
import GraphPilot.Properties.Completion
import GraphPilot.Properties.RefreshTokens
import GraphPilot.Properties.CreationPaths
import GraphPilot.Properties.WorkflowDeletion
import GraphPilot.Properties.WebhookRateLimit
import GraphPilot.Properties.OpenOnce
import GraphPilot.Properties.PlanLimits
import GraphPilot.Properties.TokenChains
import GraphPilot.Properties.DeadLetterMarks
import GraphPilot.Properties.PendingOrphans
import GraphPilot.Properties.RetrySources
import GraphPilot.Properties.ScheduleSpacing
import GraphPilot.Properties.ScheduleViews
import GraphPilot.Properties.SchedulerLock
import GraphPilot.Properties.TenantOwners
import GraphPilot.Properties.BoundedWalks
import GraphPilot.Properties.PassIsolation
import GraphPilot.Properties.StepResults
import GraphPilot.Properties.StreamCompletion
import GraphPilot.Properties.BuilderValidation
import GraphPilot.Properties.IdleKeys
import GraphPilot.Properties.MaskedUpdates
import GraphPilot.Properties.StoredTools
import GraphPilot.Properties.WebhookSignatures
import GraphPilot.Properties.RetryBackoff
import GraphPilot.Properties.BuilderSaves
import GraphPilot.Properties.AddressFilter
import GraphPilot.Properties.BrokenAgents
import GraphPilot.Properties.PinnedAddresses
import GraphPilot.Properties.ResponseDecoding
import GraphPilot.Properties.SuggestionStates
import GraphPilot.Properties.PlanIsolation
import GraphPilot.Properties.ReadOnlyQueries
import GraphPilot.Accounts.Passwords
import GraphPilot.Engine.Cost
import GraphPilot.Properties.BoundParameters
import GraphPilot.Properties.IncidentAnalytics
import GraphPilot.Properties.AlertEvaluation
import GraphPilot.Properties.ListPages
import GraphPilot.Properties.LogSanitizing
import GraphPilot.Properties.UserRemoval
import GraphPilot.Builder.ConnectorNode
import GraphPilot.Cli.RuntimePorts
import GraphPilot.Properties.BuilderSearches
import GraphPilot.Properties.TokenTransport
import GraphPilot.Auth.Client
import GraphPilot.Properties.TenantWrites
