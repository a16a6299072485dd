import Yomochi.Foundation.Runs
import Yomochi.Foundation.Table
import Yomochi.Foundation.Selection
import Yomochi.Foundation.Calendar
import Yomochi.Foundation.Months
import Yomochi.Foundation.Redis
import Yomochi.Foundation.Numbers
import Yomochi.Foundation.IsoFormat
import Yomochi.Foundation.Framing
import Yomochi.Values
import Yomochi.Outbox.Rows
import Yomochi.Outbox.Poller
import Yomochi.Outbox.Locking
import Yomochi.Outbox.Delivery
import Yomochi.Outbox.Absorption
import Yomochi.Outbox.Contents
import Yomochi.Insights.Insight
import Yomochi.Insights.Repository
import Yomochi.Insights.Workers
import Yomochi.Insights.Effects
import Yomochi.Insights.UseCase
import Yomochi.Insights.Lease
import Yomochi.Insights.Terminal
import Yomochi.Insights.Fencing
import Yomochi.Insights.Budget
import Yomochi.Messaging.Pipeline
import Yomochi.Messaging.Supply
import Yomochi.Messaging.Projection
import Yomochi.Messaging.Consumer
import Yomochi.Messaging.Deliveries
import Yomochi.Http.Idempotency
import Yomochi.Http.AtMostOnce
import Yomochi.Http.Closing
import Yomochi.Recurring.Rules
import Yomochi.Recurring.Schedule
import Yomochi.Recurring.Session
import Yomochi.Recurring.Amounts
import Yomochi.Recurring.UseCases
import Yomochi.Recurring.FireDueRules
import Yomochi.Recurring.Firings
import Yomochi.Recurring.FireRuns
import Yomochi.Recurring.FailureIsolation
import Yomochi.Recurring.Progress
import Yomochi.Recurring.Effects
import Yomochi.Recurring.Interval
import Yomochi.Recurring.NextDates
import Yomochi.Users.Sessions
import Yomochi.Users.SessionIndex
import Yomochi.Users.Credentials
import Yomochi.Users.PasswordChange
import Yomochi.Users.ResetTokens
import Yomochi.Quota.Monthly
import Yomochi.Categories.Category
import Yomochi.Categories.Forest
import Yomochi.Categories.Isolation
import Yomochi.Http.ClientAddress
import Yomochi.Http.Replay
import Yomochi.Ai.Gateway
import Yomochi.Chat.Agreement
import Yomochi.Chat.Billing
import Yomochi.Insights.Aggregation
import Yomochi.Chat.ToolArguments
import Yomochi.Chat.Sse
import Yomochi.Listing.Exactness
import Yomochi.Insights.ShiftAlerts
import Yomochi.Insights.Periods
import Yomochi.Recurring.CatchUp
import Yomochi.Recurring.UpdateRule
import Yomochi.Values.Money
import Yomochi.Recurring.Storability
import Yomochi.Http.RateLimit
import Yomochi.Foundation.DecimalSum
import Yomochi.Foundation.Dict
import Yomochi.Insights.Snapshot
import Yomochi.Insights.RowOrder
import Yomochi.Insights.CategorySpikes
import Yomochi.Insights.HistoryMonths
import Yomochi.Foundation.DaysBack
import Yomochi.Foundation.IsoWeeks
import Yomochi.Reports.Trend
import Yomochi.Reports.TrendPeriods
import Yomochi.Foundation.Interleaving
import Yomochi.Chat.Reassembly
import Yomochi.Chat.ToolProtocol
import Yomochi.Ai.Limiter
import Yomochi.Foundation.PyDateTime
import Yomochi.Listing.MalformedCursors
import Yomochi.Insights.ShiftAlertJob
import Yomochi.Foundation.Like
import Yomochi.Search.TextSearch
import Yomochi.Foundation.JsonStrings
import Yomochi.Search.Cache
import Yomochi.Users.JwtRotation
import Yomochi.Insights.StatusStream
import Yomochi.Foundation.RangePartitions
import Yomochi.Audit.Partitions
import Yomochi.Audit.Maintenance
import Yomochi.Foundation.Chronology
import Yomochi.Chat.History
import Yomochi.Chat.Streaming
import Yomochi.Chat.Screen
import Yomochi.Chat.Tabs
import Yomochi.Foundation.Metering
import Yomochi.Chat.TokenBudget
import Yomochi.Foundation.Tenancy
import Yomochi.Listing.Tenants
import Yomochi.Foundation.Grouping
import Yomochi.Reports.Summary
import Yomochi.Reports.Figures
import Yomochi.Users.Authentication
import Yomochi.Transactions.Lifecycle
import Yomochi.Transactions.Ledger
import Yomochi.Transactions.Overlaps
import Yomochi.Transactions.Serial
import Yomochi.Insights.Versions
import Yomochi.Insights.Dashboard
import Yomochi.Users.Registration
import Yomochi.Users.Accounts
import Yomochi.Chat.Memory
import Yomochi.Chat.Dialog
