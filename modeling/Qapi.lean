import Qapi.Core.Table
import Qapi.Core.Machine
import Qapi.Core.Result
import Qapi.Core.Text
import Qapi.Core.Calendar
import Qapi.Core.Numbers
import Qapi.Core.Ledger
import Qapi.Subscription.Basic
import Qapi.Subscription.Consume
import Qapi.Subscription.Admin
import Qapi.Subscription.Calls
import Qapi.Subscription.Bounds
import Qapi.Subscription.Int64
import Qapi.Subscription.RefundOnce
import Qapi.Subscription.PeriodReset
import Qapi.Subscription.ResetProgress
import Qapi.Subscription.LazyReset
import Qapi.Subscription.DuplicateConsume
import Qapi.Billing.Quota
import Qapi.Billing.Session
import Qapi.Billing.NewSession
import Qapi.Billing.Atomic
import Qapi.Billing.Lifecycle
import Qapi.Billing.ExactlyOnce
import Qapi.Pricing.Basic
import Qapi.Pricing.Text
import Qapi.Relay.Attempts
import Qapi.Relay.GroupRatio
import Qapi.Billing.Realtime
import Qapi.Billing.RealtimeCharges
import Qapi.Override.Value
import Qapi.Override.Body
import Qapi.Override.Apply
import Qapi.Override.Isolation
import Qapi.Override.Nodes
import Qapi.Override.Wildcard
import Qapi.Override.Deletion
import Qapi.Override.WildcardDelete
import Qapi.Async.Basic
import Qapi.Async.Billing
import Qapi.Async.Video
import Qapi.Async.Suno
import Qapi.Async.Midjourney
import Qapi.Async.GroupRatio
import Qapi.Wallet.CreditOnce
import Qapi.Wallet.Epay
import Qapi.Wallet.Manual
import Qapi.Subscription.Orders
import Qapi.Core.Agents
import Qapi.Subscription.PurchaseLimit
import Qapi.Subscription.Groups
import Qapi.Async.Polling
import Qapi.Async.PollingRefunds
import Qapi.Wallet.UserRow
import Qapi.SystemTask.Basic
import Qapi.SystemTask.Runner
import Qapi.SystemTask.Orphans
import Qapi.Activation.Basic
import Qapi.Activation.Reconcile
import Qapi.Activation.Execute
import Qapi.Activation.History
import Qapi.Activation.Lifecycle
import Qapi.Stream.Chat
import Qapi.Stream.Responses
import Qapi.Stream.Walk
import Qapi.Stream.ToolCalls
import Qapi.Stream.CallStream
import Qapi.Stream.Claude
import Qapi.Stream.ClaudeEnd
import Qapi.Stream.ClaudeResponses
import Qapi.Stream.ClaudeBlocks
import Qapi.Core.Routing
import Qapi.Stream.ClaudeContent
import Qapi.Channels.Cache
import Qapi.Channels.Select
import Qapi.Channels.Disabled
import Qapi.Channels.Keys
import Qapi.Convert.Claude
import Qapi.Convert.Gemini
import Qapi.Pricing.ChatUsage
import Qapi.Core.Expiring
import Qapi.Core.Limiter
import Qapi.Middleware.Concurrency
import Qapi.Core.Address
import Qapi.Core.HostPort
import Qapi.Fetch.Protection
import Qapi.Fetch.Dial
import Qapi.Pricing.TextBounds
import Qapi.Core.Transactions
import Qapi.Wallet.Redeem
import Qapi.Pricing.ExprCache
import Qapi.Wallet.BatchUpdate
import Qapi.Updater.Component
import Qapi.Stream.OutputText
import Qapi.Relay.AutoGroups
import Qapi.Middleware.TokenBucket
import Qapi.Relay.StreamScanner
