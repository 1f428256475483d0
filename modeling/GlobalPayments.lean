import GlobalPayments.Library.Runs
import GlobalPayments.Library.Linearization
import GlobalPayments.Library.Query
import GlobalPayments.Library.Versioned
import GlobalPayments.Library.BigDecimal
import GlobalPayments.Library.Json
import GlobalPayments.Library.PyJson
import GlobalPayments.Library.JsonText
import GlobalPayments.Library.Middleware
import GlobalPayments.Library.FixedWindow
import GlobalPayments.Library.Frame
import GlobalPayments.Library.Binary64
import GlobalPayments.Library.Numeral
import GlobalPayments.Library.Rounding
import GlobalPayments.Library.PyText
import GlobalPayments.Library.PyDecimal
import GlobalPayments.Library.DecimalText
import GlobalPayments.Library.NumberText
import GlobalPayments.Library.ReprText
import GlobalPayments.Library.DigitOrder
import GlobalPayments.Library.Hexadecimal
import GlobalPayments.Library.Pattern
import GlobalPayments.Library.ConsumerGroup
import GlobalPayments.Library.Sessions
import GlobalPayments.Library.CircuitBreaker
import GlobalPayments.Payments.Money
import GlobalPayments.Payments.Reference
import GlobalPayments.Payments.Generator
import GlobalPayments.Payments.Sorting
import GlobalPayments.Payments.Entity
import GlobalPayments.Payments.Service
import GlobalPayments.Payments.Exceptions
import GlobalPayments.Payments.Pages
import GlobalPayments.Payments.Validation
import GlobalPayments.Payments.Database
import GlobalPayments.Payments.Transactions
import GlobalPayments.Payments.Invariant
import GlobalPayments.Payments.Lookups
import GlobalPayments.Payments.Identifiers
import GlobalPayments.Payments.Writes
import GlobalPayments.Payments.Retries
import GlobalPayments.Payments.Backoff
import GlobalPayments.Payments.Lifecycle
import GlobalPayments.Payments.Refunds
import GlobalPayments.Payments.Counters
import GlobalPayments.Payments.Serial
import GlobalPayments.Payments.Ordering
import GlobalPayments.Payments.Topic
import GlobalPayments.Payments.Idempotency
import GlobalPayments.Payments.HeaderKey
import GlobalPayments.Payments.Events
import GlobalPayments.Payments.Security
import GlobalPayments.Payments.Controller
import GlobalPayments.Gateway.Auth
import GlobalPayments.Gateway.Upstream
import GlobalPayments.Gateway.Delegation
import GlobalPayments.Gateway.Lookup
import GlobalPayments.Gateway.Breaker
import GlobalPayments.Gateway.Routes
import GlobalPayments.Gateway.PathIds
import GlobalPayments.Gateway.Relay
import GlobalPayments.Gateway.Amounts
import GlobalPayments.Gateway.NumberAmounts
import GlobalPayments.Gateway.Listing
import GlobalPayments.Gateway.RateLimit
import GlobalPayments.Recon.Cell
import GlobalPayments.Recon.Loading
import GlobalPayments.Recon.Reconcile
import GlobalPayments.Recon.Matching
import GlobalPayments.Recon.Absence
import GlobalPayments.Recon.Classify
import GlobalPayments.Recon.Records
import GlobalPayments.Recon.Worker
import GlobalPayments.Recon.Invariant
import GlobalPayments.Recon.Handler
import GlobalPayments.Recon.Schedule
import GlobalPayments.Recon.Failed
import GlobalPayments.Recon.Coverage
import GlobalPayments.Recon.Provenance
import GlobalPayments.Recon.Amounts
import GlobalPayments.Recon.Conservation
import GlobalPayments.Recon.Tally
import GlobalPayments.Recon.Reports
import GlobalPayments.Recon.Serving
import GlobalPayments.Recon.Listing
import GlobalPayments.Recon.Finality
import GlobalPayments.Recon.Summaries
import GlobalPayments.Recon.Totals
import GlobalPayments.Recon.Journal
import GlobalPayments.Recon.Retry
import GlobalPayments.Consumer.PaymentEvents
import GlobalPayments.Consumer.Payloads
import GlobalPayments.Consumer.Events
import GlobalPayments.Consumer.Pipeline
