import Komanda.Proofs.IdempotencyRuns
import Komanda.Proofs.Operations
import Komanda.Proofs.Effects
import Komanda.Proofs.Rows
import Komanda.Proofs.ApprovedPayments
import Komanda.Proofs.CashLedger
import Komanda.Proofs.ChargedAmounts
import Komanda.Proofs.ShiftCash
import Komanda.Proofs.FinalApprovals
import Komanda.Proofs.CouponLimits
import Komanda.Proofs.OrderVersions
import Komanda.Proofs.StoredAnswers
import Komanda.Proofs.OwnOrders
import Komanda.Proofs.Confirmations
import Komanda.PrintRuns
import Komanda.Proofs.PrintQueue
import Komanda.Proofs.Tickets
import Komanda.Proofs.LifeCycle
import Komanda.Proofs.SoldCarts
import Komanda.Proofs.SoldOnce
import Komanda.Proofs.HeldCarts
import Komanda.Proofs.StockAccounts
import Komanda.Proofs.Notifications
import Komanda.Proofs.NewCarts
import Komanda.Proofs.PayableCarts
import Komanda.Proofs.ShiftExclusivity
import Komanda.Proofs.CouponChannels
import Komanda.Proofs.ShiftMovements
import Komanda.Proofs.CouponDecisions
import Komanda.Proofs.CashExpiry
import Komanda.Lib.Feed
import Komanda.Lib.NumberedLog
import Komanda.OrderEvents
import Komanda.Proofs.EventFeed
import Komanda.Catalog
import Komanda.CatalogEdits
import Komanda.Proofs.CatalogRows
import Komanda.Proofs.VersionedEdits
import Komanda.Proofs.CatalogPatches
import Komanda.Proofs.Archiving
import Komanda.Proofs.Publishing
import Komanda.Proofs.AddonGroups
import Komanda.Lib.RowSecurity
import Komanda.Platform
import Komanda.PlatformJobs
import Komanda.Proofs.JobScans
import Komanda.ServiceLookups
import Komanda.Proofs.ServiceLookups
import Komanda.SearchProjection
import Komanda.Proofs.SearchSync
import Komanda.Proofs.SearchProjection
import Komanda.Proofs.OutboxEvents
import Komanda.OrderStream
import Komanda.Proofs.OrderStream
import Komanda.Lib.Keyset
import Komanda.OrderList
import Komanda.Proofs.OrderList
import Komanda.PrintPairing
import Komanda.Proofs.PrintPairing
import Komanda.Proofs.PairingCodes
import Komanda.Promotions
import Komanda.Proofs.CouponDefinitions
import Komanda.Members
import Komanda.Proofs.LastOwner
import Komanda.Proofs.Invitations
import Komanda.Proofs.Activation
import Komanda.Storefront
import Komanda.Proofs.Storefront
import Komanda.OutboxDispatch
import Komanda.Proofs.OutboxDispatch
import Komanda.Proofs.Billing
import Komanda.Lib.Binary64
import Komanda.Lib.MaxNumbers
import Komanda.Proofs.Redemptions
import Komanda.Credentials
import Komanda.Provisioning
import Komanda.Proofs.Credentials
import Komanda.Proofs.Provisioning
import Komanda.Proofs.OneTimeTokens
import Komanda.Proofs.PasswordResets
import Komanda.Lib.BatchedDelete
import Komanda.Retention
import Komanda.Proofs.Retention
import Komanda.Lib.ForeignKeys
import Komanda.TenantErasure
import Komanda.Proofs.TenantErasure
import Komanda.Proofs.CartArithmetic
import Komanda.Preferences
import Komanda.Proofs.Preferences
import Komanda.ShopCart
import Komanda.Proofs.ShopLines
import Komanda.Lib.Grouping
import Komanda.Scheduling
import Komanda.Proofs.Scheduling
import Komanda.Proofs.OpeningHours
import Komanda.Proofs.ShopOptions
import Komanda.Proofs.ShopSync
import Komanda.Lib.JsonValue
import Komanda.Lib.StableSort
import Komanda.Lib.JsonText
import Komanda.Proofs.RequestHash
import Komanda.BarcodeLookup
import Komanda.Proofs.BarcodeLookup
import Komanda.Lib.DecimalSums
import Komanda.Settlement
import Komanda.Proofs.Settlement
import Komanda.Proofs.PrintRetries
import Komanda.Analytics
import Komanda.Lib.Buckets
import Komanda.PeakHours
import Komanda.Proofs.AnalyticsMoney
import Komanda.Proofs.PeakHours
import Komanda.FinancialSummary
import Komanda.Proofs.FinancialSummary
import Komanda.Lib.InsertionMap
import Komanda.CustomerRecurrence
import Komanda.Proofs.CustomerRecurrence
import Komanda.Lib.OffsetPages
import Komanda.DiscountListing
import Komanda.Proofs.DiscountListing
import Komanda.Lib.Constraints
import Komanda.KioskSessions
import Komanda.Proofs.KioskSessions
import Komanda.OpeningHoursText
import Komanda.Proofs.OpeningHoursText
import Komanda.Lib.FixedWindows
import Komanda.RateLimiter
import Komanda.Proofs.RateLimiter
import Komanda.OrderWorkflow
import Komanda.Proofs.OrderWorkflow
import Komanda.Proofs.Redaction
import Komanda.Dashboard
import Komanda.Proofs.Dashboard
import Komanda.LiveOrders
import Komanda.Proofs.LiveOrders
import Komanda.Lib.EventStream
import Komanda.StreamText
import Komanda.Proofs.StreamText
import Komanda.Lib.SlidingWindow
import Komanda.SearchRateLimiter
import Komanda.Proofs.SearchRateLimiter
import Komanda.PrintAgents
import Komanda.Proofs.PrintAgents
import Komanda.Lib.Journal
import Komanda.Proofs.OrderJournal
import Komanda.Proofs.Receipts
import Komanda.SellerLinks
import Komanda.Proofs.SellerLinks
import Komanda.Lib.Csv
import Komanda.Lib.CivilDate
import Komanda.SalesExport
import Komanda.Proofs.SalesExport
import Komanda.MenuTelemetry
import Komanda.Proofs.MenuTelemetry
import Komanda.Proofs.StorefrontAddresses
import Komanda.WebhookVerifier
import Komanda.Proofs.WebhookVerifier
