import BikesNest.Lib.Run
import BikesNest.Lib.Table
import BikesNest.Lib.Service
import BikesNest.Lib.Transaction
import BikesNest.Lib.EntryLock
import BikesNest.Lib.Threads
import BikesNest.Domain.Time
import BikesNest.Domain.Text
import BikesNest.Domain.Json
import BikesNest.Domain.Parking
import BikesNest.Domain.Account
import BikesNest.Domain.Email
import BikesNest.Community.Location
import BikesNest.Jobs.Schedule
import BikesNest.Jobs.Repo
import BikesNest.Jobs.Worker
import BikesNest.Jobs.Recurring
import BikesNest.Jobs.Exclusive
import BikesNest.Jobs.Fence
import BikesNest.Jobs.Attempts
import BikesNest.Store.Schema
import BikesNest.Store.Cells
import BikesNest.Community.Review
import BikesNest.Privacy.Anonymize
import BikesNest.Moderation.Repo
import BikesNest.Moderation.Service
import BikesNest.Moderation.Rating
import BikesNest.Privacy.Attribution
import BikesNest.Auth.Accounts
import BikesNest.Auth.Service
import BikesNest.Auth.Sessions
import BikesNest.Auth.QueuedMail
import BikesNest.Auth.SessionLifetime
import BikesNest.Auth.PasswordChange
import BikesNest.Privacy.Deletion
import BikesNest.Privacy.Retention
import BikesNest.Privacy.Uploads
import BikesNest.Privacy.RetentionJob
import BikesNest.Privacy.Inactivity
import BikesNest.Privacy.Export
import BikesNest.Moderation.Reports
import BikesNest.Auth.Lifecycle
import BikesNest.Auth.MailedTokens
import BikesNest.Community.Contribution
import BikesNest.Community.Feedback
import BikesNest.Community.Aggregate
import BikesNest.Moderation.Actions
import BikesNest.History.Snapshot
import BikesNest.History.Operations
import BikesNest.History.Chain
import BikesNest.History.EditForm
import BikesNest.History.Proposals
import BikesNest.History.Revisions
import BikesNest.Community.Service
import BikesNest.Moderation.Takedown
import BikesNest.Domain.Hours
import BikesNest.Community.HoursForm
import BikesNest.Search.OpenNow
import BikesNest.Lib.Keyset
import BikesNest.Search.Request
import BikesNest.Search.Reader
import BikesNest.Search.Pagination
import BikesNest.Lib.SlidingWindow
import BikesNest.RateLimit.InMemory
import BikesNest.RateLimit.ValKey
import BikesNest.Lib.RowLocks
import BikesNest.Auth.LastAdmin
import BikesNest.Community.Proposal
import BikesNest.Moderation.Proposals
import BikesNest.Moderation.Failure
import BikesNest.Auth.ActiveAdmin
import BikesNest.Photos.Service
import BikesNest.Moderation.TakenDown
import BikesNest.Auth.Linking
import BikesNest.Lib.Knowledge
import BikesNest.Photos.Operations
import BikesNest.Photos.Objects
import BikesNest.Lib.IpAddr
import BikesNest.Web.ClientIp
import BikesNest.Search.Browse
import BikesNest.Search.UseCases
import BikesNest.Lib.Paging
import BikesNest.Community.ReviewList
import BikesNest.Photos.Queue
import BikesNest.Community.ContributionHistory
import BikesNest.Community.ReviewHistory
import BikesNest.Privacy.PurgedCredentials
import BikesNest.Lib.Outline
import BikesNest.Privacy.DeletionOutcome
import BikesNest.Privacy.Download
import BikesNest.Lib.Guarantee
import BikesNest.Photos.Moderation
import BikesNest.Photos.Reconcile
import BikesNest.Lib.Latch
import BikesNest.Moderation.ReportRaces
import BikesNest.Auth.Writes
import BikesNest.Auth.PasswordIdentity
import BikesNest.Auth.Redemption
import BikesNest.Privacy.Policies
import BikesNest.Jobs.Rows
import BikesNest.Lib.Cursor
import BikesNest.Lib.Interrupted
import BikesNest.Photos.OrphanSweep
import BikesNest.Search.Ranking
import BikesNest.RateLimit.Bounded
import BikesNest.RateLimit.FailOpen
import BikesNest.Jobs.RunTimes
import BikesNest.Photos.Gallery
import BikesNest.Community.Freshness
import BikesNest.Lib.Versions
import BikesNest.Community.Favorites
import BikesNest.Lib.ForeignKeys
import BikesNest.Store.Migrations
import BikesNest.Privacy.HardPurge
import BikesNest.Lib.Arcs
import BikesNest.Community.HoursMeaning
import BikesNest.Community.HoursFields
import BikesNest.Community.Confidence
import BikesNest.Community.ProposalCodec
import BikesNest.Community.ProposalForm
import BikesNest.Moderation.Merge
import BikesNest.Search.Details
import BikesNest.Community.Explanation
import BikesNest.Lib.Distinct
import BikesNest.Community.Activity
import BikesNest.Community.LocationForm
import BikesNest.Community.StoredLocation
import BikesNest.Web.LoginNext
import BikesNest.Auth.SessionId
import BikesNest.Web.Csrf
import BikesNest.Geo.Timezone
import BikesNest.Geo.GeocodeCache
import BikesNest.Auth.UserSearch
import BikesNest.Lib.Grid
import BikesNest.Lib.Binary64
import BikesNest.Community.Price
import BikesNest.Community.Duplicates
import BikesNest.Privacy.Placeholders
import BikesNest.Lib.Percent
import BikesNest.Web.Query
import BikesNest.Lib.Cookies
import BikesNest.Web.Cookies
import BikesNest.Web.Forms
import BikesNest.Web.LoginReturn
import BikesNest.Web.SearchLinks
import BikesNest.Web.Language
import BikesNest.Lib.MovingPages
import BikesNest.Web.Queues
import BikesNest.Web.AuditLog
import BikesNest.Lib.Extract
import BikesNest.Privacy.ExportContents
import BikesNest.Lib.JsonText
import BikesNest.Domain.SerdeJson
import BikesNest.Web.MapData
import BikesNest.Web.CursorText
import BikesNest.Lib.Base64
import BikesNest.Jobs.Mail
import BikesNest.Web.GeocodeBudget
import BikesNest.Auth.SeedAdmin
import BikesNest.Community.Signals
import BikesNest.Community.Tallies
