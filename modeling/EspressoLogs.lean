import EspressoLogs.Lib.Prog
import EspressoLogs.Lib.Store
import EspressoLogs.Lib.Tenancy
import EspressoLogs.Lib.Noninterference
import EspressoLogs.Py.Number
import EspressoLogs.Py.Date
import EspressoLogs.Py.Value
import EspressoLogs.Schema
import EspressoLogs.Db
import EspressoLogs.Repos.Catalog
import EspressoLogs.Repos.Hardware
import EspressoLogs.Repos.Inventory
import EspressoLogs.Repos.BrewLog
import EspressoLogs.Repos.Maintenance
import EspressoLogs.DualWrite
import EspressoLogs.Responses
import EspressoLogs.Services.Inference
import EspressoLogs.Routers.BrewLog
import EspressoLogs.Routers.Catalog
import EspressoLogs.Routers.Equipment
import EspressoLogs.Deps
import EspressoLogs.Routers.Households
import EspressoLogs.Routers.Overview
import EspressoLogs.Api
import EspressoLogs.Tenant.Confinement
import EspressoLogs.Tenant.Independence
import EspressoLogs.Tenant.Upserts
import EspressoLogs.Tenant.Guard
import EspressoLogs.Tenant.Context
import EspressoLogs.Accounts.Active
import EspressoLogs.Accounts.GuestLinks
import EspressoLogs.Accounts.Leaving
import EspressoLogs.Tenant.GetPut
import EspressoLogs.Tenant.ComesBack
import EspressoLogs.Lib.Concurrent
import EspressoLogs.Lib.Outline
import EspressoLogs.Lib.Checked
import EspressoLogs.Accounts.Clients
import EspressoLogs.Accounts.MemberLimit
import EspressoLogs.Accounts.SingleUse
import EspressoLogs.Accounts.OpenInvitations
import EspressoLogs.Auth.Endpoints
import EspressoLogs.Lib.Joined
import EspressoLogs.Lib.Ordered
import EspressoLogs.Lib.Fallible
import EspressoLogs.Lib.Csv
import EspressoLogs.Importer.Schema
import EspressoLogs.Importer.Mapping
import EspressoLogs.Importer.DryRun
import EspressoLogs.Importer.Rows
import EspressoLogs.Importer.Enums
import EspressoLogs.Py.Fixed
import EspressoLogs.Lib.Lockout
import EspressoLogs.Frontend.CompassChart
import EspressoLogs.Lib.Oracle
import EspressoLogs.Shots.Feedback
import EspressoLogs.Lib.Paging
import EspressoLogs.Shots.Pages
import EspressoLogs.Lib.Choice
import EspressoLogs.Shots.Latest
import EspressoLogs.Lib.Relational
import EspressoLogs.Shots.GuestView
import EspressoLogs.Lib.Markup
import EspressoLogs.Shots.UserData
import EspressoLogs.Lib.Bypass
import EspressoLogs.Lib.Sweep
import EspressoLogs.Startup.Backfill
import EspressoLogs.Startup.Gaps
import EspressoLogs.Startup.OnlyGaps
import EspressoLogs.Startup.Starts
import EspressoLogs.Accounts.LiveInvitations
import EspressoLogs.Accounts.RateLimit
import EspressoLogs.Importer.Sections
import EspressoLogs.Importer.RoundTrip
import EspressoLogs.Lib.Turns
import EspressoLogs.Services.IdempotencyStore
import EspressoLogs.Shots.IdempotencyCache
import EspressoLogs.Auth.SigningKey
import EspressoLogs.OAuth.Callback
import EspressoLogs.OAuth.SingleUse
import EspressoLogs.Py.IpAddress
import EspressoLogs.Py.Url
import EspressoLogs.Services.ImageSourcer
import EspressoLogs.Services.InternalRequests
import EspressoLogs.Importer.MappingPrompt
import EspressoLogs.Lib.Fresh
import EspressoLogs.Services.FreshIds
import EspressoLogs.Lib.Isolation
import EspressoLogs.Scripts.Reconcile
import EspressoLogs.Lib.Cache
import EspressoLogs.Repos.Sheets
import EspressoLogs.Lib.Along
import EspressoLogs.Repos.SheetsCache
import EspressoLogs.Frontend.AuthSession
import EspressoLogs.Frontend.Logout
import EspressoLogs.Auth.Lockout
import EspressoLogs.Auth.Clients
import EspressoLogs.Lib.Chain
import EspressoLogs.Lib.Closing
import EspressoLogs.Auth.Rotation
import EspressoLogs.Lib.Follow
import EspressoLogs.Auth.Replay
import EspressoLogs.Auth.Logout
import EspressoLogs.Lib.Retained
import EspressoLogs.Shots.Creates
import EspressoLogs.Shots.Ledger
import EspressoLogs.Shots.ExactlyOnce
import EspressoLogs.Shots.Replays
import EspressoLogs.Auth.Backed
import EspressoLogs.Lib.Upsert
import EspressoLogs.Lib.Script
import EspressoLogs.Scripts.Mapping
import EspressoLogs.Scripts.Migration
import EspressoLogs.Scripts.Migrated
import EspressoLogs.Scripts.Rerun
import EspressoLogs.Scripts.Validation
import EspressoLogs.Scripts.Validated
