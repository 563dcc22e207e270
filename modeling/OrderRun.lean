import OrderRun.Lib.Table
import OrderRun.Lib.Runs
import OrderRun.Lib.Split
import OrderRun.Lib.Serial
import OrderRun.Lib.Upsert
import OrderRun.Lib.Raises
import OrderRun.Lib.Trim
import OrderRun.Core.Errors
import OrderRun.Core.Config
import OrderRun.Core.Phone
import OrderRun.Accounts.SmsAddress
import OrderRun.Models.Database
import OrderRun.Events.Bus
import OrderRun.Services.UnitOfWork
import OrderRun.Services.Offer
import OrderRun.Services.Proposal
import OrderRun.Services.ProposalReport
import OrderRun.Services.UserWithdrawal
import OrderRun.Services.Call
import OrderRun.Deal.Lifecycle
import OrderRun.Deal.Chronicle
import OrderRun.Deal.Refinement
import OrderRun.Sequential.Joint
import OrderRun.Sequential.Level
import OrderRun.Sequential.Log
import OrderRun.Services.Transitions
import OrderRun.Sequential.Timestamps
import OrderRun.Concurrent.Commits
import OrderRun.Concurrent.Matching
import OrderRun.Concurrent.Pair
import OrderRun.Concurrent.Completion
import OrderRun.Concurrent.Independence
import OrderRun.Concurrent.Bystanders
import OrderRun.Concurrent.Confirmations
import OrderRun.Concurrent.Terminal
import OrderRun.Concurrent.Payment
import OrderRun.Notification.Worker
import OrderRun.Notification.Delivery
import OrderRun.Notification.Reading
import OrderRun.Accounts.LiveCode
import OrderRun.Accounts.Profile
import OrderRun.Notification.SendToUser
import OrderRun.Accounts.Settlement
import OrderRun.Accounts.Terms
import OrderRun.Accounts.Auth
import OrderRun.Application.Command
import OrderRun.Application.Deals
import OrderRun.Queries.Search
import OrderRun.Application.Moderation
import OrderRun.Application.Responses
import OrderRun.Application.Withdrawal
import OrderRun.Application.WayOut
import OrderRun.Application.Effects
import OrderRun.Application.Announcements
import OrderRun.Application.Background
import OrderRun.Application.Retries
import OrderRun.Queries.Evidence
import OrderRun.Application.Evidence
import OrderRun.Queries.Detail
import OrderRun.Application.ChatLinks
import OrderRun.Concurrent.Guessing
import OrderRun.Application.Tokens
import OrderRun.Application.Sessions
import OrderRun.Application.Requests
import OrderRun.Application.Texts
import OrderRun.Application.References
import OrderRun.Lib.Session
import OrderRun.Transactions.Statements
import OrderRun.Transactions.Methods
import OrderRun.Transactions.Atomicity
import OrderRun.Transactions.Confirmation
import OrderRun.Transactions.FailingCalls
import OrderRun.Lib.Pages
import OrderRun.Queries.Listing
import OrderRun.Queries.People
import OrderRun.Queries.Traversal
import OrderRun.Queries.Inbox
import OrderRun.Application.ReadCounts
import OrderRun.Application.Acceptance
import OrderRun.Application.Recipients
import OrderRun.Notification.Dispatcher
import OrderRun.Application.Pushes
import OrderRun.Lib.Relation
import OrderRun.Lib.Redo
import OrderRun.Lib.TableSteps
import OrderRun.Migrations.Versions
import OrderRun.Migrations.Columns
import OrderRun.Migrations.Evidences
import OrderRun.Migrations.Runs
import OrderRun.Migrations.History
import OrderRun.Lib.TableEffects
import OrderRun.Migrations.Downgrades
import OrderRun.Migrations.Restarts
import OrderRun.Migrations.RoundTrip
