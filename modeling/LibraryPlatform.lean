import LibraryPlatform.KeyedTable
import LibraryPlatform.Ranking
import LibraryPlatform.Transaction
import LibraryPlatform.TransactionLogic
import LibraryPlatform.SerialRuns
import LibraryPlatform.Moves
import LibraryPlatform.Snapshots
import LibraryPlatform.Confinement
import LibraryPlatform.UniqueIndex
import LibraryPlatform.Tracing
import LibraryPlatform.Erasure
import LibraryPlatform.Deadlock
import LibraryPlatform.FreshKeys
import LibraryPlatform.Completion
import LibraryPlatform.LockSpans
import LibraryPlatform.Domain
import LibraryPlatform.ErrorResponses
import LibraryPlatform.Database
import LibraryPlatform.Repositories
import LibraryPlatform.Services
import LibraryPlatform.AuthService
import LibraryPlatform.StatementRules
import LibraryPlatform.Requests
import LibraryPlatform.ReservationEffects
import LibraryPlatform.BorrowEffects
import LibraryPlatform.BookEffects
import LibraryPlatform.TokenEffects
import LibraryPlatform.TokenFamilies
import LibraryPlatform.TokenRace
import LibraryPlatform.TokenBreach
import LibraryPlatform.Operations
import LibraryPlatform.Transactional
import LibraryPlatform.Inventory
import LibraryPlatform.Loans
import LibraryPlatform.Queue
import LibraryPlatform.Fifo
import LibraryPlatform.Holds
import LibraryPlatform.Concurrency
import LibraryPlatform.Postings
import LibraryPlatform.Shelf
import LibraryPlatform.Checkout
import LibraryPlatform.History
import LibraryPlatform.LifeCycle
import LibraryPlatform.Sweep
import LibraryPlatform.QueuePositions
import LibraryPlatform.WaitingTime
import LibraryPlatform.HoldWindow
import LibraryPlatform.Fines
import LibraryPlatform.LoanCalls
import LibraryPlatform.ReturnRetry
import LibraryPlatform.ReturnRace
import LibraryPlatform.LockPhases
import LibraryPlatform.LockOrder
import LibraryPlatform.ActiveReservations
import LibraryPlatform.LoanLimit
import LibraryPlatform.Api
import LibraryPlatform.Ownership
import LibraryPlatform.BookChanges
import LibraryPlatform.DeletedBooks
import LibraryPlatform.Renewals
import LibraryPlatform.Sessions
import LibraryPlatform.BookCalls
import LibraryPlatform.IsbnCheck
import LibraryPlatform.LoginSecrecy
import LibraryPlatform.Grouping
import LibraryPlatform.Dashboard
import LibraryPlatform.Reconciliation
import LibraryPlatform.Arrangement
import LibraryPlatform.Sorting
import LibraryPlatform.PopularBooks
import LibraryPlatform.BookSearch
import LibraryPlatform.Like
import LibraryPlatform.Pages
import LibraryPlatform.BorrowCalls
import LibraryPlatform.LoanReports
import LibraryPlatform.BookBodies
import LibraryPlatform.Exits
import LibraryPlatform.Refusals
import LibraryPlatform.Inquiries
import LibraryPlatform.Traffic
import LibraryPlatform.Answers
import LibraryPlatform.Authority
import LibraryPlatform.Passing
import LibraryPlatform.Conservation
import LibraryPlatform.Midway
import LibraryPlatform.LoanRaces
import LibraryPlatform.Descent
import LibraryPlatform.Registration
import LibraryPlatform.Registrations
import LibraryPlatform.AccessTokens
import LibraryPlatform.Desk
import LibraryPlatform.DeskWork
import LibraryPlatform.Itineraries
import LibraryPlatform.Atomicity
import LibraryPlatform.Discretion
import LibraryPlatform.VisitLocks
import LibraryPlatform.Endings
import LibraryPlatform.Precedence
