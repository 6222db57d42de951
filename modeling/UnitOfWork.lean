import UnitOfWork.Assoc
import UnitOfWork.Calendar.Date
import UnitOfWork.Calendar.Layout
import UnitOfWork.Collection
import UnitOfWork.Context
import UnitOfWork.Database
import UnitOfWork.Driver
import UnitOfWork.Environment
import UnitOfWork.Error
import UnitOfWork.FieldType
import UnitOfWork.Heap
import UnitOfWork.Identifier
import UnitOfWork.Json.Number
import UnitOfWork.Json.Reader
import UnitOfWork.Json.Token
import UnitOfWork.Json.Value
import UnitOfWork.Loader
import UnitOfWork.Mapping
import UnitOfWork.Mapping.Descriptor
import UnitOfWork.Mapping.Printer
import UnitOfWork.Number.Double
import UnitOfWork.Number.Shortest
import UnitOfWork.Persister
import UnitOfWork.Plan
import UnitOfWork.Pool
import UnitOfWork.Queue
import UnitOfWork.Rows
import UnitOfWork.Session
import UnitOfWork.Session.Basic
import UnitOfWork.Session.Flush
import UnitOfWork.Session.Printer
import UnitOfWork.Settings
import UnitOfWork.Settings.Reader
import UnitOfWork.Statement
import UnitOfWork.Step
import UnitOfWork.Store
import UnitOfWork.Store.Address
import UnitOfWork.Store.Cell
import UnitOfWork.Store.Fault
import UnitOfWork.Store.Location
import UnitOfWork.Store.Numeral
import UnitOfWork.Store.Script
import UnitOfWork.Store.Table
import UnitOfWork.Store.Transactional
import UnitOfWork.Text.Blank
import UnitOfWork.Text.Case
import UnitOfWork.Text.Invisible
import UnitOfWork.Text.Quoted
import UnitOfWork.Value
import UnitOfWork.Work
import UnitOfWork.Proofs.Actions
import UnitOfWork.Proofs.Flush
import UnitOfWork.Proofs.Loads
import UnitOfWork.Proofs.Runs
import UnitOfWork.Proofs.Transactions
import UnitOfWork.Proofs.Atomicity
import UnitOfWork.Proofs.Stores
import UnitOfWork.Proofs.IdentityMap
import UnitOfWork.Proofs.Lookups
import UnitOfWork.Proofs.Calls
import UnitOfWork.Proofs.FlushOrder
import UnitOfWork.Proofs.Failures
import UnitOfWork.Proofs.Tables
import UnitOfWork.Proofs.Records
import UnitOfWork.Proofs.Tabular
import UnitOfWork.Proofs.Writes
import UnitOfWork.Proofs.Mirrors
import UnitOfWork.Proofs.Gating
import UnitOfWork.Proofs.Duplicates
import UnitOfWork.Proofs.Tracking
import UnitOfWork.Proofs.Building
import UnitOfWork.Proofs.Residents
import UnitOfWork.Proofs.Standing
import UnitOfWork.Proofs.Depths
import UnitOfWork.Proofs.Graphs
import UnitOfWork.Proofs.Stages
import UnitOfWork.Proofs.Updates
import UnitOfWork.Proofs.Quiescence
import UnitOfWork.Proofs.Custody
import UnitOfWork.Proofs.Endings
import UnitOfWork.Proofs.BackReferences
import UnitOfWork.Proofs.References
import UnitOfWork.Proofs.AutoCommit
import UnitOfWork.Proofs.Fallible
import UnitOfWork.Proofs.CleanLeases
import UnitOfWork.Proofs.CommitOutcome
import UnitOfWork.Proofs.Ledgers
import UnitOfWork.Proofs.Terminal
import UnitOfWork.Proofs.Blame
import UnitOfWork.Proofs.GeneratedKeys
import UnitOfWork.Proofs.Calendar
import UnitOfWork.Proofs.Rounding
import UnitOfWork.Proofs.Storage
import UnitOfWork.Proofs.Stock
import UnitOfWork.Proofs.NewRows
import UnitOfWork.Proofs.Survival
import UnitOfWork.Proofs.Declarations
import UnitOfWork.Proofs.ByteOrder
import UnitOfWork.Proofs.DirtyCheck
import UnitOfWork.Proofs.Loans
import UnitOfWork.Proofs.Isolation
import UnitOfWork.Proofs.Statements
import UnitOfWork.Proofs.BinaryHeap
import UnitOfWork.Proofs.Tickets
import UnitOfWork.Proofs.Openings
import UnitOfWork.Proofs.Echoes
import UnitOfWork.Proofs.EchoedSessions
import UnitOfWork.Proofs.EchoRuns
import UnitOfWork.Proofs.SharedTables
import UnitOfWork.Proofs.Positions
