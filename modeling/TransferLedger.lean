import TransferLedger.Broker.Hub
import TransferLedger.Ledger.Memory
import TransferLedger.Main
import TransferLedger.Proofs.Bank.Row
import TransferLedger.Proofs.Decimal.Value
import TransferLedger.Proofs.Bank.Operations
import TransferLedger.Proofs.Bank.Transfer
import TransferLedger.Proofs.Transfer.Plan
import TransferLedger.Proofs.Books.Register
import TransferLedger.Proofs.Service.Transactions
import TransferLedger.Proofs.Books.Simulation
import TransferLedger.Proofs.Books.Balances
import TransferLedger.Proofs.Books.Overdraft
import TransferLedger.Proofs.Broker.Queues
import TransferLedger.Proofs.Service.Outcome
import TransferLedger.Proofs.Text.Utf8
import TransferLedger.Proofs.Json.Text
import TransferLedger.Proofs.Json.Number
import TransferLedger.Proofs.Json.Record
import TransferLedger.Proofs.Event
import TransferLedger.Proofs.Ledger.Entry
import TransferLedger.Proofs.Ledger.Table
import TransferLedger.Proofs.Broker.Relay
import TransferLedger.Proofs.Ledger.Pairs
import TransferLedger.Proofs.Ledger.Writer
import TransferLedger.Proofs.Pipeline.Run
import TransferLedger.Proofs.Pipeline.Invariant
import TransferLedger.Proofs.Pipeline.Kept
import TransferLedger.Proofs.Ledger.Reading
import TransferLedger.Proofs.Pipeline.DoubleEntry
import TransferLedger.Proofs.Text.Blank
import TransferLedger.Proofs.Ledger.Acceptance
import TransferLedger.Proofs.Ledger.Memory
import TransferLedger.Proofs.Pipeline.Delivery
import TransferLedger.Proofs.Books.Queries
import TransferLedger.Proofs.Service.Reconciliation
import TransferLedger.Proofs.Ledger.Balance
import TransferLedger.Proofs.Pipeline.Report
import TransferLedger.Proofs.Pipeline.Reconciled
import TransferLedger.Proofs.Pipeline.Drain
import TransferLedger.Proofs.Pipeline.Replay
import TransferLedger.Proofs.Books.Currency
import TransferLedger.Proofs.Books.Deeds
import TransferLedger.Proofs.Books.Once
import TransferLedger.Proofs.Broker.Accounting
import TransferLedger.Proofs.Instant.Calendar
import TransferLedger.Proofs.Instant.Order
import TransferLedger.Proofs.Instant.ReadBack
import TransferLedger.Proofs.Ledger.Agreement
import TransferLedger.Proofs.Decimal.Rounding
import TransferLedger.Proofs.Bank.Progress
import TransferLedger.Proofs.Books.Exact
import TransferLedger.Proofs.Books.Accepted
import TransferLedger.Proofs.Service.Absent
import TransferLedger.Proofs.Books.Frozen
import TransferLedger.Proofs.Http.Frame
import TransferLedger.Proofs.Bank.Atomicity
import TransferLedger.Proofs.Books.Rejections
import TransferLedger.Proofs.Decimal.Denotation
import TransferLedger.Proofs.Decimal.Scientific
import TransferLedger.Proofs.Service.AcceptedText
import TransferLedger.Proofs.Ledger.Overflow
import TransferLedger.Proofs.Pipeline.Answers
import TransferLedger.Proofs.Broker.Topic
import TransferLedger.Proofs.Ledger.Retry
import TransferLedger.Proofs.Broker.Declared
import TransferLedger.Proofs.Broker.DeadLetters
import TransferLedger.Proofs.Broker.Order
import TransferLedger.Proofs.Broker.Serial
import TransferLedger.Proofs.Broker.Routing
import TransferLedger.Proofs.Broker.Events
import TransferLedger.Proofs.Broker.FirstDeliveries
import TransferLedger.Proofs.Ledger.Insertion
import TransferLedger.Proofs.Ledger.AppendOnly
import TransferLedger.Proofs.Ledger.Arrivals
import TransferLedger.Proofs.Ledger.Separation
import TransferLedger.Proofs.Ledger.Totals
import TransferLedger.Proofs.Ledger.ExactIndexes
import TransferLedger.Proofs.Books.Defensive
import TransferLedger.Proofs.Service.Pages
import TransferLedger.Proofs.Json.Values
import TransferLedger.Proofs.Json.Forms
import TransferLedger.Proofs.Store.Columns
import TransferLedger.Proofs.Store.Stored
import TransferLedger.Proofs.Service.AcceptedNumber
