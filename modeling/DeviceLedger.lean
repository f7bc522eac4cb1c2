import DeviceLedger.Bytes
import DeviceLedger.Bytes.Hex
import DeviceLedger.CommandLine.Decode
import DeviceLedger.CommandLine.Failure
import DeviceLedger.CommandLine.Invocation
import DeviceLedger.CommandLine.Key
import DeviceLedger.CommandLine.Level
import DeviceLedger.CommandLine.Run
import DeviceLedger.Decimal
import DeviceLedger.Digest.Blake3
import DeviceLedger.Entity
import DeviceLedger.Error
import DeviceLedger.Genesis
import DeviceLedger.Host
import DeviceLedger.Http.MediaType
import DeviceLedger.Http.Message
import DeviceLedger.Http.Target
import DeviceLedger.Identifier
import DeviceLedger.Json.Format
import DeviceLedger.Json.Read
import DeviceLedger.Json.Token
import DeviceLedger.Json.Value
import DeviceLedger.Ledger.Action
import DeviceLedger.Ledger.Asset
import DeviceLedger.Ledger.Balance
import DeviceLedger.Ledger.Counter
import DeviceLedger.Ledger.Loan
import DeviceLedger.Ledger.Operation
import DeviceLedger.Ledger.Order
import DeviceLedger.Ledger.Project
import DeviceLedger.Ledger.Transaction
import DeviceLedger.Ledger.Update
import DeviceLedger.Main
import DeviceLedger.Net.SocketAddress
import DeviceLedger.Policy
import DeviceLedger.Record.Asset
import DeviceLedger.Record.Cursor
import DeviceLedger.Record.Order
import DeviceLedger.Record.Project
import DeviceLedger.Record.Slot
import DeviceLedger.Record.Transaction
import DeviceLedger.Record.Update
import DeviceLedger.Record.Writer
import DeviceLedger.Server
import DeviceLedger.Server.Error
import DeviceLedger.Server.Route
import DeviceLedger.Server.Service
import DeviceLedger.Server.Settings
import DeviceLedger.Server.View
import DeviceLedger.Session
import DeviceLedger.Store
import DeviceLedger.Text.Blank
import DeviceLedger.Text.Utf8
import DeviceLedger.Toml.Document
import DeviceLedger.Toml.Scan
import DeviceLedger.Units
import DeviceLedger.Proofs.BigEndian
import DeviceLedger.Proofs.KeySpace
import DeviceLedger.Proofs.KeyOrder
import DeviceLedger.Proofs.RecordCodec
import DeviceLedger.Proofs.FieldSequences
import DeviceLedger.Proofs.FieldRequests
import DeviceLedger.Proofs.CursorBounds
import DeviceLedger.Proofs.SingleRecord
import DeviceLedger.Proofs.Operations
import DeviceLedger.Proofs.FailedSteps
import DeviceLedger.Proofs.Representation
import DeviceLedger.Proofs.Effects
import DeviceLedger.Proofs.TypedMaps
import DeviceLedger.Proofs.MapsInStore
import DeviceLedger.Proofs.Simulation
import DeviceLedger.Proofs.DecodedBytes
import DeviceLedger.Proofs.CutRecords
import DeviceLedger.Proofs.SlotWidths
import DeviceLedger.Proofs.Movements
import DeviceLedger.Proofs.Reordering
import DeviceLedger.Proofs.AmountHistory
import DeviceLedger.Proofs.Creation
import DeviceLedger.Proofs.Readings
import DeviceLedger.Proofs.BatchReplies
import DeviceLedger.Proofs.WriteOnce
import DeviceLedger.Proofs.Policies
import DeviceLedger.Proofs.HexText
import DeviceLedger.Proofs.HexReading
import DeviceLedger.Proofs.Requests
import DeviceLedger.Proofs.ShownRecords
import DeviceLedger.Proofs.AmountContract
import DeviceLedger.Proofs.ForeignAmounts
import DeviceLedger.Proofs.Refunds
import DeviceLedger.Proofs.RecordResponses
import DeviceLedger.Proofs.BatchRequests
import DeviceLedger.Proofs.JsonText
import DeviceLedger.Proofs.JsonShapes
import DeviceLedger.Proofs.JsonFormats
import DeviceLedger.Proofs.FirstBalances
import DeviceLedger.Proofs.InterruptedGenesis
import DeviceLedger.Proofs.KeyCommand
import DeviceLedger.Proofs.AnnouncedKeys
import DeviceLedger.Proofs.Slots
import DeviceLedger.Proofs.HashVerification
import DeviceLedger.Proofs.ShownHash
import DeviceLedger.Proofs.CutText
import DeviceLedger.Proofs.ShownTexts
import DeviceLedger.Proofs.Cancellation
