import ChatStream.CommandLine.Files
import ChatStream.Identity
import ChatStream.Main
import ChatStream.Session.Drive
import ChatStream.Session.Run
import ChatStream.SourceScan
import ChatStream.Transport.Exchange
import ChatStream.Proofs.Budget.BasisPoints
import ChatStream.Proofs.Budget.Calls
import ChatStream.Proofs.Budget.Readings
import ChatStream.Proofs.Budget.Threshold
import ChatStream.Proofs.CommandLine.DefaultFile
import ChatStream.Proofs.Config.Layered
import ChatStream.Proofs.Config.Ranges
import ChatStream.Proofs.Config.Requests
import ChatStream.Proofs.Decimal.Digits
import ChatStream.Proofs.Decimal.Floats
import ChatStream.Proofs.Decimal.Rounding
import ChatStream.Proofs.History.Retained
import ChatStream.Proofs.Json.Grammar
import ChatStream.Proofs.Json.Numerals
import ChatStream.Proofs.Json.Reading
import ChatStream.Proofs.Json.Spelling
import ChatStream.Proofs.Json.Structures
import ChatStream.Proofs.Record.RoundTrip
import ChatStream.Proofs.Render.Boundaries
import ChatStream.Proofs.Render.Calls
import ChatStream.Proofs.Render.Rate
import ChatStream.Proofs.Request.Body
import ChatStream.Proofs.Request.Builders
import ChatStream.Proofs.Request.Parameters
import ChatStream.Proofs.Session.Cancellations
import ChatStream.Proofs.Session.Cancelled
import ChatStream.Proofs.Session.Chronicle
import ChatStream.Proofs.Session.Consistency
import ChatStream.Proofs.Session.Crossings
import ChatStream.Proofs.Session.Deeds
import ChatStream.Proofs.Session.Driven
import ChatStream.Proofs.Session.Failures
import ChatStream.Proofs.Session.Finales
import ChatStream.Proofs.Session.Journal
import ChatStream.Proofs.Session.Moves
import ChatStream.Proofs.Session.Numbers
import ChatStream.Proofs.Session.Operations
import ChatStream.Proofs.Session.Paced
import ChatStream.Proofs.Session.Page
import ChatStream.Proofs.Session.Painted
import ChatStream.Proofs.Session.Played
import ChatStream.Proofs.Session.Protocol
import ChatStream.Proofs.Session.Records
import ChatStream.Proofs.Session.Refusals
import ChatStream.Proofs.Session.Rejected
import ChatStream.Proofs.Session.Requests
import ChatStream.Proofs.Session.Simulated
import ChatStream.Proofs.Session.Switch
import ChatStream.Proofs.Session.Tandem
import ChatStream.Proofs.Session.Verdict
import ChatStream.Proofs.Session.Written
import ChatStream.Proofs.SourceScan.Heads
import ChatStream.Proofs.Terminal.Ask
import ChatStream.Proofs.Terminal.Chat
import ChatStream.Proofs.Terminal.FirstTurn
import ChatStream.Proofs.Terminal.Output
import ChatStream.Proofs.Terminal.Painting
import ChatStream.Proofs.Terminal.Turns
import ChatStream.Proofs.Text.Encoding
import ChatStream.Proofs.Text.Subparts
import ChatStream.Proofs.Text.Utf8
import ChatStream.Proofs.Transport.Delivery
import ChatStream.Proofs.Transport.Lanes
import ChatStream.Proofs.Transport.Pieces
import ChatStream.Proofs.Transport.Replies
import ChatStream.Proofs.Transport.Script
import ChatStream.Proofs.Wire.Carried
import ChatStream.Proofs.Wire.Feeds
import ChatStream.Proofs.Wire.Lines
import ChatStream.Proofs.Wire.Payload
import ChatStream.Proofs.Wire.Reported
import ChatStream.Proofs.Wire.Whole
import ChatStream.Proofs.Wire.Written
