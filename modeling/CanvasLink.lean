import CanvasLink.Main
import CanvasLink.Markup.Compile
import CanvasLink.Rehearsal.Attach
import CanvasLink.Rehearsal.Broker
import CanvasLink.Rehearsal.Machine
import CanvasLink.Proofs.Markup.Denotation
import CanvasLink.Proofs.Markup.Grammar
import CanvasLink.Proofs.Markup.Scanning
import CanvasLink.Proofs.Markup.Acceptance
import CanvasLink.Proofs.Markup.Printing
import CanvasLink.Proofs.Json.Record
import CanvasLink.Proofs.Connection.Pending
import CanvasLink.Proofs.Connection.Correlation
import CanvasLink.Proofs.Connection.Answering
import CanvasLink.Proofs.Connection.Table
import CanvasLink.Proofs.Broker.Alone
import CanvasLink.Proofs.Broker.Retry
import CanvasLink.Proofs.Broker.Discipline
import CanvasLink.Proofs.Broker.Steps
import CanvasLink.Proofs.Broker.Ownership
import CanvasLink.Proofs.Broker.Ways
import CanvasLink.Proofs.Broker.Batch
import CanvasLink.Proofs.Binary.Rounding
import CanvasLink.Proofs.Binary.Scientific
import CanvasLink.Proofs.Binary.Packing
import CanvasLink.Proofs.Binary.Numerals
import CanvasLink.Proofs.Decimal.Shortest
import CanvasLink.Proofs.Decimal.RoundTrip
import CanvasLink.Proofs.Decimal.Reading
import CanvasLink.Proofs.Script.Engine
import CanvasLink.Proofs.Script.Lexing
import CanvasLink.Proofs.Script.Parsing
import CanvasLink.Proofs.Script.Simulation
import CanvasLink.Proofs.Script.Lines
import CanvasLink.Proofs.Script.Faithful
import CanvasLink.Proofs.Broker.Forcing
import CanvasLink.Proofs.Broker.Ensuring
import CanvasLink.Proofs.Broker.Replacement
import CanvasLink.Proofs.Broker.Shutdown
import CanvasLink.Proofs.Broker.Provision
import CanvasLink.Proofs.Broker.Attendance
import CanvasLink.Proofs.Broker.Renewal
import CanvasLink.Proofs.Wire.Reencoding
import CanvasLink.Proofs.Files.Tree
import CanvasLink.Proofs.Daemon.Liveness
import CanvasLink.Proofs.Cli.Showing
import CanvasLink.Proofs.Connection.Routing
import CanvasLink.Proofs.Connection.Usability
import CanvasLink.Proofs.Session.Confinement
import CanvasLink.Proofs.Session.Course
import CanvasLink.Proofs.Session.Discovery
import CanvasLink.Proofs.Session.Deadline
import CanvasLink.Proofs.Markup.Invisible
import CanvasLink.Proofs.Markup.Defects
import CanvasLink.Proofs.Markup.Drawable
import CanvasLink.Proofs.Markup.Overriding
import CanvasLink.Proofs.Markup.Respelling
import CanvasLink.Proofs.Target.Selection
import CanvasLink.Proofs.Target.TitleParts
import CanvasLink.Proofs.Connection.Thrown
import CanvasLink.Proofs.Daemon.Reporting
import CanvasLink.Proofs.Cli.Layers
import CanvasLink.Proofs.Broker.AttemptCount
import CanvasLink.Proofs.Markup.Colors
import CanvasLink.Proofs.Markup.Progress
