import Observatory.Text.Blank
import Observatory.Text.Quoted
import Observatory.Text.Escaped
import Observatory.Text.Utf8
import Observatory.Number.Double
import Observatory.Number.Angle
import Observatory.Token.Cursor
import Observatory.Record.Basic
import Observatory.Record.Framing
import Observatory.Value.Registry
import Observatory.Device.Status
import Observatory.Command.Queue
import Observatory.Settings
import Observatory.Connection.Passes
import Observatory.Connection.Idle
import Observatory.Script
import Observatory.Helper.Environment
import Observatory.Connection.Wire
import Observatory.Endpoint.Pass
import Observatory.Focuser
import Observatory.Proofs.Connection.Lifetime
import Observatory.Proofs.Endpoint.Subscribers
import Observatory.Proofs.Session.Safety
import Observatory.Proofs.Number.Wire
import Observatory.Proofs.Publication.Fidelity
import Observatory.Proofs.Value.Attained
import Observatory.Proofs.Record.Cutting
import Observatory.Proofs.Connection.Transcript
import Observatory.Proofs.Command.History
import Observatory.Proofs.Connection.Answers
import Observatory.Proofs.Connection.Requeue
import Observatory.Proofs.Endpoint.Protection
import Observatory.Proofs.Connection.Converse
import Observatory.Proofs.Connection.Reports
import Observatory.Proofs.Endpoint.Rounds
import Observatory.Proofs.Connection.Child
import Observatory.Proofs.Endpoint.Children
import Observatory.Proofs.Endpoint.StatusWord
import Observatory.Proofs.Connection.Ledger
import Observatory.Proofs.Endpoint.Ledger
import Observatory.Proofs.Bus.DepthFirst
import Observatory.Proofs.Script.Deeds
import Observatory.Proofs.Script.Orderly
import Observatory.Proofs.Bus.Run
import Observatory.Proofs.Script.Stop
import Observatory.Proofs.Connection.Observer
import Observatory.Proofs.Endpoint.Observers
import Observatory.Value.InPlace
import Observatory.Proofs.Value.AllOrNothing
import Observatory.Proofs.Connection.Replicas
import Observatory.Proofs.Endpoint.Lent
import Observatory.Proofs.Number.Nearest
import Observatory.Proofs.Focuser.Arrival
import Observatory.Proofs.Connection.Exchange
import Observatory.Proofs.Record.Ahead
import Observatory.Proofs.Session.Silence
import Observatory.Proofs.Record.Printed
import Observatory.Proofs.Connection.Rulings
import Observatory.Proofs.Connection.Shorthand
import Observatory.Value.Children
import Observatory.Proofs.Value.Representation
import Observatory.Record.Lines
import Observatory.Proofs.Command.Parameters
import Observatory.Proofs.Command.Typed
import Observatory.Proofs.Record.Oversize
import Observatory.Proofs.Value.Exact
import Observatory.Proofs.Number.Coarse
import Observatory.Proofs.Value.Cycles
import Observatory.Proofs.Value.Agreement
import Observatory.Proofs.Value.Marks
import Observatory.Proofs.Connection.Threshold
import Observatory.Proofs.Connection.Outflow
import Observatory.Proofs.Connection.Keepalive
import Observatory.Proofs.Focuser.Target
import Observatory.Proofs.Command.Assignment
import Observatory.Proofs.Endpoint.Deadlines
import Observatory.SerialLine.Reader
import Observatory.Main
import Observatory.Rehearsal.BackEnd
import Observatory.Rehearsal.Workshop
import Observatory.Rehearsal.FarEnd
