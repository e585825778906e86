import BoxClient.Address
import BoxClient.Box.Wire
import BoxClient.Http.Transaction
import BoxClient.Json.Decode
import BoxClient.Network
import BoxClient.Query.Wire
import BoxClient.QueryResult
import BoxClient.Report
import BoxClient.Session
import BoxClient.Proofs.Http.Delivery
import BoxClient.Proofs.Http.HeadGrammar
import BoxClient.Proofs.Http.Headers
import BoxClient.Proofs.Http.Response
import BoxClient.Proofs.Http.SingleUse
import BoxClient.Proofs.Json.Canonical
import BoxClient.Proofs.Records
import BoxClient.Proofs.Http.Request
import BoxClient.Proofs.Session
import BoxClient.Proofs.Json.Literal
import BoxClient.Proofs.Json.Shape
import BoxClient.Proofs.Json.RoundTrip
import BoxClient.Proofs.Json.Forms
import BoxClient.Proofs.Reachable
import BoxClient.Proofs.Wire
import BoxClient.Proofs.Http.Framing
import BoxClient.Proofs.Network
import BoxClient.Proofs.Refusal
import BoxClient.Proofs.Operation
import BoxClient.Proofs.Sent
import BoxClient.Proofs.Payload
import BoxClient.Proofs.Answer
import BoxClient.Proofs.Remembered
import BoxClient.Proofs.Editing
import BoxClient.Proofs.Json.Routes
import BoxClient.Proofs.Routes
import BoxClient.Proofs.Reordering
import BoxClient.Proofs.Http.Decoding
import BoxClient.Proofs.Http.Lines
import BoxClient.Proofs.Http.HeadLimit
import BoxClient.Proofs.WriteBack
import BoxClient.Proofs.Conflict
import BoxClient.Proofs.Paths
import BoxClient.Proofs.Arguments
import BoxClient.Proofs.Steady
import BoxClient.Proofs.Http.StatusLine
import BoxClient.Proofs.Http.Body
