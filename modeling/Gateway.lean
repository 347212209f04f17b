import Gateway.Access.CrossOrigin
import Gateway.Access.Secret
import Gateway.Admission
import Gateway.BufferPool
import Gateway.CommandLine
import Gateway.Config.Basic
import Gateway.Config.Load
import Gateway.Config.Problem
import Gateway.Config.Reader
import Gateway.Connections
import Gateway.Deadline
import Gateway.Digest.Crc32
import Gateway.Digest.Sha256
import Gateway.Disposition
import Gateway.Download
import Gateway.Encoder
import Gateway.Event
import Gateway.Failure
import Gateway.Gzip
import Gateway.Http.Date
import Gateway.Http.Field
import Gateway.Http.Method
import Gateway.Http.Response
import Gateway.Http.Status
import Gateway.Http.Target
import Gateway.Image.Fitting
import Gateway.Image.Format
import Gateway.Image.Transform
import Gateway.Image.TransformReader
import Gateway.Json.Token
import Gateway.Json.Value
import Gateway.Latch
import Gateway.Main
import Gateway.Net.Address
import Gateway.Net.Listener
import Gateway.PlainPath
import Gateway.Proofs.Access.CrossOrigin
import Gateway.Proofs.Admission.Gauge
import Gateway.Proofs.Admission.History
import Gateway.Proofs.Admission.Line
import Gateway.Proofs.Admission.Slots
import Gateway.Proofs.Config.Accepted
import Gateway.Proofs.Config.Defaults
import Gateway.Proofs.Config.Rules
import Gateway.Proofs.Connections.Bookkeeping
import Gateway.Proofs.Deadline.Millis
import Gateway.Proofs.Deadline.Steps
import Gateway.Proofs.Download.Journey
import Gateway.Proofs.Encoder.Body
import Gateway.Proofs.Encoder.Compression
import Gateway.Proofs.Encoder.Digest
import Gateway.Proofs.Encoder.Disposition
import Gateway.Proofs.Encoder.DownloadName
import Gateway.Proofs.Encoder.EntityTag
import Gateway.Proofs.Encoder.Negotiation
import Gateway.Proofs.Encoder.Totality
import Gateway.Proofs.Encoder.Validator
import Gateway.Proofs.Failure.Causes
import Gateway.Proofs.Holders
import Gateway.Proofs.Http.Date
import Gateway.Proofs.Http.Value
import Gateway.Proofs.Image.RoundTrip
import Gateway.Proofs.Json.Numeral
import Gateway.Proofs.Json.Token
import Gateway.Proofs.Json.Value
import Gateway.Proofs.Latch.Signals
import Gateway.Proofs.PlainPath.Grammar
import Gateway.Proofs.Run.Arrival
import Gateway.Proofs.Run.Budget
import Gateway.Proofs.Run.Cleanup
import Gateway.Proofs.Run.Course
import Gateway.Proofs.Run.Fate
import Gateway.Proofs.Run.Isolation
import Gateway.Proofs.Run.Lockstep
import Gateway.Proofs.Run.Permission
import Gateway.Proofs.Run.Queueing
import Gateway.Proofs.Run.Reachable
import Gateway.Proofs.Run.Redaction
import Gateway.Proofs.Run.Reports
import Gateway.Proofs.Run.Representation
import Gateway.Proofs.Run.Revalidation
import Gateway.Proofs.Run.Secret
import Gateway.Proofs.Run.Slots
import Gateway.Proofs.Run.Success
import Gateway.Proofs.Run.Survival
import Gateway.Proofs.Run.Thinning
import Gateway.Proofs.Run.Visit
import Gateway.Proofs.SourceImage.Hooks
import Gateway.Proofs.Stage.Fate
import Gateway.Proofs.Stage.Move
import Gateway.Proofs.Stage.Permission
import Gateway.Proofs.Stage.Redaction
import Gateway.Proofs.Stage.Renaming
import Gateway.Proofs.Stage.Shortcut
import Gateway.Proofs.Stage.Work
import Gateway.Proofs.Text.Cutting
import Gateway.Proofs.Text.Digits
import Gateway.Proofs.Url.Percent
import Gateway.RequestId
import Gateway.Server
import Gateway.Service.Basic
import Gateway.Service.Run
import Gateway.Service.Stage
import Gateway.Severity
import Gateway.SourceImage
import Gateway.Text.Digits
import Gateway.Text.Duration
import Gateway.Text.Hidden
import Gateway.Text.Quoted
import Gateway.Text.Split
import Gateway.Text.Utf8
import Gateway.Toml.Document
import Gateway.Toml.Number
import Gateway.Toml.Text
import Gateway.Toml.Value
import Gateway.Url.Basic
import Gateway.Url.Host
import Gateway.Url.Path
import Gateway.Url.Percent
import Gateway.Url.Punycode
import Gateway.Validator
