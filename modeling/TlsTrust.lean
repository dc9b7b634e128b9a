import TlsTrust.Action
import TlsTrust.Advice
import TlsTrust.Advice.Line
import TlsTrust.Audit.LogFolder
import TlsTrust.Audit.LogWriter
import TlsTrust.Audit.Logger
import TlsTrust.Audit.Record
import TlsTrust.Audit.RecordId
import TlsTrust.Audit.Summary
import TlsTrust.Certificate
import TlsTrust.Certificate.Encoded
import TlsTrust.Certificate.Extension
import TlsTrust.Certificate.Name
import TlsTrust.Certificate.Pem
import TlsTrust.Certificate.Validity
import TlsTrust.Chain.Bundle
import TlsTrust.Chain.Path
import TlsTrust.Chain.Report
import TlsTrust.Chain.RootStore
import TlsTrust.Chain.Validator
import TlsTrust.Command
import TlsTrust.Command.Arguments
import TlsTrust.Command.FileTree
import TlsTrust.Command.Run
import TlsTrust.Consent
import TlsTrust.Consent.Manager
import TlsTrust.Decision
import TlsTrust.Der
import TlsTrust.Desk
import TlsTrust.Engine
import TlsTrust.Engine.Config
import TlsTrust.Engine.Decide
import TlsTrust.Engine.Escalate
import TlsTrust.Engine.Memory
import TlsTrust.Escalation
import TlsTrust.Failure
import TlsTrust.Failure.Phrase
import TlsTrust.FailureKind
import TlsTrust.Host
import TlsTrust.Host.Profile
import TlsTrust.IpAddress
import TlsTrust.Json
import TlsTrust.Json.Parser
import TlsTrust.Json.Printer
import TlsTrust.Json.Record
import TlsTrust.Main
import TlsTrust.Operator
import TlsTrust.Overrides
import TlsTrust.Probe
import TlsTrust.Risk
import TlsTrust.Sha256
import TlsTrust.Strategy
import TlsTrust.Strategy.Document
import TlsTrust.Strategy.Reader
import TlsTrust.Table
import TlsTrust.Text.Ascii
import TlsTrust.Text.Base64
import TlsTrust.Text.Blank
import TlsTrust.Text.Search
import TlsTrust.Text.Utf16
import TlsTrust.Text.Utf8
import TlsTrust.Time.Date
import TlsTrust.Time.Instant
import TlsTrust.Time.Reader
import TlsTrust.Time.Text
import TlsTrust.Transport
import TlsTrust.Url
import TlsTrust.Url.Domain
import TlsTrust.Url.Host
import TlsTrust.Url.Percent
import TlsTrust.Url.Punycode
import TlsTrust.Yaml.Block
import TlsTrust.Yaml.Cursor
import TlsTrust.Yaml.Document
import TlsTrust.Yaml.Folded
import TlsTrust.Yaml.Node
import TlsTrust.Yaml.Plain
import TlsTrust.Yaml.Quoted
import TlsTrust.Yaml.Tag
import TlsTrust.Yaml.Token
import TlsTrust.Yaml.Value
import TlsTrust.Proofs.Desk.Trail
import TlsTrust.Proofs.Consent.Confirmation
import TlsTrust.Proofs.Consent.Session
import TlsTrust.Proofs.Engine.Decision
import TlsTrust.Proofs.Engine.Attempt
import TlsTrust.Proofs.Engine.Escalation
import TlsTrust.Proofs.Engine.UnverifiedProbe
import TlsTrust.Proofs.Engine.FailureCourse
import TlsTrust.Proofs.Engine.Run
import TlsTrust.Proofs.Engine.Interleaving
import TlsTrust.Proofs.Engine.SecurePosture
import TlsTrust.Proofs.Engine.TrustRevocation
import TlsTrust.Proofs.Chain.Validation
import TlsTrust.Proofs.Host.Spelling
import TlsTrust.Proofs.Text.Digits
import TlsTrust.Proofs.Time.Calendar
import TlsTrust.Proofs.Json.Rendering
import TlsTrust.Proofs.Time.Reading
import TlsTrust.Proofs.IpAddress
import TlsTrust.Proofs.Json.Record
import TlsTrust.Proofs.Table
import TlsTrust.Proofs.Audit.RecordLine
import TlsTrust.Proofs.Text.Utf8
import TlsTrust.Proofs.Audit.Rotation
import TlsTrust.Proofs.Time.Stamp
import TlsTrust.Proofs.Audit.Listing
import TlsTrust.Proofs.Audit.Delivery
import TlsTrust.Proofs.Chain.PathSearch
import TlsTrust.Proofs.Chain.BuiltPath
import TlsTrust.Proofs.Consent.AnswerBook
import TlsTrust.Proofs.Engine.MemoryTransparency
import TlsTrust.Proofs.Engine.StateTrail
import TlsTrust.Proofs.Time.Elapsed
import TlsTrust.Proofs.Audit.Retention
import TlsTrust.Proofs.Yaml.Shown
import TlsTrust.Proofs.Strategy.RoundTrip
import TlsTrust.Proofs.Overrides
import TlsTrust.Proofs.Chain.PathGrowth
import TlsTrust.Proofs.Chain.Analysis
import TlsTrust.Proofs.Host.Coverage
import TlsTrust.Proofs.Chain.Summary
import TlsTrust.Proofs.Failure.Phrase
import TlsTrust.Proofs.Failure.Flattening
import TlsTrust.Proofs.Text.Search
import TlsTrust.Proofs.Failure.RequestedHost
import TlsTrust.Proofs.Engine.RememberedDecision
import TlsTrust.Proofs.Engine.OperatorAnswer
import TlsTrust.Proofs.Audit.DamagedLines
import TlsTrust.Proofs.Audit.Cleanup
import TlsTrust.Proofs.Audit.Summary
import TlsTrust.Proofs.Strategy.Document
import TlsTrust.Proofs.Advice
import TlsTrust.Proofs.Host.Normalization
import TlsTrust.Proofs.Engine.Rejection
import TlsTrust.Proofs.Audit.FreeName
