import TimeProofs.Base.Utf16
import TimeProofs.Base.Regex
import TimeProofs.Base.Check
import TimeProofs.Base.Only
import TimeProofs.Base.Call
import TimeProofs.Base.Timestamp
import TimeProofs.Base.Base64url
import TimeProofs.Json.Value
import TimeProofs.Json.Number
import TimeProofs.Json.Grammar
import TimeProofs.Json.StrictJson
import TimeProofs.Json.RoundTrip
import TimeProofs.Core.ErrorCodes
import TimeProofs.Core.Ecma
import TimeProofs.Core.Vocabulary
import TimeProofs.Core.Builders
import TimeProofs.Core.Binding
import TimeProofs.Core.Robustness
import TimeProofs.Core.Rearrangement
import TimeProofs.Relay.Atomicity
import TimeProofs.VerdictEngine.Comparison
import TimeProofs.Core.Tampering
import TimeProofs.Core.Signing
import TimeProofs.Relay.Progress
import TimeProofs.Relay.AtMostOnce
import TimeProofs.Relay.AppendOnly
import TimeProofs.Relay.Reading
import TimeProofs.Relay.Chain
import TimeProofs.Relay.Outcomes
import TimeProofs.Core.Times
import TimeProofs.Relay.Lifecycle
import TimeProofs.Relay.WithLock
import TimeProofs.StripeConnector.Header
import TimeProofs.Relay.Listing
import TimeProofs.Relay.Links
import TimeProofs.Core.Referencing
import TimeProofs.Relay.Recorded
import TimeProofs.Core.Extending
import TimeProofs.Relay.Ingested
import TimeProofs.Relay.Extended
import TimeProofs.Relay.Validity
import TimeProofs.Relay.Ledger
import TimeProofs.Base.Simulation
import TimeProofs.Relay.Refinement
import TimeProofs.Relay.Acknowledged
import TimeProofs.Base.Utf8
import TimeProofs.Json.Parse
import TimeProofs.Json.Stringify
import TimeProofs.Core.SameData
