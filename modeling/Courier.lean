import Courier.Calendar.ZonedText
import Courier.Client.Call
import Courier.Json.Keyed
import Courier.Repository
import Courier.Stamp
import Courier.Wire.Script
import Courier.Wire.Service
import Courier.Base64.Lemmas
import Courier.Json.Container.Lemmas
import Courier.Json.Literal.Lemmas
import Courier.Text.Utf8.Lemmas
import Courier.Proofs.Calendar.DateText
import Courier.Proofs.Calendar.Written
import Courier.Proofs.Json.Container
import Courier.Proofs.Json.Numeral
import Courier.Proofs.Json.Writer
import Courier.Proofs.Json.Shape
import Courier.Proofs.Json.Record
import Courier.Proofs.Payload
import Courier.Proofs.Text.Utf8
import Courier.Proofs.Uploads
import Courier.Proofs.Fetching
import Courier.Proofs.Sending
import Courier.Proofs.Rejection
import Courier.Proofs.Http.Header
import Courier.Proofs.Http.Head
import Courier.Proofs.Client.Request
import Courier.Proofs.Wire.Service
import Courier.Proofs.Wire.Answers
import Courier.Proofs.Delivery
import Courier.Proofs.Client.Headers
import Courier.Proofs.Access
import Courier.Proofs.Credentials
import Courier.Proofs.Calendar.Succession
import Courier.Proofs.Calendar.ZonedText
import Courier.Proofs.Secrecy
import Courier.Proofs.Stability
import Courier.Proofs.Dates
import Courier.Proofs.Objects
import Courier.Proofs.BadDates
import Courier.Proofs.Collections
import Courier.Proofs.Correspondence
import Courier.Proofs.Documents
import Courier.Proofs.Reading
import Courier.Proofs.Client.Call
import Courier.Proofs.Json.Natural
import Courier.Proofs.Json.Positional
import Courier.Proofs.Failures
import Courier.Proofs.Logging
import Courier.Proofs.Acceptance
