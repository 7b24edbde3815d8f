import PowerMonitor.Protocol.Verify

/-!
# Capturing the headers of a response

`pm_http_response.c`: each header event of the HTTP client goes through
`pm_http_response_capture_header`, which keeps the six headers of the authentication and the ETag in
buffers of their own. A header that comes twice, is empty or does not fit spoils the capture, and
`pm_http_response_capture_validate` asks for all of them.
-/

namespace PowerMonitor.Protocol

open CMemory CJson

/-- The headers that are captured, by their bits in `seen_mask`. -/
inductive HeaderField
  | protocol
  | deviceId
  | timestamp
  | nonce
  | contentSha256
  | signature
  | etag
  deriving DecidableEq, Repr

namespace HeaderField

/-- The name of the header. -/
def name : HeaderField → List UInt8
  | protocol => ascii "X-PM-Protocol"
  | deviceId => ascii "X-PM-Device-ID"
  | timestamp => ascii "X-PM-Timestamp"
  | nonce => ascii "X-PM-Nonce"
  | contentSha256 => ascii "X-PM-Content-SHA256"
  | signature => ascii "X-PM-Signature"
  | etag => ascii "ETag"

/-- The buffer of the header holds one byte more than this. -/
def room : HeaderField → ℕ
  | protocol => 17
  | deviceId => 36
  | timestamp => 23
  | nonce => 128
  | contentSha256 => 64
  | signature => 44
  | etag => 67

/-- In the order in which a name is compared with them. -/
def all : List HeaderField :=
  [protocol, deviceId, timestamp, nonce, contentSha256, signature, etag]

end HeaderField

/-- `ascii_lower`. -/
def asciiLower (c : UInt8) : UInt8 := if 0x41 ≤ c && c ≤ 0x5a then c + 0x20 else c

/-- `header_name_equal`. -/
def headerNameEqual (actual expected : List UInt8) : Bool :=
  actual.map asciiLower = expected.map asciiLower

/-- `bounded_value_length`. -/
def boundedValueLength (value : List UInt8) (capacity : ℕ) : ℕ := min value.length capacity

/-- `pm_http_response_capture_t`. -/
structure ResponseCapture where
  auth : ResponseAuthHeaders
  etag : Bytes 68
  seenMask : HeaderField → Bool
  invalid : Bool

/-- `pm_http_response_capture_init`. -/
def httpResponseCaptureInit : ResponseCapture where
  auth := ⟨.zero 18, .zero 37, .zero 24, .zero 129, .zero 65, .zero 45⟩
  etag := .zero 68
  seenMask := fun _ => false
  invalid := false

/-- The buffer of a header, changed by `change`. -/
def ResponseCapture.update (capture : ResponseCapture) (field : HeaderField)
    (change : (n : ℕ) → Bytes (n + 1) → Bytes (n + 1)) : ResponseCapture :=
  let auth := capture.auth
  match field with
  | .protocol => { capture with auth := { auth with protocol := change 17 auth.protocol } }
  | .deviceId => { capture with auth := { auth with deviceId := change 36 auth.deviceId } }
  | .timestamp => { capture with auth := { auth with timestamp := change 23 auth.timestamp } }
  | .nonce => { capture with auth := { auth with nonce := change 128 auth.nonce } }
  | .contentSha256 =>
    { capture with auth := { auth with contentSha256 := change 64 auth.contentSha256 } }
  | .signature => { capture with auth := { auth with signature := change 44 auth.signature } }
  | .etag => { capture with etag := change 67 capture.etag }

/-- `pm_http_response_capture_header`. -/
def httpResponseCaptureHeader (capture : ResponseCapture) (name value : Option (List UInt8)) :
    EspErr × ResponseCapture :=
  match name, value with
  | some name, some value =>
    if capture.invalid then (.invalidResponse, capture)
    else
      match HeaderField.all.find? fun field => headerNameEqual name field.name with
      | none => (.ok, capture)
      | some field =>
        let length := boundedValueLength value (field.room + 1)
        if capture.seenMask field ∨ length = 0 ∨ field.room + 1 ≤ length then
          (.invalidResponse, { capture.update field fun n _ => .zero (n + 1) with invalid := true })
        else
          -- the value and its NUL are copied over the start of the buffer
          let stored := capture.update field fun _ buffer => buffer.print value
          (.ok, { stored with seenMask := Function.update stored.seenMask field true })
  | _, _ => (.invalidArg, { capture with invalid := true })

/-- `pm_http_response_capture_validate`. -/
def httpResponseCaptureValidate (capture : ResponseCapture) (requireEtag : Bool) : EspErr :=
  let required (field : HeaderField) : Bool := requireEtag || field ≠ .etag
  if !capture.invalid && HeaderField.all.all fun field => !required field || capture.seenMask field
  then .ok else .invalidResponse

/-- The capture after the header events of a response. -/
def captureHeaders (events : List (Option (List UInt8) × Option (List UInt8))) : ResponseCapture :=
  events.foldl (fun capture event => (httpResponseCaptureHeader capture event.1 event.2).2)
    httpResponseCaptureInit

end PowerMonitor.Protocol
