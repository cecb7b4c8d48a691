import Strix.KeyedLog
import Strix.StoreSql

/-!
# The audit log

Both APIs log to one table, whose primary key is the entry's id, and both go on
when an insert fails.  The id is a request id, and that is the client's to choose:
a header of the request, or a UUID where there is none that can be read.
-/

namespace Strix

open RowTable

/-! ## Headers -/

/-- The bytes of a header. -/
abbrev HeaderValue := Bytes

/-- The bytes of an ASCII text. -/
def asciiHeader (text : String) : HeaderValue := text.toList.map fun c => UInt8.ofNat c.toNat

/-- `HeaderValue::to_str`: visible ASCII characters and tabs only. -/
def HeaderValue.toStr (value : HeaderValue) : Option String :=
  if value.all fun b => b == 9 || (32 ≤ b && b < 127) then
    some (String.ofList (value.map fun b => Char.ofNat b.toNat))
  else none

/-- The headers of a request, by lower-case name. -/
abbrev RawHeaders := List (String × HeaderValue)

/-- `headers.get(name).and_then(|h| h.to_str().ok())`. -/
def RawHeaders.text (headers : RawHeaders) (name : String) : Option String :=
  (headers.lookup name).bind HeaderValue.toStr

/-- `str::trim`, for a header's text. -/
def trimText (text : String) : String :=
  String.ofList ((text.toList.dropWhile Char.isWhitespace).reverse.dropWhile
    Char.isWhitespace).reverse

/-- The first address of `X-Forwarded-For`, or else `X-Real-Ip`. -/
def forwardedIp (headers : RawHeaders) : Option String :=
  let forwarded := (headers.text "x-forwarded-for").bind fun value =>
    ((value.toList.splitOn ',').map fun part => trimText (String.ofList part)).find?
      fun part => !part.isEmpty
  forwarded <|> headers.text "x-real-ip"

/-! ## Entries -/

structure AuditLogEntry where
  id : String
  timestamp : DateTime
  operation : String
  bucket : Option String := none
  key : Option String := none
  principal : Option String
  sourceIp : Option String
  statusCode : Nat
  errorCode : Option String
  durationMs : Option Nat := none
  bytesSent : Option Nat := none
  requestId : String
  deriving DecidableEq, Repr

/-- The table `audit_log`. -/
abbrev AuditLog := List AuditLogEntry

/-- `log_audit_event`. -/
def logAuditEvent (entry : AuditLogEntry) (log : AuditLog) : Except Error Unit × AuditLog :=
  if log.any fun row => row.id == entry.id then
    (.error (dbErr (.uniqueConstraint "audit_log.id")), log)
  else (.ok (), insertRow entry log)

/-- A failed insert leaves the log as it is. -/
theorem logAuditEvent_snd (entry : AuditLogEntry) (log : AuditLog) :
    (logAuditEvent entry log).2 = logRow AuditLogEntry.id entry log := by
  unfold logAuditEvent logRow
  split <;> rfl

end Strix
