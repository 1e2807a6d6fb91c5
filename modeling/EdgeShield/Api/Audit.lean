import EdgeShield.Api.Routes
import EdgeShield.Api.Middleware
import EdgeShield.Cli.Setup

/-!
# The audit log

`crates/api/src/audit.rs`.  A request for anything but `/health` that is answered leaves an
entry; it tells the key that was shown by two bytes of its hash.  The prefix is taken from the
header as it came in, before the key is looked at, so a refused key leaves its prefix as well.
-/

namespace EdgeShield.Api

open EdgeShield.Lib EdgeShield.Common
open EdgeShield.Cli (hexEncode)

structure AuditEntry where
  timestamp : String
  method : String
  path : String
  status : Nat
  keyPrefix : Option String
  durationMs : Nat
  deriving DecidableEq, Repr

/-- The arguments of `AuditLogger::write`. -/
structure AuditWrite where
  method : String
  path : String
  status : Nat
  keyPrefix : Option String
  durationMs : Nat
  deriving DecidableEq, Repr

/-- The entry of a write; the clock is read by the write. -/
def AuditWrite.entry (w : AuditWrite) (timestamp : String) : AuditEntry where
  timestamp := timestamp
  method := w.method
  path := w.path
  status := w.status
  keyPrefix := w.keyPrefix
  durationMs := w.durationMs

section Audit

variable (sha256 : List UInt8 → Vector UInt8 32)

def keyHashPrefix (key : String) : String := hexEncode ((sha256 (utf8Bytes key)).toList.take 2)

/-- The prefix for the header of a request; unlike for the authentication, the token may be
empty. -/
def auditKeyPrefix (authorization : Option String) : Option String :=
  (authorization.bind fun h => (stripPrefix "Bearer " h).or (stripPrefix "bearer " h)).map
    (keyHashPrefix sha256)

/-- What `audit_middleware` spawns for a reply to a request. -/
def auditMiddleware (request : Request) (status durationMs : Nat) : Option AuditWrite :=
  if request.path = "/health" then none
  else some
    { method := request.method.asStr
      path := request.path
      status := status
      keyPrefix := auditKeyPrefix sha256 request.authorization
      durationMs := durationMs }

end Audit

end EdgeShield.Api
