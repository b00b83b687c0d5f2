import ProtocolProxy.Handler
import ProtocolProxy.PhpRaw

/-!
# Replies with a body

A well-formed reply with a `Content-Length`, and what becomes of it on the three ways it can take:
the pooled way and the raw way of the Rust handler (`Handler`) and the raw way of the PHP handler
(`PhpRaw`).  Hyper gives the pooled way the reply as it has read it (`FullReply.received`); the raw
ways read the bytes themselves.
-/

namespace ProtocolProxy

namespace Http

/-- The blanks around the value of a header. -/
def isOws (c : Char) : Bool := c = ' ' ∨ c = '\t'

/-- A reply in ASCII whose `Content-Length`, the only one, is the length of its body. -/
structure FullReply extends Reply where
  body : Bytes
  reason_ascii : ∀ c ∈ reason, c.toNat < 128
  value_ascii : ∀ p ∈ headers, ∀ c ∈ p.2, c.toNat < 128
  few : headers.length ≤ 100
  name_short : ∀ p ∈ headers, p.1.length ≤ 65535
  length : ∃ text, toReply.values contentLength = [text] ∧ IsDecimal text body.length
  not_encoded : toReply.values "transfer-encoding".toList = []
  fits : body.length ≤ isizeMax

namespace FullReply

def bytes (reply : FullReply) : Bytes := asBytes reply.text ++ crlfCrlf ++ reply.body

/-- The headers with their names in lower case and their values without the blanks around them. -/
def fields (reply : FullReply) : Headers :=
  reply.headers.map fun p => (p.1.map Char.toLower, asBytes (Trim.trimmed isOws p.2))

/-- The reply as hyper gives it. -/
def received (reply : FullReply) : BackendResponse where
  status := reply.code
  headers := reply.fields
  few := by
    unfold fields
    rw [List.length_map]
    exact reply.few
  body := .done reply.body

/-- The response that the raw way makes of the reply. -/
def relayed (config : Config) (reply : FullReply) : Response where
  status := if config.rawBackendAssumeOk then 200 else reply.code
  headers := reply.fields.filter fun p => !isFraming p.1
  body := reply.body

end FullReply

end Http

namespace PhpRaw

open Http (FullReply)

/-- The headers that `$response->header` leaves set: of those with one name, whatever its case, the
last. -/
def Response.headersSent (response : Response) : Http.Headers :=
  let set := response.headers.foldl
    (fun set p => PhpHttp.assign set (PhpHttp.strtolower p.1) p.2) []
  set.map fun p => (p.1, asBytes p.2)

/-- The client is sent the same. -/
def SameAs (response : Response) (rust : Http.Response) : Prop :=
  response.status = rust.status ∧ response.headersSent = rust.headers ∧ response.body = rust.body

end PhpRaw

end ProtocolProxy
