import ProtocolProxy.Digits
import ProtocolProxy.Resolver
import ProtocolProxy.Search
import ProtocolProxy.Trim

/-!
# HTTP messages

Requests and responses as the HTTP handler sees them, and what it uses of the `http` crate to build
them.  The names of headers are in lower case.  How large a header map can grow and what is a URI is
the crate's business (`Library`).

The operations that panic outside their domain have their result in `Partial`.
-/

namespace ProtocolProxy

namespace Http

open Digits Search Trim

inductive Method
  | get
  | head
  | other (name : Text)
  deriving DecidableEq, Repr

abbrev Headers := List (Text × Bytes)

/-- A request with its whole body. -/
structure Request where
  method : Method
  pathAndQuery : Option Text
  headers : Headers
  body : Bytes
  deriving DecidableEq, Repr

structure Response where
  status : ℕ
  headers : Headers
  body : Bytes
  deriving DecidableEq, Repr

/-! ## Operations that can panic -/

inductive Panic
  | outOfBounds
  | subtractOverflow
  | unwrapNone
  | capacityOverflow
  | expect (message : String)
  /-- a header map has reached its limit -/
  | maxSize
  /-- more permits than a semaphore can have -/
  | tooManyPermits
  deriving DecidableEq, Repr

abbrev Partial := Except Panic

def isizeMax : ℕ := 2 ^ 63 - 1

/-- `a - b` of two `usize`. -/
def sub (a b : ℕ) : Partial ℕ := if b ≤ a then .ok (a - b) else .error .subtractOverflow

/-- `BytesMut::split_to`: the front and what is left. -/
def splitTo (buffer : Bytes) (n : ℕ) : Partial (Bytes × Bytes) :=
  if n ≤ buffer.length then .ok (buffer.take n, buffer.drop n) else .error .outOfBounds

/-- `&buffer[..n]`. -/
def sliceTo (buffer : Bytes) (n : ℕ) : Partial Bytes :=
  if n ≤ buffer.length then .ok (buffer.take n) else .error .outOfBounds

def unwrap {α : Type} : Option α → Partial α
  | some a => .ok a
  | none => .error .unwrapNone

def expect {ε α : Type} (message : String) : Except ε α → Partial α
  | .ok a => .ok a
  | .error _ => .error (.expect message)

/-- `with_capacity` for `n` elements of some size. -/
def withCapacity (n size : ℕ) : Partial Unit :=
  if n * size ≤ isizeMax then .ok () else .error .capacityOverflow

/-! ## The `http` crate -/

inductive HttpError
  | uri (message : String)
  | headerName
  | headerValue
  | maxSize
  deriving DecidableEq, Repr

def HttpError.text : HttpError → String
  | .uri message => message
  | .headerName => "invalid HTTP header name"
  | .headerValue => "failed to parse header value"
  | .maxSize => "max size reached"

/-- What the handler gets from its libraries: why a text is not a URI, whether a header map has room
for some headers (it has for a hundred), and the size of a pooled client. -/
structure Library where
  uriError : Text → Option String
  fits : Headers → Bool
  fits_hundred : ∀ headers : Headers, headers.length ≤ 100 → fits headers = true
  clientSize : ℕ

def isToken (c : Char) : Bool := c.isAlphanum || "!#$%&'*+-.^_`|~".toList.contains c

/-- `HeaderName::from_bytes`. -/
def headerName (name : Text) : Option Text :=
  if name = [] ∨ 65535 < name.length then none
  else if name.all isToken then some (name.map Char.toLower) else none

/-- `HeaderValue::from_str`. -/
def headerValue (value : Text) : Option Bytes :=
  if (asBytes value).all fun b => b = 9 ∨ 32 ≤ b ∧ b ≠ 127 then some (asBytes value) else none

/-- `HeaderValue::to_str`. -/
def toStr (value : Bytes) : Option Text :=
  if value.all fun b => b = 9 ∨ 32 ≤ b ∧ b < 127 then
    some (value.map fun b => Char.ofNat b.toNat)
  else none

/-- `StatusCode::from_u16`. -/
def statusCode (code : ℕ) : Option ℕ := if 100 ≤ code ∧ code < 1000 then some code else none

/-- The headers of a message that is being built, or the first error. -/
abbrev Builder := Except HttpError Headers

/-- A header with a name and a value that are valid already. -/
def Builder.append (lib : Library) (builder : Builder) (name : Text) (value : Bytes) : Builder :=
  match builder with
  | .error e => .error e
  | .ok headers =>
    if lib.fits (headers ++ [(name, value)]) then .ok (headers ++ [(name, value)])
    else .error .maxSize

def Builder.header (lib : Library) (builder : Builder) (name value : Text) : Builder :=
  match builder, headerName name, headerValue value with
  | .error e, _, _ => .error e
  | .ok _, none, _ => .error .headerName
  | .ok _, some _, none => .error .headerValue
  | .ok headers, some name, some value => Builder.append lib (.ok headers) name value

/-- `HeaderMap::append` and, for a name that is not there, `insert`. -/
def appendHeader (lib : Library) (headers : Headers) (name : Text) (value : Bytes) :
    Partial Headers :=
  if lib.fits (headers ++ [(name, value)]) then .ok (headers ++ [(name, value)])
  else .error .maxSize

/-! ## Header lines -/

def crlfCrlf : Bytes := [13, 10, 13, 10]

/-- `find_subslice`. -/
def findSubslice (haystack needle : Bytes) : Option ℕ := firstAt needle haystack

/-- `split("\r\n")`. -/
def splitCrlf : Text → List Text
  | [] => [[]]
  | '\r' :: '\n' :: s => [] :: splitCrlf s
  | c :: s =>
    match splitCrlf s with
    | [] => [[c]]
    | line :: lines => (c :: line) :: lines

def parseStatusLine (line : Text) : Option ℕ :=
  match splitWhitespace line with
  | _ :: code :: _ => parseUnsigned (2 ^ 16) code
  | _ => none

def isHopByHop (name : Text) : Bool :=
  ["connection".toList, "keep-alive".toList, "transfer-encoding".toList, "te".toList,
    "trailer".toList, "upgrade".toList, "proxy-authorization".toList, "proxy-authenticate".toList,
    "content-length".toList].contains name

end Http

end ProtocolProxy
