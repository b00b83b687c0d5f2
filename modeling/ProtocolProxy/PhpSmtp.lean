import ProtocolProxy.Smtp
import ProtocolProxy.Trim

/-!
# The PHP SMTP server

`src/Server/SMTP/Swoole.php`: `onReceive` and the handlers it calls, for one client.  A packet is
handled whole, as if it were one line.  What the calls of a handler give is in its `Answers`.

Swoole is told to cut the client's bytes after a CRLF, not after every CRLF, so a packet is one or
more lines.  To compare the ways of cutting, a `World` says what a backend answers to each line.
-/

namespace ProtocolProxy

namespace PhpSmtp

open Smtp (ascii SmtpState crlf dataReadyCode greetingCode errorUnknownCommand errorSyntax
  errorUnavailable dataTerminator toAsciiUppercase)

/-! ## Reading a packet -/

def isTrimmed (b : UInt8) : Bool := Trim.phpBlanks.contains b.toNat

def trim (data : Bytes) : Bytes := Trim.trimmed isTrimmed data

def strtoupper (data : Bytes) : Bytes := data.map toAsciiUppercase

def commandToken (data : Bytes) : Bytes := strtoupper ((trim data).take 4)

/-- The cases of the `switch`. -/
inductive Command
  | helo
  | forwarded
  | unknown
  deriving DecidableEq, Repr

def heloTokens : List Bytes := [ascii "EHLO", ascii "HELO"]

def forwardedTokens : List Bytes :=
  [ascii "MAIL", ascii "RCPT", ascii "DATA", ascii "RSET", ascii "NOOP", ascii "QUIT"]

def command (data : Bytes) : Command :=
  if commandToken data ∈ heloTokens then .helo
  else if commandToken data ∈ forwardedTokens then .forwarded
  else .unknown

/-- The class `\s` of a pattern. -/
def isSpace (b : UInt8) : Bool := b = 32 ∨ (9 ≤ b ∧ b ≤ 13)

/-- The second group of `/^(EHLO|HELO)\s+([^\s]+)/i`. -/
def heloDomain (data : Bytes) : Option Bytes :=
  if strtoupper (data.take 4) ∈ heloTokens then
    match data.drop 4 with
    | [] => none
    | b :: rest =>
      if isSpace b then
        let domain := (rest.dropWhile isSpace).takeWhile fun b => !isSpace b
        if domain = [] then none else some domain
      else none
  else none

def isDataCommand (data : Bytes) : Bool :=
  commandToken data = ascii "DATA" ∧ strtoupper (trim data) = ascii "DATA"

/-! ## Handling a packet -/

/-- What a handler throws.  The texts are only logged. -/
inductive Failure
  | route
  | connect
  | greeting
  | noBackend
  | sendCommand
  | sendData
  deriving DecidableEq, Repr

/-- How the attempt to reach a backend goes: whether there is a route, whether the backend accepts,
and what is received from it first. -/
structure Dial where
  route : Bool
  connect : Bool
  greeting : Option Bytes

/-- What the calls give: the dial of the backend with some number for some domain, whether a send
succeeds, and what `recv` returns from the backend with some number that had been sent some bytes
before this packet. -/
structure Answers where
  dial : ℕ → Bytes → Dial
  send : Bool
  recv : ℕ → Bytes → Option Bytes

/-- `backend` is what has been sent to the connection's backend.  Besides there is what was sent to
the backends it had before, and how `state` has changed, the latest first in both. -/
structure Connection where
  state : SmtpState
  backend : Option Bytes
  left : List Bytes
  changes : List SmtpState
  deriving DecidableEq, Repr

def Connection.new : Connection := ⟨.command, none, [], []⟩

/-- The assignment to `state`. -/
def Connection.setState (c : Connection) (state : SmtpState) : Connection :=
  { c with state := state, changes := state :: c.changes }

def forwardCommand (k : Answers) (data : Bytes) (c : Connection) :
    Connection × Except Failure Bytes :=
  match c.backend with
  | none => (c, .error .noBackend)
  | some sent =>
    if !k.send then (c, .error .sendCommand)
    else
      let c' := { c with backend := some (sent ++ data) }
      match k.recv c.left.length sent with
      | none => (c', .ok [])
      | some response =>
        if response ≠ [] ∧ isDataCommand data ∧ dataReadyCode <+: response then
          (c'.setState .data, .ok response)
        else (c', .ok response)

def forwardData (k : Answers) (data : Bytes) (c : Connection) :
    Connection × Except Failure Bytes :=
  match c.backend with
  | none => (c, .error .noBackend)
  | some sent =>
    if !k.send then (c, .error .sendData)
    else
      let c' := { c with backend := some (sent ++ data) }
      if trim data = dataTerminator then
        (c'.setState .command, .ok ((k.recv c.left.length sent).getD []))
      else (c', .ok [])

def connectToBackend (d : Dial) : Except Failure Unit :=
  if !d.connect then .error .connect
  else
    match d.greeting with
    | none => .error .greeting
    | some greeting =>
      if greeting = [] ∨ ¬ greetingCode <+: trim greeting then .error .greeting else .ok ()

/-- `route` and `connectToBackend`. -/
def Dial.result (d : Dial) : Except Failure Unit :=
  if !d.route then .error .route else connectToBackend d

/-- How many backends the connection has had. -/
def Connection.dialed (c : Connection) : ℕ := (c.backend.toList ++ c.left).length

/-- The assignment of a new client to `backend`. -/
def Connection.open (c : Connection) : Connection :=
  { c with backend := some [], left := c.backend.toList ++ c.left }

def handleHelo (k : Answers) (data : Bytes) (c : Connection) : Connection × Except Failure Bytes :=
  match heloDomain data with
  | none => (c, .ok errorSyntax)
  | some domain =>
    match (k.dial c.dialed domain).result with
    | .error e => (c, .error e)
    | .ok _ => forwardCommand k data c.open

def handle (k : Answers) (data : Bytes) (c : Connection) : Connection × Except Failure Bytes :=
  match c.state with
  | .data => forwardData k data c
  | .command =>
    match command data with
    | .helo => handleHelo k data c
    | .forwarded => forwardCommand k data c
    | .unknown => (c, .ok errorUnknownCommand)

structure Session where
  connection : Connection
  closed : Bool
  deriving DecidableEq, Repr

/-- `onConnect`. -/
def Session.new : Session := ⟨.new, false⟩

/-- The session after a packet, and what is sent to the client. -/
def onReceive (k : Answers) (s : Session) (data : Bytes) : Session × Bytes :=
  match handle k data s.connection with
  | (c, .ok response) => (⟨c, s.closed⟩, response)
  | (c, .error _) => (⟨c, true⟩, errorUnavailable)

/-! ## Packets of lines -/

/-- Bytes with a CRLF at their end and nowhere else. -/
def IsLine (line : Bytes) : Prop := crlf <:+ line ∧ ¬ crlf <:+: line.dropLast

instance (line : Bytes) : Decidable (IsLine line) := by
  unfold IsLine
  infer_instance

/-- One or more lines, delivered together. -/
abbrev Packet := { lines : List Bytes // lines ≠ [] ∧ ∀ line ∈ lines, IsLine line }

/-- What the world around the server does: how each dial goes, and what a backend with some number,
after some bytes, answers to a line that is sent to it alone.  Nothing but DATA is answered with the
code 354, and an answer has at least a code in it. -/
structure World where
  dial : ℕ → Bytes → Dial
  reply : ℕ → Bytes → Bytes → Bytes
  three_le_reply : ∀ n sent line, reply n sent line = [] ∨ 3 ≤ (reply n sent line).length
  isDataCommand_of_ready : ∀ n sent line, dataReadyCode <+: reply n sent line → isDataCommand line

/-- The answers to the lines, one after the other. -/
def World.response (w : World) (n : ℕ) : Bytes → List Bytes → Bytes
  | _, [] => []
  | sent, line :: lines => w.reply n sent line ++ w.response n (sent ++ line) lines

/-- What the calls give when the lines are sent together. -/
def World.answers (w : World) (lines : List Bytes) : Answers where
  dial := w.dial
  send := true
  recv n sent := some (w.response n sent lines)

/-- The lines arrive in one packet.  A closed client is not heard any more. -/
def receive (w : World) (s : Session) (lines : List Bytes) : Session :=
  if s.closed then s else (onReceive (w.answers lines) s lines.flatten).1

/-- Every line arrives in a packet of its own. -/
def receiveEach (w : World) (s : Session) (lines : List Bytes) : Session :=
  lines.foldl (fun s line => receive w s [line]) s

/-- Two servers get the same lines, the first one packet by packet, the second one line by line. -/
def step (w : World) (st : Session × Session) (p : Packet) : Option (Session × Session) :=
  some (receive w st.1 p.1, receiveEach w st.2 p.1)

/-- The two have changed their state in the same way, have sent the same bytes to the same backends,
and both or neither still serve the client. -/
def Agreed (st : Session × Session) : Prop := st.1 = st.2

/-! ## Packets that are handled as their lines are -/

def IsBlank (line : Bytes) : Prop := trim line = []

/-- The server answers by itself, with the 500 or the 501 line. -/
def IsAnswered (data : Bytes) : Prop :=
  command data = .unknown ∨ command data = .helo ∧ heloDomain data = none

/-- The server gives the client up: there is no backend to forward to, or none can be reached. -/
def Ends (w : World) (c : Connection) (data : Bytes) : Prop :=
  command data = .forwarded ∧ c.backend = none
    ∨ command data = .helo ∧ ∃ domain e, heloDomain data = some domain
      ∧ (w.dial c.dialed domain).result = .error e

/-- The connection whose backend the data goes to: this one, or the one that is opened for it. -/
def Target (w : World) (c : Connection) (data : Bytes) (c' : Connection) : Prop :=
  command data = .forwarded ∧ c.backend ≠ none ∧ c' = c
    ∨ command data = .helo ∧ (∃ domain, heloDomain data = some domain
      ∧ (w.dial c.dialed domain).result = .ok ()) ∧ c' = c.open

/-- None of the lines is answered with the code 354. -/
def NoneReady (w : World) (c : Connection) (lines : List Bytes) : Prop :=
  ∀ pre line post, lines = pre ++ line :: post →
    ¬ dataReadyCode <+: w.reply c.left.length (c.backend.getD [] ++ pre.flatten) line

/-- The packets that an open session handles as it handles their lines. -/
inductive Alike (w : World) (c : Connection) : List Bytes → Prop
  | single (line) : Alike w c [line]
  /-- a part of the message without its end -/
  | body (lines) : c.state = .data → (∀ line ∈ lines, trim line ≠ dataTerminator) → Alike w c lines
  /-- the end of the message, with nothing but blank lines before it -/
  | dot (blanks line) : c.state = .data → (∀ b ∈ blanks, IsBlank b) → trim line = dataTerminator →
      Alike w c (blanks ++ [line])
  | answered (lines) : c.state = .command → (∀ line ∈ lines, IsAnswered line) →
      IsAnswered lines.flatten → Alike w c lines
  | ends (pre line post) : c.state = .command → (∀ b ∈ pre, IsAnswered b) → Ends w c line →
      Ends w c (pre ++ line :: post).flatten → Alike w c (pre ++ line :: post)
  /-- commands for one backend, none of which begins a message -/
  | taken (line lines c') : c.state = .command → Target w c line c' →
      (∀ l ∈ lines, command l = .forwarded) → NoneReady w c' (line :: lines) →
      Alike w c (line :: lines)
  /-- the beginning of a message and blank lines of it -/
  | ready (line blanks sent) : c.state = .command → c.backend = some sent → isDataCommand line →
      dataReadyCode <+: w.reply c.left.length sent line → (∀ b ∈ blanks, IsBlank b) →
      Alike w c (line :: blanks)

end PhpSmtp

end ProtocolProxy
