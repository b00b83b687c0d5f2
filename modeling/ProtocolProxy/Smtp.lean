import ProtocolProxy.Endpoint
import ProtocolProxy.Machine
import ProtocolProxy.Trim

/-!
# SMTP sessions

One client's session with the SMTP server (`rust/crates/utopia-proxy/src/server/smtp/server.rs` and
`connection.rs`): `handle_client` and the handlers it calls, cut where they await something.  What
an await gives is an input: a write takes some bytes, a read returns some, a call fails.

Lines are handled one after the other, so a session is a program counter and the connection, the
backends it has opened, and what was written to the client.  Besides there is a log of the lines
that nothing reads.
-/

namespace ProtocolProxy

namespace Smtp

open Trim (isWhitespace trim)

/-! ## Lines -/

def ascii (s : String) : Bytes := s.toList.map fun c => UInt8.ofNat c.toNat

def greeting : Bytes := ascii "220 utopia-php.io ESMTP Proxy\r\n"

def greetingCode : Bytes := ascii "220"

def dataReadyCode : Bytes := ascii "354"

def errorUnknownCommand : Bytes := ascii "500 Unknown command\r\n"

def errorSyntax : Bytes := ascii "501 Syntax error\r\n"

def errorUnavailable : Bytes := ascii "421 Service not available\r\n"

def dataTerminator : Bytes := ascii "."

def recvBuffer : ℕ := 8192

def packageMaxLength : ℕ := 10 * 1024 * 1024

def defaultPort : UInt16 := 25

/-- What `read_until` returns: something that has a line feed, if at all, only at its end. -/
def IsLine (line : Bytes) : Prop := line ≠ [] ∧ 10 ∉ line.dropLast

instance (line : Bytes) : Decidable (IsLine line) := by
  unfold IsLine
  infer_instance

def isAsciiWhitespace (b : UInt8) : Bool := b = 32 ∨ b = 9 ∨ b = 10 ∨ b = 12 ∨ b = 13

def trimAscii (bytes : Bytes) : Bytes :=
  (bytes.dropWhile isAsciiWhitespace).rdropWhile isAsciiWhitespace

def commandToken (line : Bytes) : Text :=
  ((fromUtf8 ((trimAscii line).take 4)).getD []).map Char.toUpper

/-- What follows the first whitespace character, if there is one. -/
def afterVerb (s : Text) : Option Text :=
  match s.dropWhile fun c => !isWhitespace c with
  | [] => none
  | _ :: rest => some rest

def parseHeloDomain (line : Bytes) : Option Text := do
  let asStr ← fromUtf8 (trimAscii line)
  let rest := trim (← afterVerb asStr)
  let domain := (rest.dropWhile isWhitespace).takeWhile fun c => !isWhitespace c
  if domain = [] then none else some domain

def toAsciiUppercase (b : UInt8) : UInt8 := if 97 ≤ b ∧ b ≤ 122 then b - 32 else b

def isDataOnlyLine (line : Bytes) : Bool :=
  let trimmed := trimAscii line
  trimmed.length = 4 ∧ trimmed.map toAsciiUppercase = ascii "DATA"

def isHelo (command : Text) : Bool := command = "EHLO".toList ∨ command = "HELO".toList

def isForwarded (command : Text) : Bool :=
  ["MAIL".toList, "RCPT".toList, "DATA".toList, "RSET".toList, "NOOP".toList,
    "QUIT".toList].contains command

/-! ## Sessions -/

inductive SmtpState
  | command
  | data
  deriving DecidableEq, Repr

/-- A backend connection: the bytes written to it, those that have come from it and are not read
yet, and those that have been read. -/
structure Backend where
  written : Bytes
  inbox : Bytes
  consumed : Bytes
  deriving DecidableEq, Repr

/-- What became of a line: it was forwarded to a backend, which it may have opened, or withheld. -/
inductive Fate
  | opened (k : ℕ)
  | forwarded (k : ℕ)
  /-- answered with the 500 line -/
  | unknown
  /-- answered with the 501 line -/
  | noDomain
  | tooLong
  | noBackend
  /-- the route, the connect or the backend's greeting failed -/
  | unreachable
  deriving DecidableEq, Repr

/-- A line with the state of the connection when it was read, what became of it, and the first bytes
that were read from the backend after it. -/
structure Entry where
  line : Bytes
  state : SmtpState
  backend : Option ℕ
  fate : Fate
  reply : Option Bytes
  deriving DecidableEq, Repr

inductive Pc
  | greeting (rest : Bytes)
  | readLine
  | routing (line : Bytes) (domain : Text)
  | connecting (line : Bytes) (host : Text) (port : UInt16)
  /-- waiting for the greeting of the new backend `k` -/
  | greeted (line : Bytes) (k : ℕ)
  /-- writing a line to backend `k`, and flushing when nothing is left to write -/
  | sending (state : SmtpState) (line : Bytes) (k : ℕ) (rest : Bytes)
  | awaiting (state : SmtpState) (line : Bytes) (k : ℕ)
  | relaying (state : SmtpState) (line response rest : Bytes)
  | syntaxError (rest : Bytes)
  | unknownCommand (rest : Bytes)
  /-- writing the 421 line before returning -/
  | unavailable (rest : Bytes)
  | returned (error : Option String)
  deriving DecidableEq, Repr

/-- `error` is what a handler failed with, which is only logged.  `unwritten` is what is left of the
last line that was begun to be written.  The log has the latest line first. -/
structure State where
  pc : Pc
  state : SmtpState
  backend : Option ℕ
  backends : List Backend
  client : Bytes
  error : Option String
  unwritten : Bytes
  log : List Entry
  deriving DecidableEq, Repr

def new : State := ⟨.greeting greeting, .command, none, [], [], none, [], []⟩

def State.goto (s : State) (pc : Pc) : State := { s with pc := pc }

/-- A handler's error, and the answer to it. -/
def State.fail (s : State) (e : String) : State :=
  { s with pc := .unavailable errorUnavailable, error := some e }

def State.record (s : State) (line : Bytes) (fate : Fate) : State :=
  { s with log := ⟨line, s.state, s.backend, fate, none⟩ :: s.log }

/-- The beginning of `forward_command` and of `forward_data`. -/
def State.forward (s : State) (line : Bytes) : State :=
  match s.backend with
  | none => (s.record line .noBackend).fail "no backend connection"
  | some k =>
    { s.record line (.forwarded k) with pc := .sending s.state line k line, unwritten := line }

def State.handleHelo (s : State) (line : Bytes) : State :=
  match parseHeloDomain line with
  | none => (s.record line .noDomain).goto (.syntaxError errorSyntax)
  | some domain => s.goto (.routing line domain)

/-- What `handle_client` does with a line. -/
def State.serve (s : State) (line : Bytes) : State :=
  if line.length > packageMaxLength then
    (s.record line .tooLong).goto (.unavailable errorUnavailable)
  else
    match s.state with
    | .data => s.forward line
    | .command =>
      let command := commandToken line
      if isHelo command then s.handleHelo line
      else if isForwarded command then s.forward line
      else (s.record line .unknown).goto (.unknownCommand errorUnknownCommand)

def State.setBackend (s : State) (k : ℕ) (b : Backend) : State :=
  { s with backends := s.backends.set k b }

/-- A read of at most `RECV_BUFFER` bytes from backend `k`. -/
def State.read (s : State) (k n : ℕ) : Option (Bytes × State) :=
  match s.backends[k]? with
  | some b =>
    if 1 ≤ n ∧ n ≤ recvBuffer ∧ n ≤ b.inbox.length then
      some (b.inbox.take n,
        s.setBackend k ⟨b.written, b.inbox.drop n, b.consumed ++ b.inbox.take n⟩)
    else none
  | none => none

/-- The first bytes read after the latest line. -/
def State.setReply (s : State) (response : Bytes) : State :=
  match s.log with
  | e :: log => { s with log := { e with reply := some response } :: log }
  | [] => s

/-- The end of `connect_to_backend` and of `handle_helo`: the greeting has been read. -/
def State.welcome (s : State) (line : Bytes) (k : ℕ) (read : Bytes) : State :=
  let greeting := trimAscii read
  if !greetingCode.isPrefixOf greeting then
    (s.record line .unreachable).fail ("backend SMTP greeting failed: " ++ fromUtf8Lossy greeting)
  else
    { s.record line (.opened k) with
      pc := .sending .command line k line, backend := some k, unwritten := line }

/-- The end of `forward_command` and, for the last line of a message, of `forward_data`: the
response has been written to the client. -/
def State.replied (s : State) (state : SmtpState) (line response : Bytes) : State :=
  match state with
  | .data => s.goto .readLine
  | .command =>
    let s := if isDataOnlyLine line && dataReadyCode.isPrefixOf response then
      { s with state := .data } else s
    s.goto (if commandToken line = "QUIT".toList then .returned none else .readLine)

/-- What an await gives.  A call that has a time limit can also time out. -/
inductive Input
  | wrote (n : ℕ)
  | flushed
  | line (line : Bytes)
  | read (n : ℕ)
  | eof
  | routed (result : Except ResolverError ConnectionResult)
  | connected
  | failed (e : String)
  | timedOut

/-- Some bytes of `rest` are written to the client. -/
def State.writeClient (s : State) (rest : Bytes) (n : ℕ) (more : Bytes → Pc) : Option State :=
  if 1 ≤ n ∧ n ≤ rest.length then
    some { s with client := s.client ++ rest.take n, pc := more (rest.drop n) }
  else none

def State.writeBackend (s : State) (k : ℕ) (rest : Bytes) (n : ℕ) (more : Bytes → Pc) :
    Option State :=
  match s.backends[k]? with
  | some b =>
    if 1 ≤ n ∧ n ≤ rest.length then
      some { s.setBackend k { b with written := b.written ++ rest.take n } with
        pc := more (rest.drop n), unwritten := rest.drop n }
    else none
  | none => none

def next (s : State) : Pc → Input → Option State
  | .greeting rest, .wrote n => s.writeClient rest n .greeting
  | .greeting [], .flushed => some (s.goto .readLine)
  | .greeting _, .failed e => some (s.goto (.returned (some e)))
  | .readLine, .line line => if IsLine line then some (s.serve line) else none
  | .readLine, .eof => some (s.goto (.returned none))
  | .readLine, .failed e => some (s.goto (.returned (some e)))
  | .routing line _, .routed (.ok result) =>
    let (host, port) := parseEndpoint result.endpoint defaultPort
    some (s.goto (.connecting line host port))
  | .routing line _, .routed (.error e) =>
    some ((s.record line .unreachable).fail ("resolver error: " ++ e.text))
  | .connecting line _ _, .connected =>
    some { s with pc := .greeted line s.backends.length, backends := s.backends ++ [⟨[], [], []⟩] }
  | .connecting line _ _, .failed e => some ((s.record line .unreachable).fail e)
  | .connecting line _ _, .timedOut =>
    some ((s.record line .unreachable).fail "backend connect timeout")
  | .greeted line k, .read n => (s.read k n).map fun (data, s) => s.welcome line k data
  | .greeted line _, .eof =>
    some ((s.record line .unreachable).fail "backend closed before greeting")
  | .greeted line _, .failed e => some ((s.record line .unreachable).fail e)
  | .greeted line _, .timedOut =>
    some ((s.record line .unreachable).fail "backend greeting timeout")
  | .sending state line k rest, .wrote n => s.writeBackend k rest n (.sending state line k)
  | .sending .command line k [], .flushed => some (s.goto (.awaiting .command line k))
  | .sending .data line k [], .flushed =>
    some (s.goto (if trimAscii line = dataTerminator then .awaiting .data line k else .readLine))
  | .sending _ _ _ _, .failed e => some (s.fail e)
  | .sending _ _ _ rest, .timedOut =>
    some (s.fail (if rest = [] then "backend flush timeout" else "backend write timeout"))
  | .awaiting .command line k, .read n =>
    (s.read k n).map fun (data, s) =>
      (s.setReply data).goto (.relaying .command line data data)
  | .awaiting .data line k, .read n =>
    (s.read k n).map fun (data, s) =>
      { (s.setReply data).goto (.relaying .data line data data) with state := .command }
  | .awaiting .command _ _, .eof => some (s.fail "backend closed unexpectedly")
  | .awaiting .data _ _, .eof => some { s with pc := .readLine, state := .command }
  | .awaiting _ _ _, .failed e => some (s.fail e)
  | .awaiting _ _ _, .timedOut => some (s.fail "backend read timeout")
  | .relaying state line response rest, .wrote n =>
    s.writeClient rest n (.relaying state line response)
  | .relaying state line response [], .flushed => some (s.replied state line response)
  | .relaying _ _ _ _, .failed e => some (s.fail e)
  | .syntaxError rest, .wrote n => s.writeClient rest n .syntaxError
  | .syntaxError [], .flushed => some (s.goto .readLine)
  | .syntaxError _, .failed e => some (s.fail e)
  | .unknownCommand rest, .wrote n => s.writeClient rest n .unknownCommand
  | .unknownCommand [], .flushed => some (s.goto .readLine)
  | .unknownCommand _, .failed e => some (s.goto (.returned (some e)))
  | .unavailable rest, .wrote n =>
    s.writeClient rest n fun rest => if rest = [] then .returned none else .unavailable rest
  | .unavailable _, .failed _ => some (s.goto (.returned none))
  | _, _ => none

inductive Action
  | input (i : Input)
  /-- Bytes come from backend `k`. -/
  | arrive (k : ℕ) (data : Bytes)

def step (s : State) : Action → Option State
  | .input i => next s s.pc i
  | .arrive k data =>
    s.backends[k]?.map fun b => s.setBackend k { b with inbox := b.inbox ++ data }

/-! ## What the log tells -/

def Action.line? : Action → Option Bytes
  | .input (.line line) => some line
  | _ => none

/-- The lines that were read, in the order in which they came. -/
def linesRead (as : List Action) : List Bytes := as.filterMap Action.line?

/-- The line that is not logged yet, since its backend is still being looked for. -/
def Pc.sought : Pc → List Bytes
  | .routing line _ | .connecting line _ _ | .greeted line _ => [line]
  | _ => []

def Entry.unanswered (e : Entry) : Entry := { e with reply := none }

/-- The session ends: nothing but the 421 line is written any more. -/
def Pc.over : Pc → Bool
  | .unavailable _ | .returned _ => true
  | _ => false

def Entry.withheld (e : Entry) : Bool :=
  match e.fate with
  | .opened _ | .forwarded _ => false
  | _ => true

/-- The lines forwarded since the one that opened the latest backend, which is the first of them. -/
def sinceOpened : List Entry → List Bytes
  | [] => []
  | e :: log =>
    match e.fate with
    | .opened _ => [e.line]
    | .forwarded _ => sinceOpened log ++ [e.line]
    | _ => sinceOpened log

def latestOpened : List Entry → Option ℕ
  | [] => none
  | e :: log =>
    match e.fate with
    | .opened k => some k
    | _ => latestOpened log

/-- The line is one that the session ends on. -/
def Entry.Refused (e : Entry) : Prop :=
  e.line.length > packageMaxLength ∨ e.fate = .unreachable
    ∨ e.state = .command ∧ isForwarded (commandToken e.line) = true ∧ e.backend = none

/-- The message that a session in `Data` mode is in: the `DATA` line and the backend's answer to it,
and the lines since. -/
structure InMessage (s : State) (k : ℕ) (body : List Entry) (e : Entry) (old : List Entry) :
    Prop where
  backend : s.backend = some k
  log : s.log = body ++ e :: old
  state : e.state = .command
  fate : e.fate = .forwarded k
  line : isDataOnlyLine e.line = true
  reply : ∃ r, e.reply = some r ∧ dataReadyCode <+: r
  body_state : ∀ e' ∈ body, e'.state = .data
  body_tail : ∀ e' ∈ body.tail, trimAscii e'.line ≠ dataTerminator
  body_handled : s.pc = .readLine → ∀ e' ∈ body, trimAscii e'.line ≠ dataTerminator

/-! ## The end of a message -/

/-- Where a backend ends a line: at every line feed, or only at a carriage return with a line feed.
-/
inductive LineEnd
  | lf
  | crlf
  deriving DecidableEq

def crlf : Bytes := ascii "\r\n"

def dotLine : Bytes := ascii ".\r\n"

/-- The next body line also starts a line for the backend.  `log` is what came before it. -/
def startsLine : LineEnd → List Entry → Bool
  | .lf, _ => true
  | .crlf, e :: _ => e.state = .command ∨ crlf.isSuffixOf e.line
  | .crlf, [] => true

/-- Whether the backend takes what comes next as a message's lines: it has answered `DATA` with 354,
and has not had a line since that is a dot and nothing else. -/
def backendData (ends : LineEnd) : List Entry → Bool
  | [] => false
  | e :: log =>
    match e.fate with
    | .opened _ => false
    | .forwarded _ =>
      if backendData ends log then !(e.line = dotLine && startsLine ends log)
      else isDataOnlyLine e.line && e.reply.any fun r => dataReadyCode.isPrefixOf r
    | _ => backendData ends log

/-- The next line is taken as a message's line by the session exactly if it is by the backend, and a
message's final answer is waited for only when the backend has seen its end. -/
def Agreed (ends : LineEnd) (s : State) : Prop :=
  (s.pc = .readLine → (s.state = .data ↔ backendData ends s.log = true))
    ∧ ∀ line k, s.pc = .awaiting .data line k → backendData ends s.log = false

/-- The line of a message that has been written is not a dot with blanks around it. -/
def DotExact (ends : LineEnd) (s : State) : Action → Prop
  | .input .flushed => ∀ line k, s.pc = .sending .data line k [] →
      trimAscii line = dataTerminator → line = dotLine ∧ startsLine ends s.log.tail = true
  | _ => True

/-! ## A backend's replies

`R k j` is the `j`-th reply of backend `k`, the greeting being the zeroth. -/

/-- The backend has to answer the line: a command, or the last line of a message. -/
def Entry.awaits (e : Entry) : Bool := e.state = .command ∨ trimAscii e.line = dataTerminator

def Entry.sentTo (e : Entry) (k : ℕ) : Bool := e.fate = .opened k ∨ e.fate = .forwarded k

/-- How many replies backend `k` owes after its greeting. -/
def answers (k : ℕ) (log : List Entry) : ℕ := log.countP fun e => e.sentTo k && e.awaits

section Replies

variable (R : ℕ → ℕ → Bytes)

/-- The first `m` replies. -/
def said (k m : ℕ) : Bytes := ((List.range m).map (R k)).flatten

/-- What the client should have been told. -/
def transcript : List Entry → Bytes
  | [] => []
  | e :: log => transcript log ++
    match e.fate with
    | .opened k | .forwarded k => if e.awaits then R k (answers k (e :: log)) else []
    | .unknown => errorUnknownCommand
    | .noDomain => errorSyntax
    | _ => []

/-- The backends write their greeting and one reply to each line they have to answer, and do not
close before. -/
def Replies (s : State) : Action → Prop
  | .arrive k data => ∀ b, s.backends[k]? = some b →
      b.consumed ++ b.inbox ++ data <+: said R k (answers k s.log + 1)
  | .input .eof => s.pc = .readLine
  | _ => True

/-- A read from a backend finds all that the backend has to say by then, and takes it. -/
def Whole (s : State) : Action → Prop
  | .input (.read n) => ∀ k b, ((∃ line, s.pc = .greeted line k)
        ∨ ∃ state line, s.pc = .awaiting state line k) → s.backends[k]? = some b →
      b.consumed ++ b.inbox = said R k (answers k s.log + 1) ∧ n = b.inbox.length
  | _ => True

/-- Whenever the next line is read, the client has been told the replies to the lines before, and
after a `DATA` line the session is in `Data` mode exactly if the reply to it starts with 354. -/
def RepliesPaired (s : State) : Prop :=
  s.pc = .readLine → s.client = greeting ++ transcript R s.log
    ∧ ∀ e old k, s.log = e :: old → e.state = .command → e.fate = .forwarded k →
        isDataOnlyLine e.line = true →
        (s.state = .data ↔ dataReadyCode <+: R k (answers k s.log))

end Replies

/-! ## Exchanges -/

/-- The backend is to answer the line: a command that is passed on to it, `EHLO` and `HELO` among
them, or the last line of a message. -/
def State.Exchanges (s : State) (line : Bytes) : Prop :=
  match s.state with
  | .data => trimAscii line = dataTerminator
  | .command => isForwarded (commandToken line) = true
      ∨ isHelo (commandToken line) = true ∧ (parseHeloDomain line).isSome = true

/-- A line is being handled. -/
def Pc.busy : Pc → Bool
  | .greeting _ | .readLine | .returned _ => false
  | _ => true

/-- The session writes to the client. -/
def Pc.tells : Pc → Bool
  | .relaying .. | .syntaxError _ | .unknownCommand _ | .unavailable _ => true
  | _ => false

/-- The line is still being handled, and writes to the client do not fail. -/
def Handling (s : State) : Action → Prop
  | .input (.failed _) => s.pc.busy = true ∧ s.pc.tells = false
  | _ => s.pc.busy = true

/-- A backend that has been sent the last line of a message does not close instead of answering. -/
def AnswersMessage (s : State) : Action → Prop
  | .input .eof => ∀ line k, s.pc ≠ .awaiting .data line k
  | _ => True

/-- The client has been told what the backend answered to the line, and the session goes on unless
it was asked to quit; or it has been told that there will be no answer, and the session is over. -/
def Settled (s : State) (line : Bytes) (t : State) : Prop :=
  (∃ e log reply, t.log = e :: log ∧ e.line = line ∧ e.reply = some reply ∧ reply ≠ []
      ∧ t.client = s.client ++ reply
      ∧ t.pc = if s.state = .command ∧ commandToken line = "QUIT".toList then .returned none
        else .readLine)
    ∨ t.client = s.client ++ errorUnavailable ∧ t.pc = .returned none

/-- A bound on the awaits that are left in the handling of a line. -/
def Pc.awaits : Pc → ℕ
  | .routing line _ => line.length + recvBuffer + 34
  | .connecting line _ _ => line.length + recvBuffer + 33
  | .greeted line _ => line.length + recvBuffer + 32
  | .sending _ _ _ rest => rest.length + recvBuffer + 31
  | .awaiting _ _ _ => recvBuffer + 30
  -- a write that fails is followed by the 27 bytes of the 421 line
  | .relaying _ _ _ rest | .syntaxError rest => rest.length + 29
  | .unknownCommand rest | .unavailable rest => rest.length + 1
  | .greeting _ | .readLine | .returned _ => 0

def Action.isInput : Action → Bool
  | .input _ => true
  | .arrive _ _ => false

end Smtp

end ProtocolProxy
