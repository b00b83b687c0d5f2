import ProtocolProxy.Helo

/-!
# The SMTP server and its original

The Rust SMTP server is a port of the PHP one.  The log of a Rust session has every line with what
was read from the backend after it, so the PHP server can be run on the same lines, with the same
replies and the same dials (`replay`).  A client that waits for its replies gives the PHP server one
line at a time, and its `onReceive` returns before the next line comes.
-/

namespace ProtocolProxy

namespace SmtpPort

open Smtp (State Backend Entry SmtpState Pc Action)
open PhpSmtp (Answers Session)

/-- How the dial of a backend with some number goes, for some domain. -/
abbrev Dials := ℕ → Bytes → PhpSmtp.Dial

/-! ## The PHP server on a log -/

/-- The dials are given, sends succeed, and `recv` gives what was read. -/
def answersOf (D : Dials) (e : Entry) : Answers := ⟨D, true, fun _ _ => e.reply⟩

/-- The PHP server's session and what it has sent to the client, after one more line. -/
def advance (D : Dials) (e : Entry) (php : Session × Bytes) : Session × Bytes :=
  let (session, response) := PhpSmtp.onReceive (answersOf D e) php.1 e.line
  (session, php.2 ++ response)

/-- The same after all the lines of a log, of which the latest comes first. -/
def replay (D : Dials) : List Entry → Session × Bytes
  | [] => (.new, Smtp.greeting)
  | e :: log => advance D e (replay D log)

/-- What was written to the backends, the latest first. -/
def sent (backends : List Backend) : List Bytes := (backends.map Backend.written).reverse

/-- The PHP session is open and in mode `state`, has sent `sent` to its backends, and the client has
been sent `client`. -/
structure Same (php : Session × Bytes) (state : SmtpState) (sent : List Bytes) (client : Bytes) :
    Prop where
  closed : php.1.closed = false
  state : php.1.connection.state = state
  backend : php.1.connection.backend = sent.head?
  left : php.1.connection.left = sent.tail
  client : php.2 = client

/-- While the Rust session waits for a line, the PHP session is in the same mode, and both have sent
the same to the backends and to the client.  A session that ends with the 421 line has its client
told the same and closed by PHP, and when it has ended, the client has been told the same. -/
def Follows (D : Dials) (s : State) : Prop :=
  (s.pc = .readLine → Same (replay D s.log) s.state (sent s.backends) s.client)
    ∧ (∀ rest, s.pc = .unavailable rest → (replay D s.log).1.closed = true
      ∧ (replay D s.log).2 = s.client ++ rest)
    ∧ ∀ r, s.pc = .returned r → (replay D s.log).2 = s.client

/-! ## What both are to meet -/

/-- None of the three bytes that only one of the servers takes for blanks: NUL, vertical tab and
form feed. -/
def Plain (data : Bytes) : Prop := ∀ b ∈ data, b ≠ 0 ∧ b ≠ 11 ∧ b ≠ 12

/-- The dial that a line asks for. -/
def dialFor (D : Dials) (n : ℕ) (line : Bytes) : PhpSmtp.Dial :=
  D n (asBytes ((Smtp.parseHeloDomain line).getD []))

/-- The Rust session's dials go as they are given. -/
def DialsAs (D : Dials) (s : State) : Action → Prop
  | .input (.routed r) => ∀ line domain, s.pc = .routing line domain →
      (dialFor D s.backends.length line).route = r.isOk
  | .input .connected => ∀ line host port, s.pc = .connecting line host port →
      (dialFor D s.backends.length line).connect = true
  | .input (.read n) => ∀ line k b, s.pc = .greeted line k → s.backends[k]? = some b →
      (dialFor D k line).greeting = some (b.inbox.take n)
  | .input (.failed _) | .input .timedOut | .input .eof =>
      (∀ line host port, s.pc = .connecting line host port →
        (dialFor D s.backends.length line).connect = false)
      ∧ ∀ line k, s.pc = .greeted line k → (dialFor D k line).greeting = none
  | _ => True

/-- A line that a PHP packet can be, and on whose blanks both agree.  A command is in ASCII, and
both route on the same domain or neither does. -/
def PlainLine (state : SmtpState) (line : Bytes) : Prop :=
  line.length ≤ Smtp.packageMaxLength ∧ PhpSmtp.IsLine line ∧ Plain line
    ∧ (state = .command → Helo.IsCommandLine line ∧ Helo.Agree line)

def PlainLines (s : State) : Action → Prop
  | .input (.line line) => PlainLine s.state line
  | _ => True

/-- Where a call may fail or time out: in the dial of a backend and in the read of the next line. -/
def fallible : Pc → Bool
  | .readLine | .connecting _ _ _ | .greeted _ _ => true
  | _ => false

/-- What is written is taken, and commands are answered: a backend closes, if at all, in place of
its greeting or of a message's final reply. -/
def Goes (s : State) : Action → Prop
  | .input (.failed _) | .input .timedOut => fallible s.pc = true
  | .input .eof => ∀ line k, s.pc ≠ .awaiting .command line k
  | _ => True

/-- Both servers meet the same, and nothing they are known to differ on. -/
def Meets (D : Dials) (s : State) (a : Action) : Prop :=
  DialsAs D s a ∧ PlainLines s a ∧ Goes s a

end SmtpPort

end ProtocolProxy
