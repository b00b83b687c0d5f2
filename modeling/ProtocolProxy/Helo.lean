import ProtocolProxy.PhpSmtp

/-!
# Whom a client says it is

What the two SMTP servers take for an `EHLO` or `HELO` line, and the domain they then route on
(`rust/crates/utopia-proxy/src/server/smtp/server.rs` and `src/Server/SMTP/Swoole.php`).  The Rust
server trims the line and reads its second word; the PHP server matches a pattern at its start.
-/

namespace ProtocolProxy

/-- The domain that `handle_client` routes on, in command mode. -/
def Smtp.heloRoute (line : Bytes) : Option Text :=
  if isHelo (commandToken line) then parseHeloDomain line else none

/-- The domain that `onReceive` routes on, in command mode. -/
def PhpSmtp.heloRoute (data : Bytes) : Option Bytes :=
  match command data with
  | .helo => heloDomain data
  | _ => none

namespace Helo

open PhpSmtp (strtoupper heloTokens isSpace)

/-- ASCII bytes that end in a CRLF and have no other CR or LF. -/
structure IsCommandLine (line : Bytes) : Prop where
  ends : ∃ body, line = body ++ [13, 10] ∧ ∀ b ∈ body, b ≠ 13 ∧ b ≠ 10
  ascii : ∀ b ∈ line, b < 128

/-- The parts of a line that begins, after some blanks, with `EHLO` or `HELO`, and goes on with more
than that word. -/
structure Parts (line : Bytes) where
  blanks : Bytes
  verb : Bytes
  /-- what follows the verb without a space -/
  glued : Bytes
  space : UInt8
  rest : Bytes
  eq : line = blanks ++ (verb ++ (glued ++ space :: rest))
  blanks_blank : ∀ b ∈ blanks, Smtp.isAsciiWhitespace b = true
  verb_helo : strtoupper verb ∈ heloTokens
  glued_solid : ∀ b ∈ glued, isSpace b = false
  space_space : isSpace space = true

/-- The line names a domain, but there are blanks before the verb or something is glued to it. -/
def IsLoose (line : Bytes) : Prop :=
  ∃ parts : Parts line, (parts.blanks ≠ [] ∨ parts.glued ≠ [])
    ∧ ∃ b ∈ parts.rest, isSpace b = false

/-- Both servers route on the same key, or neither does. -/
def Agree (line : Bytes) : Prop :=
  (Smtp.heloRoute line).map asBytes = PhpSmtp.heloRoute line

end Helo

end ProtocolProxy
