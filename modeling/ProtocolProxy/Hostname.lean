import ProtocolProxy.IpText
import ProtocolProxy.Resolver

/-!
# Host names

`is_valid_hostname` and `is_valid_label` of
`rust/crates/utopia-proxy/src/server/http/handler.rs`, and the grammar their doc comment describes.
-/

namespace ProtocolProxy

open Net Digits

/-- `str::len`: the bytes of the text's UTF-8. -/
def byteLen (s : Text) : ℕ := (s.map Char.utf8Size).sum

/-- `str::rsplit_once`: the text before and after the last `c`. -/
def rsplitOnce (c : Char) (s : Text) : Option (Text × Text) :=
  (splitOnce c s.reverse).map fun p => (p.2.reverse, p.1.reverse)

def isLabelChar (c : Char) : Bool := c.isAlphanum || c = '-'

def isValidLabel (label : Text) : Bool :=
  if label.isEmpty || 63 < byteLen label then false
  else if label.head? = some '-' || label.getLast? = some '-' then false
  else label.all isLabelChar

/-- The name without its `:port`, if it has one. -/
def hostnamePart (hostname : Text) : Text :=
  match rsplitOnce ':' hostname with
  | some (host, port) => if !port.isEmpty && port.all Char.isDigit then host else hostname
  | none => hostname

def isValidHostname (hostname : Text) : Bool :=
  if hostname.isEmpty then false
  else
    let hostPart := hostnamePart hostname
    if hostPart.isEmpty || 253 < byteLen hostPart then false
    else if (Ipv4Addr.parse hostPart).isSome then true
    else (hostPart.splitOn '.').all isValidLabel && hostPart.contains '.'
      || hostPart.all isLabelChar

/-! ## The grammar -/

/-- 1 to 63 letters, digits and hyphens, with no hyphen at either end. -/
def IsLabel (label : Text) : Prop :=
  1 ≤ label.length ∧ label.length ≤ 63 ∧ (∀ c ∈ label, c.isAlphanum ∨ c = '-')
    ∧ label.head? ≠ some '-' ∧ label.getLast? ≠ some '-'

/-- Labels separated by dots, of 1 to 253 bytes in all. -/
def IsHost (host : Text) : Prop :=
  1 ≤ byteLen host ∧ byteLen host ≤ 253
    ∧ ∃ labels, labels ≠ [] ∧ (∀ l ∈ labels, IsLabel l) ∧ host = ['.'].intercalate labels

/-- A host, with a port after it or without. -/
def IsHostname (s : Text) : Prop :=
  IsHost s ∨ ∃ host port, IsHost host ∧ port ≠ [] ∧ (∀ c ∈ port, c.isDigit)
    ∧ s = host ++ ':' :: port

/-- A name of one to 253 letters, digits and hyphens that is too long for a label, or has a hyphen
at an end. -/
def LooseName (host : Text) : Prop :=
  1 ≤ host.length ∧ host.length ≤ 253 ∧ (∀ c ∈ host, c.isAlphanum ∨ c = '-')
    ∧ (63 < host.length ∨ host.head? = some '-' ∨ host.getLast? = some '-')

end ProtocolProxy
