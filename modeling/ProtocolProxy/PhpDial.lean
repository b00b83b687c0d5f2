import ProtocolProxy.PhpEndpoint
import ProtocolProxy.PhpRouter

/-!
# Where the PHP servers connect to

The TCP, HTTP and SMTP servers connect to what `Adapter::parseEndpoint` makes of a routed endpoint
(`src/Adapter.php`), with the adapter's port, 80 and 25 for an endpoint without one.

`Adapter::route` hands out endpoints of its cache as they are.  Its rows may be another's and may be
cut, so what is dialed has to be safe for whatever row a call finds.
-/

namespace ProtocolProxy

namespace Php

open Net PhpEndpoint

/-- The address and the port that are connected to. -/
def dial (endpoint : Text) (defaultPort : ℤ) : Text × ℤ :=
  PhpHttp.parseEndpoint Numeric.intCast endpoint defaultPort

/-- `validate` of the adapter, with what DNS is like when it is called: for an endpoint's host it
has an IPv4 address or fails. -/
def Validates (validate : Text → Except ResolverError Text) : Prop :=
  ∀ e, ∃ env, validate e = PhpEndpoint.validate env e
    ∧ ∃ answer, phpYields env (hostPart e) answer

/-- Validation is not switched off, and a call that goes on validates with the adapter's method. -/
def ValidatesAll (_ : State) : Action → Prop
  | .setSkipValidation skip => skip = false
  | .finish _ w => Validates w.validate
  | _ => True

/-- An IPv4 address that is not blocked, with a port from 1 to 65535 or the default. -/
def Dials (endpoint : Text) (defaultPort : ℤ) : Prop :=
  ∃ (a : Ipv4Addr) (port : ℤ), dial endpoint defaultPort = (a.text, port)
    ∧ isBlockedIpv4 a = false ∧ (port = defaultPort ∨ 1 ≤ port ∧ port ≤ 65535)

end Php

end ProtocolProxy
