/-!
The two ends of a connection. Both follow one protocol, but only the server relays, synchronizes and
answers for actions that it does not have.
-/
namespace PeerLink

inductive Role where
  | server
  | client
  deriving DecidableEq, Inhabited

def Role.describe : Role → String
  | .server => "Server"
  | .client => "Client"

end PeerLink
