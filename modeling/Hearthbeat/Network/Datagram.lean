import Hearthbeat.Text.Bytes

/-!
Socket addresses and UDP datagrams, as both programs see them.
-/

namespace Hearthbeat

/-- The part of a `sockaddr_in` that the source compares. -/
structure SockAddr where
  sinAddr : UInt32
  sinPort : UInt16
  deriving DecidableEq, Repr

/-- The address that `= {0}` and `memset` leave. -/
def SockAddr.zero : SockAddr := ⟨0, 0⟩

/-- A UDP datagram. -/
structure Datagram where
  src : SockAddr
  dst : SockAddr
  payload : Text
  deriving DecidableEq

end Hearthbeat
