import Hearthbeat.Network.Datagram

/-!
`beat.c`, the UDP branch of its loop: what it sends back for a datagram.
-/

namespace Hearthbeat.Beat

/-- The text that a server sends. -/
def message : Text := bytes "bip"

/-- The UDP branch: the address and the text of its one `sendto`. `received` is the
source of the datagram read, none where `recvfrom` fails; then `client_addr`
keeps what the stack held. -/
def udpBranch (clientAddr : SockAddr) (received : Option SockAddr) : SockAddr × Text :=
  (received.getD clientAddr, message)

/-- What a server sends for a datagram that it reads. -/
def reply (d : Datagram) : Datagram where
  src := d.dst
  dst := (udpBranch SockAddr.zero (some d.src)).1
  payload := (udpBranch SockAddr.zero (some d.src)).2

@[simp] lemma reply_src (d : Datagram) : (reply d).src = d.dst := rfl
@[simp] lemma reply_dst (d : Datagram) : (reply d).dst = d.src := rfl

end Hearthbeat.Beat
