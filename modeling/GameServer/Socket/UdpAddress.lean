import GameServer.Lib.Memory
import GameServer.Network.Packet

/-!
# Addresses of UDP sockets

A user of `socket_server.c` never sees a socket address.  The address of a
peer is a string of bytes: the protocol, the port and the address of the peer
as they stand in the socket address (`gen_udp_address`).  It is appended to
every datagram that is passed on, `socket_server_udp_address` finds it there,
and `udp_socket_address` makes a socket address of it again when a datagram is
sent.

The way back leads to the sender (`reply_reaches_sender`): a reply that is sent
with the address found behind a datagram goes to the port and the address the
datagram came from.
-/

namespace GameServer
namespace Socket

open Lib Network

/-- `PROTOCOL_TCP`, `PROTOCOL_UDP` and `PROTOCOL_UDPv6`. -/
inductive Protocol where
  | tcp
  | udp
  | udpv6
deriving Repr, DecidableEq

/-- The number of a protocol. -/
def Protocol.number : Protocol → Byte
  | .tcp => 0
  | .udp => 1
  | .udpv6 => 2

theorem Protocol.number_injective : Function.Injective Protocol.number := by
  intro p q h
  cases p <;> cases q <;> first | rfl | exact absurd h (by decide)

/-- `UDP_ADDRESS_SIZE`. -/
def udpAddressSize : Nat := 19

/-! ## Socket addresses -/

/-- `union sockaddr_all`, as its bytes. -/
structure SockaddrAll where
  bytes : List Byte
  length_bytes : bytes.length = 28

/-- `AF_INET` and `AF_INET6` as they are stored. -/
def afInet : List Byte := [2, 0]

@[inherit_doc afInet] def afInet6 : List Byte := [10, 0]

/-- `sizeof(sa->v4)` and `sizeof(sa->v6)`. -/
def sizeofV4 : Nat := 16

@[inherit_doc sizeofV4] def sizeofV6 : Nat := 28

namespace SockaddrAll

/-- `sin_port` and `sin6_port`. -/
def port (sa : SockaddrAll) : List Byte := field sa.bytes 2 2

/-- `sin_addr`. -/
def sinAddr (sa : SockaddrAll) : List Byte := field sa.bytes 4 4

/-- `sin6_addr`. -/
def sin6Addr (sa : SockaddrAll) : List Byte := field sa.bytes 8 16

@[simp] theorem length_port (sa : SockaddrAll) : sa.port.length = 2 :=
  length_field (by rw [sa.length_bytes]; decide)

@[simp] theorem length_sinAddr (sa : SockaddrAll) : sa.sinAddr.length = 4 :=
  length_field (by rw [sa.length_bytes]; decide)

@[simp] theorem length_sin6Addr (sa : SockaddrAll) : sa.sin6Addr.length = 16 :=
  length_field (by rw [sa.length_bytes]; decide)

end SockaddrAll

/-- The first `sizeof(sa->v4)` bytes of a socket address that was cleared
before its family, port and address were set. -/
def sockaddrIn (port addr : List Byte) : List Byte :=
  memcpy (memcpy (memcpy (List.replicate sizeofV4 0) 0 afInet) 2 port) 4 addr

/-- The same for `sizeof(sa->v6)` bytes. -/
def sockaddrIn6 (port addr : List Byte) : List Byte :=
  memcpy (memcpy (memcpy (List.replicate sizeofV6 0) 0 afInet6) 2 port) 8 addr

/-! ## Addresses for the user -/

/-- `gen_udp_address`: the bytes it writes to the front of `udp_address`. -/
def genUdpAddress (protocol : Protocol) (sa : SockaddrAll) : List Byte :=
  if protocol = .udp then
    protocol.number :: (sa.port ++ sa.sinAddr)
  else
    protocol.number :: (sa.port ++ sa.sin6Addr)

/-- `udp_socket_address` for a socket of the protocol: the bytes of the socket
address up to the length it returns. -/
def udpSocketAddress (protocol : Protocol) (udpAddress : List Byte) :
    List Byte :=
  if udpAddress.headD 0 ≠ protocol.number then
    []
  else
    let port := field udpAddress 1 2
    match protocol with
    | .udp => sockaddrIn port (field udpAddress 3 4)
    | .udpv6 => sockaddrIn6 port (field udpAddress 3 16)
    | .tcp => []

/-- The length of an address for the user: one byte for the protocol, two for
the port and 4 or 16 for the address.  Other first bytes are refused. -/
def addrsz (address : List Byte) : Option Nat :=
  if address.headD 0 = Protocol.udp.number then some (1 + 2 + 4)
  else if address.headD 0 = Protocol.udpv6.number then some (1 + 2 + 16)
  else none

/-- `socket_server_udp_address` of a message with `ud` bytes in front of the
address. -/
def socketServerUdpAddress (data : List Byte) (ud : Nat) :
    Option (List Byte) :=
  (addrsz (data.drop ud)).map fun n => (data.drop ud).take n

/-- The part of `forward_message_udp` behind `recvfrom`, which has stored the
datagram and an address of length `slen`: the data of the message, unless the
datagram is dropped. -/
def forwardDatagram (protocol : Protocol) (datagram : List Byte)
    (sa : SockaddrAll) (slen : Nat) : Option (List Byte) :=
  if slen = sizeofV4 then
    if protocol ≠ .udp then none
    else some (datagram ++ genUdpAddress .udp sa)
  else
    if protocol ≠ .udpv6 then none
    else some (datagram ++ genUdpAddress .udpv6 sa)

/-- The address bytes of the request that `socket_server_udp_send` writes to
the control pipe, in front of what stands behind them in the buffer it is read
into. -/
def udpSendAddress (address behind : List Byte) : Option (List Byte) :=
  (addrsz address).map fun n => address.take n ++ behind

/-- The memcpy of `set_udp_address` to `p.udp_address`, for a socket of the
same protocol. -/
def storeUdpAddress (udpAddress address : List Byte) : List Byte :=
  memcpy udpAddress 0
    (address.take (if address.headD 0 = Protocol.udp.number then 1 + 2 + 4
      else 1 + 2 + 16))

/-! ## The way back -/

/-- The socket address of a peer: the bytes that `sendto` gets. -/
def peerOf (protocol : Protocol) (sa : SockaddrAll) : List Byte :=
  match protocol with
  | .udp => sockaddrIn sa.port sa.sinAddr
  | .udpv6 => sockaddrIn6 sa.port sa.sin6Addr
  | .tcp => []

theorem headD_genUdpAddress_append (protocol : Protocol) (sa : SockaddrAll) (behind : List Byte) :
    (genUdpAddress protocol sa ++ behind).headD 0 = protocol.number := by
  rw [genUdpAddress]
  split_ifs <;> rfl

theorem length_genUdpAddress (protocol : Protocol) (sa : SockaddrAll) :
    (genUdpAddress protocol sa).length =
      if protocol = .udp then 1 + 2 + 4 else 1 + 2 + 16 := by
  rw [genUdpAddress]
  split_ifs <;> simp

theorem addrsz_genUdpAddress_append {protocol : Protocol}
    (h : protocol ≠ .tcp) (sa : SockaddrAll) (behind : List Byte) :
    addrsz (genUdpAddress protocol sa ++ behind) = some (genUdpAddress protocol sa).length := by
  rw [addrsz, headD_genUdpAddress_append, length_genUdpAddress]
  cases protocol with
  | tcp => exact absurd rfl h
  | udp => rfl
  | udpv6 => rfl

/-- An address is read back, whatever stands behind it. -/
theorem udpSocketAddress_genUdpAddress_append (protocol : Protocol)
    (sa : SockaddrAll) (behind : List Byte) :
    udpSocketAddress protocol (genUdpAddress protocol sa ++ behind) = peerOf protocol sa := by
  have hport : ∀ addr : List Byte,
      field (protocol.number :: (sa.port ++ addr) ++ behind) 1 2 = sa.port := by
    intro addr
    simp [field]
  have haddr : ∀ (addr : List Byte) (n : Nat), addr.length = n →
      field (protocol.number :: (sa.port ++ addr) ++ behind) 3 n = addr := by
    intro addr n hn
    have hdrop : (protocol.number :: (sa.port ++ addr) ++ behind).drop 3 = addr ++ behind := by
      rw [List.cons_append, List.drop_succ_cons, List.append_assoc, List.drop_left' sa.length_port]
    rw [field, hdrop, List.take_left' hn]
  rw [udpSocketAddress, headD_genUdpAddress_append, if_neg (by simp)]
  cases protocol with
  | tcp => rfl
  | udp =>
    simp only [genUdpAddress, if_true, hport, haddr _ 4 sa.length_sinAddr, peerOf]
  | udpv6 =>
    simp only [genUdpAddress, reduceCtorEq, if_false, hport, haddr _ 16 sa.length_sin6Addr, peerOf]

/-- What is found behind a datagram that was passed on. -/
theorem socketServerUdpAddress_forwardDatagram {protocol : Protocol}
    {datagram data : List Byte} {sa : SockaddrAll} {slen : Nat}
    (h : forwardDatagram protocol datagram sa slen = some data) :
    data.take datagram.length = datagram ∧ socketServerUdpAddress data datagram.length =
        some (genUdpAddress protocol sa) := by
  obtain ⟨hprotocol, hdata⟩ : protocol ≠ .tcp ∧ data = datagram ++ genUdpAddress protocol sa := by
    rw [forwardDatagram] at h
    split_ifs at h with hslen hp hp
    · rw [not_not] at hp
      exact ⟨by simp [hp], by simpa [hp] using h.symm⟩
    · rw [not_not] at hp
      exact ⟨by simp [hp], by simpa [hp] using h.symm⟩
  have hsize := addrsz_genUdpAddress_append hprotocol sa []
  rw [List.append_nil] at hsize
  subst hdata
  refine ⟨List.take_left' rfl, ?_⟩
  rw [socketServerUdpAddress, List.drop_left' rfl, hsize, Option.map_some, List.take_length]

/-- **A reply reaches the sender.**  The address behind a datagram that was
passed on is accepted for sending, and a datagram sent with it on a socket of
the same protocol goes to the port and the address the first one came from,
whatever stands behind it in the buffer of the request.  The same holds for
datagrams without an address once it has been set as the address of the
socket.  On a socket of the other protocol it is no address at all. -/
theorem reply_reaches_sender {protocol : Protocol}
    {datagram data : List Byte} {sa : SockaddrAll} {slen : Nat}
    (h : forwardDatagram protocol datagram sa slen = some data) :
    ∃ address, socketServerUdpAddress data datagram.length = some address ∧
      (∀ behind, ∃ request, udpSendAddress address behind = some request ∧
        udpSocketAddress protocol request = peerOf protocol sa) ∧
      (∀ udpAddress : List Byte, udpAddress.length = udpAddressSize →
        udpSocketAddress protocol (storeUdpAddress udpAddress address) = peerOf protocol sa) ∧
      ∀ other behind, other ≠ protocol → udpSocketAddress other (address ++ behind) = [] := by
  have hprotocol : protocol ≠ .tcp := by
    rintro rfl
    simp [forwardDatagram] at h
  have hsize := addrsz_genUdpAddress_append hprotocol sa []
  rw [List.append_nil] at hsize
  have hhead := headD_genUdpAddress_append protocol sa []
  rw [List.append_nil] at hhead
  refine ⟨genUdpAddress protocol sa, (socketServerUdpAddress_forwardDatagram h).2, ?_, ?_, ?_⟩
  · intro behind
    refine ⟨genUdpAddress protocol sa ++ behind, ?_,
      udpSocketAddress_genUdpAddress_append protocol sa behind⟩
    rw [udpSendAddress, hsize, Option.map_some, List.take_length]
  · intro udpAddress hlength
    have hlen := length_genUdpAddress protocol sa
    have hle : (genUdpAddress protocol sa).length ≤ udpAddress.length := by
      rw [hlen, hlength]
      split_ifs <;> decide
    have htake : (genUdpAddress protocol sa).take
        (if (genUdpAddress protocol sa).headD 0 = Protocol.udp.number
          then 1 + 2 + 4 else 1 + 2 + 16) = genUdpAddress protocol sa := by
      apply List.take_of_length_le
      rw [hlen, hhead]
      simp only [Protocol.number_injective.eq_iff, le_refl]
    rw [storeUdpAddress, htake, memcpy_eq (by omega), List.take_zero, List.nil_append]
    exact udpSocketAddress_genUdpAddress_append protocol sa _
  · intro other behind hother
    rw [udpSocketAddress, headD_genUdpAddress_append, if_pos]
    intro heq
    exact hother (Protocol.number_injective heq).symm

/-- A datagram from port 80 of 10.0.0.7. -/
theorem reply_reaches_sender_v4 :
    ∃ sa : SockaddrAll, peerOf .udp sa =
        [2, 0, 0, 80, 10, 0, 0, 7, 0, 0, 0, 0, 0, 0, 0, 0] ∧
      ∃ data, forwardDatagram .udp [1, 2, 3] sa sizeofV4 = some data ∧
        ∃ address, socketServerUdpAddress data 3 = some address ∧
          (∃ request, udpSendAddress address [9] = some request ∧
            udpSocketAddress .udp request = peerOf .udp sa) ∧
          udpSocketAddress .udp (storeUdpAddress
            (List.replicate udpAddressSize 0) address) = peerOf .udp sa ∧
          udpSocketAddress .udpv6 address = [] := by
  let sa : SockaddrAll :=
    ⟨[2, 0, 0, 80, 10, 0, 0, 7] ++ List.replicate 20 0, rfl⟩
  obtain ⟨data, hdata⟩ : ∃ data, forwardDatagram .udp [1, 2, 3] sa sizeofV4 = some data := ⟨_, rfl⟩
  obtain ⟨address, haddress, hsend, hstore, hother⟩ :=
    reply_reaches_sender hdata
  refine ⟨sa, rfl, data, hdata, address, haddress, hsend [9], hstore _ List.length_replicate, ?_⟩
  simpa using hother .udpv6 [] (by decide)

end Socket
end GameServer
