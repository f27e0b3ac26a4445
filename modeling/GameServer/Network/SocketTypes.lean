import Mathlib.Tactic
import GameServer.Network.Packet

/-!
# The vocabulary of the socket server

Constants and types of `socket_server.c` that the model of a socket and the model
of the server share, and what the system calls for a stream return.
-/

namespace GameServer
namespace Network

/-- `MAX_SOCKET`. -/
def maxSocket : Nat := 2 ^ 16

/-- `MAX_EVENT`. -/
def maxEvent : Nat := 64

/-- `MIN_READ_BUFFER`. -/
def minReadBuffer : Nat := 64

/-- `HASH_ID`: the slot of an id. -/
def hashId (id : Int) : Nat := (id % maxSocket).toNat

/-- The `SOCKET_TYPE_` constants. -/
inductive SocketType where
  | invalid
  | reserve
  | plisten
  | listen
  | connecting
  | connected
  | halfclose
  | paccept
  | bind
deriving Repr, DecidableEq

namespace SocketType

/-- An accepted connection that is still open. -/
def isOpen : SocketType → Bool
  | paccept | connected | halfclose => true
  | _ => false

/-- The types of the sockets that the poll reports events for. -/
def isPolled : SocketType → Bool
  | listen | connecting | connected | halfclose | bind => true
  | _ => false

end SocketType

/-- `struct event`, with the number of a slot; there is none for the control
pipe. -/
structure SocketEvent where
  s : Option Nat
  read : Bool
  write : Bool
deriving Repr, DecidableEq

/-- What `read` returns. -/
inductive ReadAnswer where
  /-- These bytes; none at the end of the stream. -/
  | read (bytes : List Byte)
  /-- `EINTR` or `EAGAIN`. -/
  | again
  /-- Another error. -/
  | failed

/-- What `write` returns, once it is not interrupted. -/
inductive WriteAnswer where
  | wrote (n : Nat)
  /-- `EAGAIN`. -/
  | again
  /-- Another error. -/
  | failed

/-- The bytes that a write without an error has taken. -/
def WriteAnswer.count : WriteAnswer → Nat
  | wrote n => n
  | _ => 0

/-- The read size after a read of `n` bytes with the size `sz`. -/
def nextReadSize (sz n : Nat) : Nat :=
  if n = sz then sz * 2
  else if sz > minReadBuffer ∧ n * 2 < sz then sz / 2
  else sz

end Network
end GameServer
