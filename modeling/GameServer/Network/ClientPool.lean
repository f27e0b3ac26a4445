import GameServer.Lib.StdMap
import GameServer.Network.Packet

/-!
# The pool of connected clients

`ClientContextPool` of `context.h`: two maps lead from sequence ids and from
file descriptors to the client contexts.  The pool stores pointers, here values
of an arbitrary type; what it reads through a pointer, the descriptor of a
client, is passed in as a partial function that is undefined on deleted
clients.
-/

namespace GameServer
namespace Network

open Lib

/-- `ClientContextPool`, with pointers of type `γ`. -/
structure ClientContextPool (γ : Type*) where
  clientSeqPool : UInt64 → Option γ
  clientFdPool : Int → Option γ

namespace ClientContextPool

variable {γ : Type*}

/-- A pool without clients. -/
def empty : ClientContextPool γ := ⟨fun _ => none, fun _ => none⟩

/-- `GetClient`. -/
def getClient (pool : ClientContextPool γ) (ulClientSeq : UInt64) : Option γ :=
  pool.clientSeqPool ulClientSeq

@[simp] theorem getClient_empty (ulClientSeq : UInt64) :
    (empty : ClientContextPool γ).getClient ulClientSeq = none := rfl

/-- `GetClientByFd`. -/
def getClientByFd (pool : ClientContextPool γ) (iClientFd : Int) : Option γ :=
  pool.clientFdPool iClientFd

/-- `RemoveClientByFd`; no caller uses the pointer it returns. -/
def removeClientByFd (pool : ClientContextPool γ) (iClientFd : Int) :
    ClientContextPool γ :=
  { pool with clientFdPool := Function.update pool.clientFdPool iClientFd none }

/-- `AddClient` for a client with the given descriptor. -/
def addClient (pool : ClientContextPool γ) (ulClientSeq : UInt64)
    (pstClient : γ) (iClientFd : Int) : ClientContextPool γ where
  clientSeqPool := mapInsert pool.clientSeqPool ulClientSeq pstClient
  clientFdPool := mapInsert pool.clientFdPool iClientFd pstClient

/-- `RemoveClient`.  The client found under the id is asked for its descriptor;
`none` when it has been deleted. -/
def removeClient (pool : ClientContextPool γ) (getClientFd : γ → Option Int)
    (ulClientSeq : UInt64) : Option (ClientContextPool γ) :=
  match pool.clientSeqPool ulClientSeq with
  | none => some pool
  | some pstClient =>
    (getClientFd pstClient).map fun iClientFd =>
      { pool.removeClientByFd iClientFd with
        clientSeqPool := Function.update pool.clientSeqPool ulClientSeq none }

end ClientContextPool

end Network
end GameServer
