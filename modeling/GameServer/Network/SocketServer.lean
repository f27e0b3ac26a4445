import GameServer.Socket.Table

/-!
# The socket server

`socket_server.c` keeps the sockets of a process in a table of slots.  A socket
is found in the slot given by its id modulo the size of the table, and is there
as long as the slot has that id.  Other threads do not touch the sockets: they
write requests to the control pipe, and the thread that calls
`socket_server_poll` reads them from the pipe and executes them between the
events of its sockets.

Here are the requests and events of this server, which calls `reserve_id` in one
thread at a time.  What they do to a slot is what the functions of `Socket.Sock`
do.  They return the table afterwards and the message that `socket_server_poll`
passes on, if there is one; `none` is a failed assertion.  What the system calls
return is passed in.  Requests that the server never writes are left out.
-/

namespace GameServer
namespace Network

open Socket (Sock Outcome Message Table)

/-- The requests on the control pipe. -/
inductive CtrlRequest where
  /-- Request S. -/
  | start (id : Int)
  /-- Request L. -/
  | listen (id : Int)
  /-- Request D. -/
  | send (id : Int) (buffer : List Byte)

/-- The bytes that `send_request` writes: two of the header and the request's
structure, which has an address or two in it. -/
def CtrlRequest.size : CtrlRequest → Nat
  | .start _ => 2 + 16
  | .listen _ => 2 + 24
  | .send _ _ => 2 + 16

/-- What has been done to the control pipe, in bytes. -/
inductive PipeOp where
  | write (n : Nat)
  | read (n : Nat)

/-- The kernel's side of the pipe: after what has been done to it, does a write
of so many bytes find room?  Requests are smaller than `PIPE_BUF`, so that a
write takes all of its bytes or blocks; nothing else is assumed here. -/
def PipeRoom := List PipeOp → Nat → Bool

/-- The control pipe: the requests in it, and what has been done to it. -/
structure CtrlPipe where
  requests : List CtrlRequest
  ops : List PipeOp

namespace CtrlPipe

/-- A pipe that nothing has been done to. -/
def empty : CtrlPipe := ⟨[], []⟩

/-- A request behind those in the pipe. -/
def write (pipe : CtrlPipe) (request : CtrlRequest) : CtrlPipe where
  requests := pipe.requests ++ [request]
  ops := pipe.ops ++ [.write request.size]

/-- The first request, and the pipe without it. -/
def read (pipe : CtrlPipe) : Option (CtrlRequest × CtrlPipe) :=
  match pipe.requests with
  | [] => none
  | request :: rest => some (request, ⟨rest, pipe.ops ++ [.read request.size]⟩)

end CtrlPipe

/-- What `socket_server_poll` returns, with the fields of `socket_message` that
are read. -/
inductive SocketMessage where
  | socketData (id : Int) (data : List Byte)
  | socketClose (id : Int)
  | socketOpen (id : Int)
  | socketAccept (id ud : Int)
  | socketError (id : Int)

/-- A message as this server reads it. -/
def SocketMessage.ofMessage (m : Message) : Option SocketMessage :=
  match m.type with
  | .data => some (.socketData m.id (match m.data with
      | .bytes data => data
      | _ => []))
  | .close => some (.socketClose m.id)
  | .opened => some (.socketOpen m.id)
  | .accept => some (.socketAccept m.id m.ud)
  | .error => some (.socketError m.id)
  | .exit | .udp => none

/-- The id that a message reports as closed. -/
def closedId : Option SocketMessage → Option Int
  | some (.socketClose id) | some (.socketError id) => some id
  | _ => none

/-- The id that a message reports as accepted. -/
def acceptedId : Option SocketMessage → Option Int
  | some (.socketAccept _ ud) => some ud
  | _ => none

/-- What the system calls return that one request or event leads to.  `fd` is the
descriptor of a connection or of the socket that is to listen, and `place` is
where the bytes are that are to be sent. -/
structure SystemAnswers where
  accept : Bool := true
  fd : Int := 0
  place : Nat := 0
  connect : Bool := true
  spAdd : Bool := true
  read : ReadAnswer := .again
  write : List WriteAnswer := []

/-- What `socket_server_poll` gets for an event. -/
def SystemAnswers.event (answers : SystemAnswers) : Socket.EventAnswers where
  error := !answers.connect
  read := answers.read
  write := answers.write

/-- `NETWORK_SOCKET_SERVER_OPAQUE`. -/
def socketServerOpaque : Nat := 1001

/-- `struct socket_server`: the slots, the last id given out, whether the
control pipe is checked next, the events not yet taken, and the pipe. -/
structure SocketServer where
  slot : Nat → Sock
  allocId : Nat
  checkctrl : Bool
  ev : List SocketEvent
  pipe : CtrlPipe

namespace SocketServer

/-- The socket in the slot of an id. -/
def socketOf (ss : SocketServer) (id : Int) : Sock :=
  ss.slot (hashId id)

/-- Write a slot. -/
def setSlot (ss : SocketServer) (i : Nat) (s : Sock) : SocketServer :=
  { ss with slot := Function.update ss.slot i s }

/-- `socket_server_create`.  The memory is not cleared. -/
def create (memory : Nat → Sock) : SocketServer where
  slot := (Table.create memory).slot
  allocId := 0
  checkctrl := true
  ev := []
  pipe := .empty

/-- The loop of `reserve_id`, with the number of rounds left.  An id that
would be negative starts over at zero. -/
def reserveIdFrom : Nat → SocketServer → SocketServer × Option Int
  | 0, ss => (ss, none)
  | rounds + 1, ss =>
    let ss := { ss with allocId := (ss.allocId + 1) % 2 ^ 31 }
    let id : Int := ss.allocId
    if (ss.socketOf id).type = .invalid then
      (ss.setSlot (hashId id) ((ss.socketOf id).reserved id), some id)
    else
      reserveIdFrom rounds ss

/-- `reserve_id`. -/
def reserveId (ss : SocketServer) : SocketServer × Option Int :=
  reserveIdFrom maxSocket ss

/-- A function on the socket in a slot is done. -/
def finish (ss : SocketServer) (i : Nat) (out : Outcome) :
    SocketServer × Option SocketMessage :=
  (ss.setSlot i out.sock, out.message.bind SocketMessage.ofMessage)

/-- `ctrl_cmd` for a request that has been read from the pipe. -/
def ctrlCmd (ss : SocketServer) (answers : SystemAnswers) :
    CtrlRequest → Option (SocketServer × Option SocketMessage)
  | .start id =>
    some (ss.finish (hashId id) (Socket.startSocket (ss.socketOf id) id
      socketServerOpaque answers.spAdd))
  | .listen id =>
    (Socket.listenSocket (ss.socketOf id) id answers.fd
      socketServerOpaque).map (ss.finish (hashId id))
  | .send id buffer =>
    (Socket.sendSocket (ss.socketOf id) id ⟨answers.place, none, buffer⟩ .high
      none (answers.write.headD .again)).map (ss.finish (hashId id))

/-- `report_accept` on the socket in a slot. -/
def reportAccept (ss : SocketServer) (i : Nat) (answers : SystemAnswers) :
    Option (SocketServer × Option SocketMessage) :=
  if answers.accept then
    match ss.reserveId with
    | (ss, none) => some (ss, none)
    | (ss, some id) =>
      (Socket.acceptSocket (ss.socketOf id) id answers.fd
        (ss.slot i).owner).map fun out =>
          (ss.setSlot (hashId id) out.sock,
            some (.socketAccept (ss.slot i).id id))
  else
    some (ss, none)

/-- `clear_closed_event`. -/
def clearClosedEvent (ss : SocketServer) (message : Option SocketMessage) :
    SocketServer :=
  match closedId message with
  | none => ss
  | some id => { ss with ev := Socket.clearEvents ss.slot id ss.ev }

/-- The part of `socket_server_poll` that takes the next event.  A connection
that is reported is returned at once. -/
def takeEvent (ss : SocketServer) (answers : SystemAnswers) :
    Option (SocketServer × Option SocketMessage) :=
  match ss.ev with
  | [] => none
  | e :: rest =>
    match e.s with
    | none => some ({ ss with ev := rest }, none)
    | some i =>
      let s := ss.slot i
      if s.type = .listen then
        { ss with ev := rest }.reportAccept i answers
      else
        (Socket.pollEvent s e.read e.write answers.event).map fun out =>
          let ss := { ss with ev := Table.eventsAfter s e rest out.message }
          let r := ss.finish i out
          (if s.type = .connecting then r.1
            else r.1.clearClosedEvent r.2, r.2)

/-- `socket_server_send`: the request it writes, if the socket is there. -/
def socketServerSend (ss : SocketServer) (id : Int) (buffer : List Byte) :
    Option CtrlRequest :=
  if (ss.socketOf id).id ≠ id ∨ (ss.socketOf id).type = .invalid then
    none
  else
    some (.send id buffer)

/-- `send_request` writes a request to the pipe, and blocks as long as there is
no room for it. -/
def sendRequest (room : PipeRoom) (ss : SocketServer) (request : CtrlRequest) :
    Option SocketServer :=
  if room ss.pipe.ops request.size then
    some { ss with pipe := ss.pipe.write request }
  else
    none

end SocketServer

end Network
end GameServer
