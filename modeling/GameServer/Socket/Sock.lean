import GameServer.Lib.Outbox
import GameServer.Network.SocketTypes
import GameServer.Socket.UdpAddress

/-!
# A socket of the socket server

`struct socket` of `socket_server.c` and the functions that work on one socket:
those behind the requests on the control pipe and behind the events that
`socket_server_poll` reports, for TCP and for UDP.

A socket has two lists of write buffers, one for each priority.  Every function
returns the socket afterwards, the calls it makes for the descriptor of the
socket and to free the buffers it was given, and the message that is passed on,
if there is one.  What the system calls return is passed in.  `none` is a failed
assertion or an access to the wrong member of a union.
-/

namespace GameServer
namespace Socket

open Lib Network

/-- `struct write_buffer` without its pointer to the next one.  `data` are the
`sz` bytes at `ptr`. -/
structure WriteBuffer where
  buffer : Nat
  ptr : Nat
  data : List Byte
  userobject : Bool
  udpAddress : List Byte
deriving Repr, DecidableEq

/-- `struct request_send` with what `buffer` points to.  If `sz` is negative,
that is a user object, and `object` is the place of its bytes. -/
structure RequestSend where
  buffer : Nat
  object : Option Nat
  data : List Byte
deriving Repr, DecidableEq

/-- `struct send_object`; `userobject` tells the two functions to free it
apart. -/
structure SendObject where
  buffer : Nat
  data : List Byte
  userobject : Bool

/-- `send_object_init`. -/
def sendObjectInit (request : RequestSend) : SendObject :=
  match request.object with
  | some place => ⟨place, request.data, true⟩
  | none => ⟨request.buffer, request.data, false⟩

/-- `union p` of a socket: the size of the next read, or the address that
datagrams go to. -/
inductive SocketP where
  | size (n : Nat)
  | udpAddress (address : List Byte)
deriving Repr, DecidableEq

/-- `struct socket`; `owner` is its `opaque` member. -/
structure Sock where
  owner : Nat
  high : List WriteBuffer
  low : List WriteBuffer
  wbSize : Int
  fd : Int
  id : Int
  protocol : Protocol
  type : SocketType
  p : SocketP
deriving Repr, DecidableEq

/-- What is done for a socket outside of it: the calls on its descriptor, and
the buffers that are freed, by `soi.free` if they are user objects. -/
inductive SysCall where
  /-- A `write`, with the bytes that were taken. -/
  | write (bytes : List Byte)
  /-- A `sendto` that sent the datagram. -/
  | sendto (address data : List Byte)
  /-- A `write` or a `sendto` that failed. -/
  | sendFailed
  | read (sz : Nat)
  | recvfrom
  | accept
  | getsockopt
  | getpeername
  | setsockopt (what value : Int)
  /-- `sp_nonblocking`. -/
  | nonblocking
  | free (buffer : Nat) (userobject : Bool)
  /-- `sp_add`, and whether it succeeded. -/
  | spAdd (added : Bool)
  | spWrite (enable : Bool)
  | spDel
  | close
deriving Repr, DecidableEq

/-- The types of message: `SOCKET_DATA` and so on. -/
inductive MessageType where
  | data
  | close
  | opened
  | accept
  | error
  | exit
  | udp
deriving Repr, DecidableEq

/-- What the data of a message points to. -/
inductive MessageData where
  | null
  | text (s : String)
  | bytes (data : List Byte)
deriving Repr, DecidableEq

/-- `struct socket_message` with the type that is returned. -/
structure Message where
  type : MessageType
  id : Int
  owner : Nat
  ud : Int
  data : MessageData
deriving Repr, DecidableEq

/-- What a function leaves behind. -/
structure Outcome where
  sock : Sock
  calls : List SysCall
  message : Option Message
deriving Repr, DecidableEq

/-- Nothing but the socket changes. -/
def Sock.quiet (s : Sock) : Outcome := ⟨s, [], none⟩

/-! ## Closing -/

/-- `write_buffer_free`. -/
def writeBufferFree (wb : WriteBuffer) : SysCall := .free wb.buffer wb.userobject

/-- `free_wb_list`. -/
def freeWbList (list : List WriteBuffer) : List SysCall :=
  list.map writeBufferFree

/-- What `force_close` does to the descriptor of a socket of the type. -/
def closeCalls (type : SocketType) : List SysCall :=
  (if type ≠ .paccept ∧ type ≠ .plisten then [.spDel] else []) ++
    if type ≠ .bind then [.close] else []

/-- `force_close`. -/
def forceClose (s : Sock) : Option (Sock × List SysCall) :=
  match s.type with
  | .invalid => some (s, [])
  | .reserve => none
  | type =>
    some ({ s with type := .invalid, high := [], low := [] },
      freeWbList s.high ++ freeWbList s.low ++ closeCalls type)

/-- `force_close` after some calls, with a message of the type. -/
def closeWith (s : Sock) (calls : List SysCall) (type : MessageType) :
    Option Outcome :=
  (forceClose s).map fun closed =>
    ⟨closed.1, calls ++ closed.2, some ⟨type, s.id, s.owner, 0, .null⟩⟩

/-! ## Sending -/

deriving instance Repr, DecidableEq for WriteAnswer

/-- What sending a list of write buffers leaves: the list, `wb_size`, the calls
made, the answers for later calls, and whether the socket is to be closed. -/
structure SendResult where
  list : List WriteBuffer
  wbSize : Int
  calls : List SysCall
  answers : List WriteAnswer
  failed : Bool

/-- `send_list_tcp`.  A call that is interrupted is repeated at once. -/
def sendListTcp : List WriteBuffer → Int → List WriteAnswer → SendResult
  | [], wbSize, answers => ⟨[], wbSize, [], answers, false⟩
  | list, wbSize, [] => ⟨list, wbSize, [.sendFailed], [], false⟩
  | list, wbSize, .again :: answers =>
    ⟨list, wbSize, [.sendFailed], answers, false⟩
  | list, wbSize, .failed :: answers =>
    ⟨list, wbSize, [.sendFailed], answers, true⟩
  | tmp :: rest, wbSize, .wrote n :: answers =>
    let sz := min n tmp.data.length
    if sz ≠ tmp.data.length then
      ⟨{ tmp with ptr := tmp.ptr + sz, data := tmp.data.drop sz } :: rest,
        wbSize - sz, [.write (tmp.data.take sz)], answers, false⟩
    else
      let result := sendListTcp rest (wbSize - sz) answers
      { result with
        calls := .write tmp.data :: writeBufferFree tmp :: result.calls }

/-- `send_list_udp`.  After an error the datagram stays where it is. -/
def sendListUdp (protocol : Protocol) :
    List WriteBuffer → Int → List WriteAnswer → SendResult
  | [], wbSize, answers => ⟨[], wbSize, [], answers, false⟩
  | tmp :: rest, wbSize, .wrote _ :: answers =>
    let result := sendListUdp protocol rest (wbSize - tmp.data.length) answers
    { result with
      calls := .sendto (udpSocketAddress protocol tmp.udpAddress) tmp.data ::
        writeBufferFree tmp :: result.calls }
  | list, wbSize, answers =>
    ⟨list, wbSize, [.sendFailed], answers.tail, false⟩

/-- `send_list`. -/
def sendList (protocol : Protocol) (list : List WriteBuffer) (wbSize : Int)
    (answers : List WriteAnswer) : SendResult :=
  match protocol with
  | .tcp => sendListTcp list wbSize answers
  | _ => sendListUdp protocol list wbSize answers

/-- `list_uncomplete`. -/
def listUncomplete : List WriteBuffer → Bool
  | [] => false
  | wb :: _ => wb.ptr ≠ wb.buffer

/-- `raise_uncomplete`. -/
def raiseUncomplete (s : Sock) : Option Sock :=
  match s.low, s.high with
  | tmp :: rest, [] => some { s with low := rest, high := [tmp] }
  | _, _ => none

/-- `send_buffer`. -/
def sendBuffer (s : Sock) (answers : List WriteAnswer) : Option Outcome :=
  if listUncomplete s.low then
    none
  else
    -- step 1
    let first := sendList s.protocol s.high s.wbSize answers
    let s := { s with high := first.list, wbSize := first.wbSize }
    if first.failed then
      closeWith s first.calls .close
    else if s.high = [] then
      if s.low ≠ [] then
        -- step 2
        let second := sendList s.protocol s.low s.wbSize first.answers
        let calls := first.calls ++ second.calls
        let s := { s with low := second.list, wbSize := second.wbSize }
        if second.failed then
          closeWith s calls .close
        else if listUncomplete s.low then
          -- step 3
          (raiseUncomplete s).map fun s => ⟨s, calls, none⟩
        else
          some ⟨s, calls, none⟩
      else
        -- step 4
        let calls := first.calls ++ [.spWrite false]
        if s.type = .halfclose then
          closeWith s calls .close
        else
          some ⟨s, calls, none⟩
    else
      some ⟨s, first.calls, none⟩

/-- The write buffer that `append_sendbuffer_` makes of a request of which `n`
bytes have been written. -/
def writeBufferOf (request : RequestSend) (n : Nat) (udpAddress : List Byte) :
    WriteBuffer :=
  let so := sendObjectInit request
  { buffer := request.buffer
    ptr := so.buffer + n
    data := so.data.drop n
    userobject := so.userobject
    udpAddress := udpAddress }

/-- `append_sendbuffer_` on the list of a priority, with the update of
`wb_size` that follows it. -/
def appendTo (s : Sock) (priority : Priority) (wb : WriteBuffer) : Sock :=
  match priority with
  | .high =>
    { s with high := s.high ++ [wb], wbSize := s.wbSize + wb.data.length }
  | .low =>
    { s with low := s.low ++ [wb], wbSize := s.wbSize + wb.data.length }

/-- `append_sendbuffer`. -/
def appendSendbuffer (s : Sock) (request : RequestSend) (n : Nat) : Sock :=
  appendTo s .high (writeBufferOf request n [])

/-- `append_sendbuffer_low`. -/
def appendSendbufferLow (s : Sock) (request : RequestSend) : Sock :=
  appendTo s .low (writeBufferOf request 0 [])

/-- `append_sendbuffer_udp`. -/
def appendSendbufferUdp (s : Sock) (priority : Priority)
    (request : RequestSend) (udpAddress : List Byte) : Sock :=
  appendTo s priority (writeBufferOf request 0 udpAddress)

/-- `send_buffer_empty`. -/
def sendBufferEmpty (s : Sock) : Prop := s.high = [] ∧ s.low = []

instance (s : Sock) : Decidable (sendBufferEmpty s) :=
  inferInstanceAs (Decidable (_ ∧ _))

/-- `so.free_func(request->buffer)`. -/
def freeRequest (request : RequestSend) : SysCall :=
  .free request.buffer (sendObjectInit request).userobject

/-- A request to send is dropped: nobody is there, or not yet, or no longer. -/
def Sock.drops (s : Sock) (id : Int) : Prop :=
  s.type = .invalid ∨ s.id ≠ id ∨ s.type = .halfclose ∨ s.type = .paccept

instance (s : Sock) (id : Int) : Decidable (s.drops id) :=
  inferInstanceAs (Decidable (_ ∨ _))

/-- The address of a datagram: the one of the request, or the one of the
socket. -/
def Sock.addressFor (s : Sock) : Option (List Byte) → Option (List Byte)
  | some udpAddress => some udpAddress
  | none =>
    match s.p with
    | .udpAddress address => some address
    | .size _ => none

/-- The branch of `send_socket` for a connected socket with nothing left to
send. -/
def sendDirect (s : Sock) (request : RequestSend) (priority : Priority)
    (udpAddress : Option (List Byte)) (answer : WriteAnswer) :
    Option Outcome :=
  let data := (sendObjectInit request).data
  match s.protocol with
  | .tcp =>
    if answer = .failed then
      closeWith s [.sendFailed] .close
    else
      let n := min answer.count data.length
      if n = data.length then
        some ⟨s, [.write (data.take n), freeRequest request], none⟩
      else
        -- to the list of high priority, whatever the priority is
        some ⟨appendSendbuffer s request n,
          [.write (data.take n), .spWrite true], none⟩
  | _ =>
    (s.addressFor udpAddress).map fun address =>
      if answer = .wrote data.length then
        ⟨s, [.sendto (udpSocketAddress s.protocol address) data,
          freeRequest request], none⟩
      else
        ⟨appendSendbufferUdp s priority request address,
          [.sendFailed, .spWrite true], none⟩

/-- The other branch. -/
def sendBehind (s : Sock) (request : RequestSend) (priority : Priority)
    (udpAddress : Option (List Byte)) : Option Sock :=
  match s.protocol with
  | .tcp =>
    some (match priority with
      | .low => appendSendbufferLow s request
      | .high => appendSendbuffer s request 0)
  | _ => (s.addressFor udpAddress).map (appendSendbufferUdp s priority request)

/-- `send_socket`; the answer is the one to `write` or `sendto`. -/
def sendSocket (s : Sock) (id : Int) (request : RequestSend)
    (priority : Priority) (udpAddress : Option (List Byte))
    (answer : WriteAnswer) : Option Outcome :=
  if s.drops id then
    some ⟨s, [freeRequest request], none⟩
  else if s.type = .plisten ∨ s.type = .listen then
    none
  else if sendBufferEmpty s ∧ s.type = .connected then
    sendDirect s request priority udpAddress answer
  else
    (sendBehind s request priority udpAddress).map Sock.quiet

/-- The part of `close_socket` behind the call of `send_buffer`. -/
def closeSent (id : Int) (owner : Nat) (sent : Outcome) : Option Outcome :=
  if sent.message ≠ none then
    some sent
  else if sendBufferEmpty sent.sock then
    (forceClose sent.sock).map fun closed =>
      ⟨closed.1, sent.calls ++ closed.2,
        some ⟨.close, id, owner, 0, .null⟩⟩
  else
    some { sent with sock := { sent.sock with type := .halfclose } }

/-- `close_socket`; `owner` is the one of the request. -/
def closeSocket (s : Sock) (id : Int) (owner : Nat)
    (answers : List WriteAnswer) : Option Outcome :=
  if s.type = .invalid ∨ s.id ≠ id then
    some ⟨s, [], some ⟨.close, id, owner, 0, .null⟩⟩
  else if sendBufferEmpty s then
    closeSent id owner s.quiet
  else
    (sendBuffer s answers).bind (closeSent id owner)

/-! ## The other requests and the events -/

/-- `start_socket`. -/
def startSocket (s : Sock) (id : Int) (owner : Nat) (spAdd : Bool) : Outcome :=
  let error : Message := ⟨.error, id, owner, 0, .null⟩
  if s.type = .invalid ∨ s.id ≠ id then
    ⟨s, [], some error⟩
  else if s.type = .paccept ∨ s.type = .plisten then
    if spAdd then
      ⟨{ s with
          type := if s.type = .paccept then .connected else .listen
          owner := owner },
        [.spAdd true], some ⟨.opened, id, owner, 0, .text "start"⟩⟩
    else
      ⟨{ s with type := .invalid }, [.spAdd false], some error⟩
  else if s.type = .connected then
    ⟨{ s with owner := owner }, [],
      some ⟨.opened, id, owner, 0, .text "transfer"⟩⟩
  else
    s.quiet

/-- `setopt_socket`. -/
def setoptSocket (s : Sock) (id what value : Int) : Outcome :=
  if s.type = .invalid ∨ s.id ≠ id then s.quiet
  else ⟨s, [.setsockopt what value], none⟩

/-- `set_udp_address`. -/
def setUdpAddress (s : Sock) (id : Int) (address : List Byte) :
    Option Outcome :=
  if s.type = .invalid ∨ s.id ≠ id then
    some s.quiet
  else if address.headD 0 ≠ s.protocol.number then
    some ⟨s, [], some ⟨.error, s.id, s.owner, 0, .null⟩⟩
  else
    match s.p with
    | .udpAddress old =>
      some { s with p := .udpAddress (storeUdpAddress old address) }.quiet
    | .size _ => none

/-- What `recvfrom` returns. -/
inductive RecvAnswer where
  /-- A datagram, with the address it came from and the length of that. -/
  | received (datagram : List Byte) (sa : SockaddrAll) (slen : Nat)
  /-- `EINTR` or `EAGAIN`. -/
  | again
  /-- Another error. -/
  | failed

/-- `forward_message_tcp`.  A read never returns more than it was asked for. -/
def forwardMessageTcp (s : Sock) (answer : ReadAnswer) : Option Outcome :=
  match s.p, answer with
  | .udpAddress _, _ => none
  | .size sz, .again => some ⟨s, [.read sz], none⟩
  | .size sz, .failed => closeWith s [.read sz] .error
  | .size sz, .read bytes =>
    if sz < bytes.length then
      none
    else if bytes = [] then
      closeWith s [.read sz] .close
    else if s.type = .halfclose then
      some ⟨s, [.read sz], none⟩
    else
      some ⟨{ s with p := .size (nextReadSize sz bytes.length) },
        [.read sz],
        some ⟨.data, s.id, s.owner, bytes.length, .bytes bytes⟩⟩

/-- `forward_message_udp`. -/
def forwardMessageUdp (s : Sock) : RecvAnswer → Option Outcome
  | .again => some ⟨s, [.recvfrom], none⟩
  | .failed => closeWith s [.recvfrom] .error
  | .received datagram sa slen =>
    some ⟨s, [.recvfrom],
      (forwardDatagram s.protocol datagram sa slen).map fun data =>
        ⟨.udp, s.id, s.owner, datagram.length, .bytes data⟩⟩

/-- `report_connect`; `peer` is the address of the peer as a text. -/
def reportConnect (s : Sock) (error : Bool) (peer : Option String) :
    Option Outcome :=
  if error then
    closeWith s [.getsockopt] .error
  else
    let data := match peer with
      | some text => .text text
      | none => .null
    some ⟨{ s with type := .connected },
      .getsockopt ::
        ((if sendBufferEmpty s then [.spWrite false] else []) ++
          [.getpeername]),
      some ⟨.opened, s.id, s.owner, 0, data⟩⟩

/-- What the system calls return that an event on a socket leads to. -/
structure EventAnswers where
  error : Bool := false
  peer : Option String := none
  read : ReadAnswer := .again
  recv : RecvAnswer := .again
  write : List WriteAnswer := []

/-- What `socket_server_poll` does with an event on a socket.  The connection
that a listening socket accepts gets a slot of its own. -/
def pollEvent (s : Sock) (read write : Bool) (answers : EventAnswers) :
    Option Outcome :=
  match s.type with
  | .connecting => reportConnect s answers.error answers.peer
  | .listen => some ⟨s, [.accept], none⟩
  | .invalid => some s.quiet
  | _ =>
    if read then
      match s.protocol with
      | .tcp => forwardMessageTcp s answers.read
      | _ => forwardMessageUdp s answers.recv
    else if write then
      sendBuffer s answers.write
    else
      some s.quiet

end Socket
end GameServer
