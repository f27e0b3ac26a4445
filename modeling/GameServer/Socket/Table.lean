import GameServer.Socket.ControlPipe
import GameServer.Socket.Life

/-!
# The table of sockets

`struct socket_server` with its slots and the events that `sp_wait` has returned
and that have not been taken yet.  `ctrlCmd` executes a request that was read
from the control pipe, and `Table.takeEvent` what `socket_server_poll` does with
the next event.  A slot is found by the id of a request, or is what an event
points to; an event may be taken again, and it is cleared when its socket is
closed.

Other threads reserve slots at any moment, so that whatever the server does with
a slot that it has just freed is a step of its own: clearing the events of a
closed socket, and freeing the slot once more when `sp_add` has failed.
`reserve_id` is two steps, the compare-and-swap of the type and the stores
behind it.  The stores of `new_fd` and `report_accept` are to slots that no other
thread touches any more.
-/

namespace GameServer
namespace Socket

open Lib Network

/-! ## New sockets -/

/-- `new_fd` on a slot.  Inside, `none` means that the descriptor could not be
added to the poll; if it is not to be added, `spAdd` is true. -/
def newFd (s : Sock) (id fd : Int) (protocol : Protocol) (owner : Nat)
    (spAdd : Bool) : Option (Option Sock) :=
  if s.type ≠ .reserve then
    none
  else if ¬ spAdd then
    some none
  else if ¬ sendBufferEmpty s then
    none
  else
    some (some { s with
      id := id
      fd := fd
      protocol := protocol
      p := .size minReadBuffer
      owner := owner
      wbSize := 0 })

/-- What comes of the addresses of a host. -/
inductive ConnectAnswer where
  /-- There is none, or none could be connected to. -/
  | failed
  | connected (fd : Int) (spAdd : Bool) (peer : Option String)
  /-- `EINPROGRESS`. -/
  | inProgress (fd : Int) (spAdd : Bool)

/-- A text or nothing. -/
def MessageData.ofText : Option String → MessageData
  | some name => .text name
  | none => .null

/-- `open_socket`. -/
def openSocket (s : Sock) (id : Int) (owner : Nat) (answer : ConnectAnswer) :
    Option Outcome :=
  let failed (calls : List SysCall) : Outcome :=
    ⟨{ s with type := .invalid }, calls, some ⟨.error, id, owner, 0, .null⟩⟩
  match answer with
  | .failed => some (failed [])
  | .connected fd spAdd peer =>
    (newFd s id fd .tcp owner spAdd).map fun
      | none => failed [.spAdd false, .close]
      | some ns =>
        ⟨{ ns with type := .connected }, [.spAdd true],
          some ⟨.opened, id, owner, 0, .ofText peer⟩⟩
  | .inProgress fd spAdd =>
    (newFd s id fd .tcp owner spAdd).map fun
      | none => failed [.spAdd false, .close]
      | some ns =>
        ⟨{ ns with type := .connecting }, [.spAdd true, .spWrite true],
          none⟩

/-- `listen_socket`. -/
def listenSocket (s : Sock) (id fd : Int) (owner : Nat) : Option Outcome :=
  (newFd s id fd .tcp owner true).map fun
    | none =>
      ⟨{ s with type := .invalid }, [.close],
        some ⟨.error, id, owner, 0, .null⟩⟩
    | some ns => ⟨{ ns with type := .plisten }, [], none⟩

/-- `bind_socket`. -/
def bindSocket (s : Sock) (id fd : Int) (owner : Nat) (spAdd : Bool) :
    Option Outcome :=
  (newFd s id fd .tcp owner spAdd).map fun
    | none =>
      ⟨{ s with type := .invalid }, [.spAdd false],
        some ⟨.error, id, owner, 0, .null⟩⟩
    | some ns =>
      ⟨{ ns with type := .bind }, [.spAdd true, .nonblocking],
        some ⟨.opened, id, owner, 0, .text "binding"⟩⟩

/-- `AF_INET6`. -/
def afInet6Number : Int32 := 10

/-- `add_udp_socket`. -/
def addUdpSocket (s : Sock) (id fd : Int) (family : Int32) (owner : Nat)
    (spAdd : Bool) : Option Outcome :=
  let protocol : Protocol := if family = afInet6Number then .udpv6 else .udp
  (newFd s id fd protocol owner spAdd).map fun
    | none => ⟨{ s with type := .invalid }, [.spAdd false, .close], none⟩
    | some ns =>
      ⟨{ ns with
          type := .connected
          p := .udpAddress (List.replicate udpAddressSize 0) },
        [.spAdd true], none⟩

/-- The stores of `reserve_id` behind its compare-and-swap. -/
def Sock.named (s : Sock) (id : Int) : Sock := { s with id := id, fd := -1 }

/-- A slot that `reserve_id` has taken for an id. -/
def Sock.reserved (s : Sock) (id : Int) : Sock :=
  { s with type := .reserve }.named id

/-- The part of `report_accept` about the slot of the new connection. -/
def acceptSocket (s : Sock) (id fd : Int) (owner : Nat) : Option Outcome :=
  (newFd s id fd .tcp owner true).map fun
    | none => ⟨s, [.close], none⟩
    | some ns => ⟨{ ns with type := .paccept }, [], none⟩

/-! ## Requests -/

/-- What memory and system calls hold for a request: the bytes of a buffer to be
sent, and their place in a user object. -/
structure CtrlAnswers where
  connect : ConnectAnswer := .failed
  spAdd : Bool := true
  write : List WriteAnswer := []
  contents : List Byte := []
  place : Nat := 0

/-- The slot of a request is that of its id. -/
def Request.id : Request → Int
  | .start id _ | .bind id _ _ | .listen id _ _ | .close id _
  | .openHost id _ _ _ | .send _ id _ _ | .sendUdp id _ _ _ | .setopt id _ _
  | .udp id _ _ _ | .setUdp id _ => id.toInt
  | .exit => 0

/-- `struct request_send` with what the buffer points to. -/
def CtrlAnswers.requestSend (answers : CtrlAnswers) (sz : Int32)
    (buffer : UInt64) : RequestSend where
  buffer := buffer.toNat
  object := if sz < 0 then some answers.place else none
  data := answers.contents

/-- The requests for a new socket. -/
def Request.isNew : Request → Bool
  | .bind .. | .listen .. | .openHost .. | .udp .. => true
  | _ => false

/-- The requests to send. -/
def Request.isSend : Request → Bool
  | .send .. | .sendUdp .. => true
  | _ => false

/-- `sp_add` fails in a call of `new_fd` that is followed by another store of
`SOCKET_TYPE_INVALID`. -/
def Request.freesTwice (answers : CtrlAnswers) : Request → Bool
  | .openHost .. =>
    match answers.connect with
    | .failed => false
    | .connected _ spAdd _ | .inProgress _ spAdd => !spAdd
  | .udp .. => !answers.spAdd
  | _ => false

/-- What a request does to the socket of its slot once that is there. -/
def Request.action (answers : CtrlAnswers) : Request → Option SockAction
  | .start id owner => some (.start id.toInt owner.toNat answers.spAdd)
  | .close id owner => some (.close id.toInt owner.toNat answers.write)
  | .send priority id sz buffer =>
    some (.send id.toInt (answers.requestSend sz buffer) priority none
      (answers.write.headD .again))
  | .sendUdp id sz buffer address =>
    some (.send id.toInt (answers.requestSend sz buffer) .high (some address)
      (answers.write.headD .again))
  | .setUdp id address => some (.setUdp id.toInt address)
  | .setopt id what value =>
    some (.setopt id.toInt what.toInt value.toInt)
  | _ => none

/-- `ctrl_cmd` on the slot of the request. -/
def ctrlCmd (s : Sock) (answers : CtrlAnswers) (r : Request) :
    Option Outcome :=
  match r with
  | .bind id fd owner =>
    bindSocket s id.toInt fd.toInt owner.toNat answers.spAdd
  | .listen id fd owner => listenSocket s id.toInt fd.toInt owner.toNat
  | .openHost id _ owner _ =>
    openSocket s id.toInt owner.toNat answers.connect
  | .udp id fd family owner =>
    addUdpSocket s id.toInt fd.toInt family owner.toNat answers.spAdd
  | .exit => some ⟨s, [], some ⟨.exit, 0, 0, 0, .null⟩⟩
  | r =>
    match r.action answers with
    | some a => s.act a
    | none => some s.quiet

/-! ## The table -/

/-- What the thread that serves the sockets does next. -/
inductive Doing where
  /-- It is at the beginning of the loop of `socket_server_poll`. -/
  | polling
  /-- `open_socket` or `add_udp_socket` frees the slot once more and returns. -/
  | freeing (i : Nat) (message : Option Message)
  /-- `clear_closed_event`. -/
  | clearing (message : Message)
deriving Repr, DecidableEq

/-- Whatever is returned goes to `clear_closed_event`. -/
def Doing.after : Option Message → Doing
  | some message => .clearing message
  | none => .polling

/-- The connection that `report_connect` reports is returned at once, and so is a
datagram. -/
def Doing.afterEvent (s : Sock) (message : Option Message) : Doing :=
  if s.type = .connecting ∨ message.map (·.type) = some .udp then .polling
  else .after message

/-- The slot that is about to be freed once more. -/
def Doing.again : Doing → Option Nat
  | .freeing i _ => some i
  | _ => none

/-- `struct socket_server`: the slots, and `ev` from `event_index` on.  `held` are
the ids of the slots that other threads have reserved and not yet asked for a
socket in, and whether the id is already stored. -/
structure Table where
  slot : Nat → Sock
  ev : List SocketEvent
  doing : Doing
  held : List (Int × Bool)

/-- What `clear_closed_event` leaves of the events when the socket of the id has
been closed.  The events are those of different slots, and only one of these can
have the id, so that it does not matter that they are looked at one after the
other. -/
def clearEvents (slot : Nat → Sock) (id : Int) (events : List SocketEvent) :
    List SocketEvent :=
  events.map fun e =>
    match e.s with
    | none => e
    | some i =>
      if (slot i).type = .invalid ∧ (slot i).id = id then { e with s := none }
      else e

namespace Table

/-- `clear_closed_event`. -/
def clearClosedEvent (t : Table) (message : Message) : Table :=
  if message.type = .close ∨ message.type = .error then
    { t with ev := clearEvents t.slot message.id t.ev }
  else
    t

/-- What a request leaves. -/
def executed (t : Table) (r : Request) (answers : CtrlAnswers)
    (out : Outcome) : Table where
  slot := Function.update t.slot (hashId r.id) out.sock
  ev := t.ev
  doing :=
    if r.freesTwice answers then .freeing (hashId r.id) out.message
    else .after out.message
  held := if r.isNew then t.held.erase (r.id, true) else t.held

/-- The part of `socket_server_poll` that executes a request.  One for a new
socket is made once, with an id that `reserve_id` has returned. -/
def request (t : Table) (r : Request) (answers : CtrlAnswers) :
    Option Table :=
  if r.isNew ∧ (r.id, true) ∉ t.held then
    none
  else
    (ctrlCmd (t.slot (hashId r.id)) answers r).map (t.executed r answers)

/-- What is left of the events: one that can be read and written is taken twice,
and one of a socket for datagrams until there is none left. -/
def eventsAfter (s : Sock) (e : SocketEvent) (rest : List SocketEvent)
    (message : Option Message) : List SocketEvent :=
  if s.type = .connecting ∨ s.type = .invalid ∨ e.read = false then
    rest
  else if message.map (·.type) = some .udp then
    e :: rest
  else if e.write then
    { e with read := false } :: rest
  else
    rest

/-- `report_accept` on the socket in a slot: `accepted` has the descriptor of the
connection and the id that is reserved for it. -/
def reportAccept (t : Table) (i : Nat)
    (accepted : Option (Int × Option Int)) : Option Table :=
  match accepted with
  | none | some (_, none) => some t
  | some (fd, some id) =>
    let s := t.slot (hashId id)
    if s.type ≠ .invalid then
      none
    else
      (acceptSocket (s.reserved id) id fd (t.slot i).owner).map fun out =>
        { t with slot := Function.update t.slot (hashId id) out.sock }

/-- The part of `socket_server_poll` that takes the next event. -/
def takeEvent (t : Table) (answers : EventAnswers)
    (accepted : Option (Int × Option Int)) : Option Table :=
  match t.ev with
  | [] => none
  | e :: rest =>
    match e.s with
    | none => some { t with ev := rest }
    | some i =>
      let s := t.slot i
      if s.type = .listen then
        { t with ev := rest }.reportAccept i accepted
      else
        (pollEvent s e.read e.write answers).map fun out =>
          { t with
            slot := Function.update t.slot i out.sock
            ev := eventsAfter s e rest out.message
            doing := .afterEvent s out.message }

/-- `sp_wait` returns events for descriptors that are in the poll, one for each,
and perhaps one for the control pipe. -/
def Reports (t : Table) (events : List SocketEvent) : Prop :=
  (events.filterMap (·.s)).Nodup ∧
    ∀ e ∈ events, ∀ i, e.s = some i → (t.slot i).type.isPolled

instance (t : Table) (events : List SocketEvent) :
    Decidable (t.Reports events) :=
  inferInstanceAs (Decidable (_ ∧ ∀ e ∈ events, ∀ i, e.s = some i → _))

end Table

/-- What happens to the table. -/
inductive TableAction where
  /-- The compare-and-swap of some thread in `reserve_id`. -/
  | reserve (id : Int)
  /-- The stores behind it. -/
  | store (id : Int)
  | request (r : Request) (answers : CtrlAnswers)
  | freeAgain
  | clear
  | wait (events : List SocketEvent)
  | event (answers : EventAnswers) (accepted : Option (Int × Option Int))

/-- One step. -/
def Table.step (t : Table) : TableAction → Option Table
  | .reserve id =>
    let s := t.slot (hashId id)
    if s.type = .invalid then
      some { t with
        slot := Function.update t.slot (hashId id) { s with type := .reserve }
        held := (id, false) :: t.held }
    else
      none
  | .store id =>
    if (id, false) ∈ t.held then
      some { t with
        slot := Function.update t.slot (hashId id)
          ((t.slot (hashId id)).named id)
        held := (id, true) :: t.held.erase (id, false) }
    else
      none
  | .request r answers =>
    if t.doing = .polling then t.request r answers else none
  | .freeAgain =>
    match t.doing with
    | .freeing i message =>
      some { t with
        slot := Function.update t.slot i { t.slot i with type := .invalid }
        doing := .after message }
    | _ => none
  | .clear =>
    match t.doing with
    | .clearing message =>
      some { t.clearClosedEvent message with doing := .polling }
    | _ => none
  | .wait events =>
    if t.doing = .polling ∧ t.ev = [] ∧ t.Reports events then
      some { t with ev := events }
    else
      none
  | .event answers accepted =>
    if t.doing = .polling then t.takeEvent answers accepted else none

/-- `socket_server_create`: the slots have what was in memory, but for the type
and the lists. -/
def Table.create (memory : Nat → Sock) : Table where
  slot := fun i => { memory i with type := .invalid, high := [], low := [] }
  ev := []
  doing := .polling
  held := []

end Socket
end GameServer
