import GameServer.Socket.Sending

/-!
# The life of a socket

A socket lives in its slot from the call of `new_fd` until it is closed.  In
between it gets the requests with an id that belongs to the slot and the events
on its descriptor.  `Life.step` performs one of them and keeps the history: the
calls made for the socket, the packages that were accepted for sending, the
buffers that were handed over, and those that nobody will free any more.

`acts_of_act` says everything one request or event can do.
-/

namespace GameServer
namespace Socket

open Lib Network

/-- What can happen to the socket in a slot. -/
inductive SockAction where
  /-- Request S. -/
  | start (id : Int) (owner : Nat) (spAdd : Bool)
  /-- Requests D, P and A. -/
  | send (id : Int) (request : RequestSend) (priority : Priority)
      (udpAddress : Option (List Byte)) (answer : WriteAnswer)
  /-- Request K. -/
  | close (id : Int) (owner : Nat) (answers : List WriteAnswer)
  /-- Request C. -/
  | setUdp (id : Int) (address : List Byte)
  /-- Request T. -/
  | setopt (id what value : Int)
  /-- An event that is taken from those of `sp_wait`. -/
  | event (read write : Bool) (answers : EventAnswers)

/-- Perform an action. -/
def Sock.act (s : Sock) : SockAction → Option Outcome
  | .start id owner spAdd => some (startSocket s id owner spAdd)
  | .send id request priority udpAddress answer =>
    sendSocket s id request priority udpAddress answer
  | .close id owner answers => closeSocket s id owner answers
  | .setUdp id address => setUdpAddress s id address
  | .setopt id what value => some (setoptSocket s id what value)
  | .event read write answers => pollEvent s read write answers

/-- The package that an action makes a socket accept. -/
def Sock.accepted (s : Sock) : SockAction → List (Priority × List Sent)
  | .send id request priority udpAddress _ =>
    if s.drops id then [] else [(priority, s.package udpAddress request)]
  | _ => []

theorem Sock.accepted_send {s : Sock} {id : Int} {request : RequestSend}
    {priority : Priority} {udpAddress : Option (List Byte)}
    {answer : WriteAnswer} (h : ¬ s.drops id) :
    s.accepted (.send id request priority udpAddress answer) =
      [(priority, s.package udpAddress request)] :=
  if_neg h

/-- The buffer handed over by an action. -/
def SockAction.given : SockAction → List RequestSend
  | .send _ request _ _ _ => [request]
  | _ => []

/-- The buffer that an action loses: when the first write of a package fails,
`send_socket` closes the socket and returns without freeing the buffer. -/
def Sock.leaked (s : Sock) : SockAction → List RequestSend
  | .send id request _ _ answer =>
    if ¬ s.drops id ∧ sendBufferEmpty s ∧ s.type = .connected ∧
      s.protocol = .tcp ∧ answer = .failed then [request] else []
  | _ => []

/-- A socket and its history. -/
structure Life where
  sock : Sock
  calls : List SysCall
  accepted : List (Priority × List Sent)
  given : List RequestSend
  leaked : List RequestSend

namespace Life

/-- One request or event. -/
def step (l : Life) (a : SockAction) : Option Life :=
  (l.sock.act a).map fun out =>
    { sock := out.sock
      calls := l.calls ++ out.calls
      accepted := l.accepted ++ l.sock.accepted a
      given := l.given ++ a.given
      leaked := l.leaked ++ l.sock.leaked a }

/-- What has left by the socket. -/
def wire (l : Life) : List Sent := l.calls.flatMap SysCall.sent

end Life

/-- How a life begins. -/
inductive Birth where
  /-- `open_socket` with a connection at once. -/
  | connected
  /-- `open_socket` otherwise. -/
  | connecting
  /-- `report_accept`. -/
  | accepted
  /-- `listen_socket`. -/
  | listening
  /-- `bind_socket`. -/
  | bound
  /-- `add_udp_socket`. -/
  | udp
  /-- `add_udp_socket` for `AF_INET6`. -/
  | udpv6
deriving Repr, DecidableEq

namespace Birth

def type : Birth → SocketType
  | connected | udp | udpv6 => .connected
  | connecting => .connecting
  | accepted => .paccept
  | listening => .plisten
  | bound => .bind

def protocol : Birth → Protocol
  | udp => .udp
  | udpv6 => .udpv6
  | _ => .tcp

/-- `new_fd` sets the size, and `add_udp_socket` clears the address. -/
def p : Birth → SocketP
  | udp | udpv6 => .udpAddress (List.replicate udpAddressSize 0)
  | _ => .size minReadBuffer

/-- The calls made on the descriptor. -/
def calls : Birth → List SysCall
  | connected | udp | udpv6 => [.spAdd true]
  | bound => [.spAdd true, .nonblocking]
  | connecting => [.spAdd true, .spWrite true]
  | accepted | listening => []

/-- The socket that `new_fd` makes of a slot, with the type it then gets. -/
def sock (b : Birth) (id fd : Int) (owner : Nat) : Sock where
  owner := owner
  high := []
  low := []
  wbSize := 0
  fd := fd
  id := id
  protocol := b.protocol
  type := b.type
  p := b.p

/-- The life that begins. -/
def life (b : Birth) (id fd : Int) (owner : Nat) : Life where
  sock := b.sock id fd owner
  calls := b.calls
  accepted := []
  given := []
  leaked := []

end Birth

/-! ## Everything that can happen -/

/-- Which member of the union is used. -/
def SocketP.isAddress : SocketP → Bool
  | .size _ => false
  | .udpAddress _ => true

/-- A call that reads from the descriptor or asks something about it. -/
def SysCall.IsRead : SysCall → Prop
  | .read _ | .recvfrom | .accept | .getsockopt | .getpeername => True
  | _ => False

/-- What the requests S, C and T and events without sending can do. -/
inductive ActsOther (s : Sock) : SockAction → Outcome → Prop
  | same {a : SockAction} (owner : Nat) {p : SocketP}
      (message : Option Message) (hp : p.isAddress = s.p.isAddress) :
      ActsOther s a ⟨{ s with owner := owner, p := p }, [], message⟩
  | started {a : SockAction} (owner : Nat) (message : Option Message)
      {type : SocketType}
      (htype : s.type = .paccept ∧ type = .connected ∨
        s.type = .plisten ∧ type = .listen) :
      ActsOther s a
        ⟨{ s with type := type, owner := owner }, [.spAdd true], message⟩
  | refused {a : SockAction} (message : Option Message)
      (htype : s.type = .paccept ∨ s.type = .plisten) :
      ActsOther s a ⟨{ s with type := .invalid }, [.spAdd false], message⟩
  | setopt {a : SockAction} (what value : Int) (htype : s.type ≠ .invalid) :
      ActsOther s a ⟨s, [.setsockopt what value], none⟩
  | read {read write : Bool} {answers : EventAnswers} {p : SocketP}
      (call : SysCall) (hcall : call.IsRead) (message : Option Message)
      (hp : p.isAddress = s.p.isAddress) :
      ActsOther s (.event read write answers)
        ⟨{ s with p := p }, [call], message⟩
  | connected {read write : Bool} {answers : EventAnswers}
      (message : Option Message) (htype : s.type = .connecting) :
      ActsOther s (.event read write answers) ⟨{ s with type := .connected },
        .getsockopt ::
          ((if sendBufferEmpty s then [.spWrite false] else []) ++
            [.getpeername]), message⟩
  | closed {read write : Bool} {answers : EventAnswers} {out : Outcome}
      {type : MessageType} (htype : s.type ≠ .invalid) (call : SysCall)
      (hcall : call.IsRead) (hkind : type = .close ∨ type = .error)
      (hout : closeWith s [call] type = some out) :
      ActsOther s (.event read write answers) out

theorem ActsOther.quiet (s : Sock) (a : SockAction) : ActsOther s a s.quiet :=
  .same s.owner none rfl

theorem actsOther_startSocket (s : Sock) (a : SockAction) (id : Int) (owner : Nat) (spAdd : Bool) :
    ActsOther s a (startSocket s id owner spAdd) := by
  unfold startSocket
  split_ifs with habsent hwaits hadd haccepted hconnected
  · exact .same s.owner _ rfl
  · exact .started owner _ (.inl ⟨haccepted, rfl⟩)
  · exact .started owner _ (.inr ⟨hwaits.resolve_left haccepted, rfl⟩)
  · exact .refused _ hwaits
  · exact .same owner _ rfl
  · exact .quiet s a

theorem actsOther_setoptSocket (s : Sock) (a : SockAction)
    (id what value : Int) : ActsOther s a (setoptSocket s id what value) := by
  unfold setoptSocket
  split_ifs with habsent
  · exact .quiet s a
  · exact .setopt what value fun htype => habsent (.inl htype)

theorem actsOther_of_setUdpAddress {s : Sock} {a : SockAction} {id : Int}
    {address : List Byte} {out : Outcome}
    (h : setUdpAddress s id address = some out) : ActsOther s a out := by
  rw [setUdpAddress] at h
  split_ifs at h with habsent hprotocol
  · cases h
    exact .quiet s a
  · cases h
    exact .same s.owner _ rfl
  · split at h
    · next _ _ hp =>
      cases h
      exact .same s.owner none (by rw [hp]; rfl)
    · cases h

section Events

variable {s : Sock} {read write : Bool} {answers : EventAnswers} {out : Outcome}

theorem actsOther_of_forwardMessageTcp {answer : ReadAnswer}
    (htype : s.type ≠ .invalid) (h : forwardMessageTcp s answer = some out) :
    ActsOther s (.event read write answers) out := by
  unfold forwardMessageTcp at h
  split at h
  · cases h
  · cases h
    exact .read (.read _) trivial none rfl
  · exact .closed htype (.read _) trivial (.inr rfl) h
  · next hp =>
    split_ifs at h
    · exact .closed htype (.read _) trivial (.inl rfl) h
    · cases h
      exact .read (.read _) trivial none rfl
    · cases h
      exact .read (.read _) trivial _ (by rw [hp]; rfl)

theorem actsOther_of_forwardMessageUdp {answer : RecvAnswer}
    (htype : s.type ≠ .invalid) (h : forwardMessageUdp s answer = some out) :
    ActsOther s (.event read write answers) out := by
  cases answer with
  | again =>
    cases h
    exact .read .recvfrom trivial none rfl
  | failed => exact .closed htype .recvfrom trivial (.inr rfl) h
  | received datagram sa slen =>
    cases h
    exact .read .recvfrom trivial _ rfl

theorem actsOther_of_reportConnect {error : Bool} {peer : Option String}
    (htype : s.type = .connecting)
    (h : reportConnect s error peer = some out) :
    ActsOther s (.event read write answers) out := by
  cases error with
  | true => exact .closed (by simp [htype]) .getsockopt trivial (.inr rfl) h
  | false =>
    cases h
    exact .connected _ htype

end Events

/-- Everything an action can do. -/
inductive Acts (s : Sock) : SockAction → Outcome → Prop
  | send {id : Int} {request : RequestSend} {priority : Priority}
      {udpAddress : Option (List Byte)} {answer : WriteAnswer} {out : Outcome}
      (h : SendsSocket s id request priority udpAddress answer out) :
      Acts s (.send id request priority udpAddress answer) out
  | close {id : Int} {owner : Nat} {answers : List WriteAnswer}
      {out : Outcome} (h : ClosesSocket s id owner answers out) :
      Acts s (.close id owner answers) out
  | flush {read write : Bool} {answers : EventAnswers} {out : Outcome}
      (htype : s.type ≠ .invalid ∧ s.type ≠ .connecting)
      (hread : read = false) (h : SendsBuffer s answers.write out) :
      Acts s (.event read write answers) out
  | other {a : SockAction} {out : Outcome}
      (hsend : s.accepted a = [] ∧ a.given = [] ∧ s.leaked a = [])
      (h : ActsOther s a out) : Acts s a out

theorem acts_of_pollEvent {s : Sock} {read write : Bool}
    {answers : EventAnswers} {out : Outcome}
    (h : pollEvent s read write answers = some out) :
    Acts s (.event read write answers) out := by
  have hother : ActsOther s (.event read write answers) out →
      Acts s (.event read write answers) out :=
    .other ⟨rfl, rfl, rfl⟩
  rw [pollEvent.eq_def] at h
  split at h
  · next htype => exact hother (actsOther_of_reportConnect htype h)
  · cases h
    exact hother (.read .accept trivial none rfl)
  · cases h
    exact hother (.quiet s _)
  · next hconnecting hlisten hinvalid =>
    split_ifs at h with hread
    · split at h
      · exact hother (actsOther_of_forwardMessageTcp hinvalid h)
      · exact hother (actsOther_of_forwardMessageUdp hinvalid h)
    · exact .flush ⟨hinvalid, hconnecting⟩ (by simpa using hread) (sendsBuffer_of_sendBuffer h)
    · cases h
      exact hother (.quiet s _)

theorem acts_of_act {s : Sock} {a : SockAction} {out : Outcome}
    (h : s.act a = some out) : Acts s a out := by
  cases a with
  | start id owner spAdd =>
    cases h
    exact .other ⟨rfl, rfl, rfl⟩ (actsOther_startSocket s _ id owner spAdd)
  | send id request priority udpAddress answer =>
    exact .send (sendsSocket_of_sendSocket h)
  | close id owner answers => exact .close (closesSocket_of_closeSocket h)
  | setUdp id address =>
    exact .other ⟨rfl, rfl, rfl⟩ (actsOther_of_setUdpAddress h)
  | setopt id what value =>
    cases h
    exact .other ⟨rfl, rfl, rfl⟩ (actsOther_setoptSocket s _ id what value)
  | event read write answers => exact acts_of_pollEvent h

end Socket
end GameServer
