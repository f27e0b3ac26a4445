import GameServer.Socket.Descriptor
import GameServer.Socket.Table

/-!
# The slots of the table

A slot is free, reserved, or has a socket that lives the life of `Life.step`, so
that what is known about lives holds for each socket of a running server.  This
module has what one request or event does to a slot: a request for a new socket
begins a life, a request for a socket that is there and an event go on with it,
and a slot that is only reserved stays reserved.
-/

namespace GameServer
namespace Socket

open Lib Network

/-! ## Slots -/

/-- The socket of a life in which events came only while it was polled. -/
def Lived (s : Sock) : Prop :=
  ∃ (b : Birth) (id fd : Int) (owner : Nat) (actions : List SockAction)
    (l : Life),
    RunMeets Life.step Life.Reported (b.life id fd owner) actions ∧
      runSteps Life.step (b.life id fd owner) actions = some l ∧ l.sock = s

theorem lived_birth (b : Birth) (id fd : Int) (owner : Nat) : Lived (b.sock id fd owner) :=
  ⟨b, id, fd, owner, [], b.life id fd owner, trivial, rfl, rfl⟩

/-- A life goes on. -/
theorem Lived.act {s : Sock} {a : SockAction} {out : Outcome} (h : Lived s)
    (hreported : ∀ read write answers, a = .event read write answers →
      s.type.isPolled) (hact : s.act a = some out) : Lived out.sock := by
  obtain ⟨b, id, fd, owner, actions, l, hmeets, hrun, rfl⟩ := h
  obtain ⟨l', hstep, hsock⟩ : ∃ l', l.step a = some l' ∧ l'.sock = out.sock :=
    ⟨_, congrArg (Option.map _) hact, rfl⟩
  have hlast : l.Reported a := by
    cases a with
    | event read write answers => exact hreported read write answers rfl
    | start | send | close | setUdp | setopt => trivial
  refine ⟨b, id, fd, owner, actions ++ [a], l', ?_, ?_, hsock⟩
  · refine runMeets_append.mpr ⟨hmeets, fun l'' hl'' => ?_⟩
    obtain rfl := Option.some.inj (hrun.symm.trans hl'')
    exact ⟨hlast, fun _ _ => trivial⟩
  · rw [runSteps_append, hrun, Option.bind_some, runSteps_cons, hstep]
    rfl

variable {s : Sock} {out : Outcome} {r : Request} {answers : CtrlAnswers}
  {a : SockAction}

theorem Lived.watched (h : Lived s) : ∃ b on, Watched b s on := by
  obtain ⟨b, id, fd, owner, actions, l, -, hrun, rfl⟩ := h
  exact ⟨b, _, Life.watched_of_run hrun⟩

/-- A slot is free or reserved, with nothing queued, or has a socket. -/
def SlotOk (s : Sock) : Prop :=
  (s.type = .invalid ∨ s.type = .reserve) ∧ s.pending = [] ∨ Lived s

theorem SlotOk.pending_eq (h : SlotOk s)
    (htype : s.type = .invalid ∨ s.type = .reserve) : s.pending = [] := by
  rcases h with ⟨-, hpending⟩ | hlived
  · exact hpending
  · obtain ⟨b, on, hwatched⟩ := hlived.watched
    exact hwatched.idle (.inl (htype.resolve_right hwatched.reserve))

theorem SlotOk.lived (h : SlotOk s) (hpolled : s.type.isPolled) : Lived s := by
  refine h.resolve_left ?_
  rintro ⟨htype | htype, -⟩
  · simp [htype, SocketType.isPolled] at hpolled
  · simp [htype, SocketType.isPolled] at hpolled

/-! ## New sockets -/

/-- `new_fd` fails with `sp_add`, or makes the slot ready for a new life. -/
theorem newFd_cases {result : Option Sock} {id fd : Int} {protocol : Protocol}
    {owner : Nat} {spAdd : Bool}
    (h : newFd s id fd protocol owner spAdd = some result) :
    s.type = .reserve ∧ (spAdd = false ∧ result = none ∨
      spAdd = true ∧ result = some ⟨owner, [], [], 0, fd, id, protocol, .reserve,
        .size minReadBuffer⟩) := by
  rw [newFd] at h
  split_ifs at h with htype hadd hempty
  · rw [not_not] at htype
    obtain ⟨hhigh, hlow⟩ := hempty
    cases h
    exact ⟨htype, .inr ⟨hadd, by rw [hhigh, hlow, htype]⟩⟩
  · cases h
    exact ⟨not_not.mp htype, .inl ⟨by simpa using hadd, rfl⟩⟩

/-- What becomes of a request for a new socket: the slot is free again, or a
life begins in it. -/
theorem sock_of_isNew (hnew : r.isNew) (h : ctrlCmd s answers r = some out) :
    (out.sock = { s with type := .invalid } ∧ (r.freesTwice answers → s.type = .reserve)) ∨
      s.type = .reserve ∧ r.freesTwice answers = false ∧
        ∃ (b : Birth) (fd : Int) (owner : Nat), out.sock = b.sock r.id fd owner := by
  cases r with
  | bind id fd owner =>
    obtain ⟨result, hresult, rfl⟩ := Option.map_eq_some_iff.mp h
    obtain ⟨htype, ⟨-, rfl⟩ | ⟨-, rfl⟩⟩ := newFd_cases hresult
    · exact .inl ⟨rfl, fun _ => htype⟩
    · exact .inr ⟨htype, rfl, .bound, _, _, rfl⟩
  | listen id fd owner =>
    obtain ⟨result, hresult, rfl⟩ := Option.map_eq_some_iff.mp h
    obtain ⟨htype, ⟨-, rfl⟩ | ⟨-, rfl⟩⟩ := newFd_cases hresult
    · exact .inl ⟨rfl, fun _ => htype⟩
    · exact .inr ⟨htype, rfl, .listening, _, _, rfl⟩
  | udp id fd family owner =>
    obtain ⟨result, hresult, rfl⟩ := Option.map_eq_some_iff.mp h
    obtain ⟨htype, ⟨-, rfl⟩ | ⟨hadd, rfl⟩⟩ := newFd_cases hresult
    · exact .inl ⟨rfl, fun _ => htype⟩
    · have honce : Request.freesTwice answers (.udp id fd family owner) = false := by
        rw [Request.freesTwice, hadd]
        rfl
      dsimp only
      split_ifs
      · exact .inr ⟨htype, honce, .udpv6, _, _, rfl⟩
      · exact .inr ⟨htype, honce, .udp, _, _, rfl⟩
  | openHost id port owner host =>
    change openSocket s _ _ answers.connect = some out at h
    cases hconnect : answers.connect with
    | failed =>
      rw [hconnect] at h
      cases h
      exact .inl ⟨rfl, by simp [Request.freesTwice, hconnect]⟩
    | connected fd spAdd peer =>
      rw [hconnect] at h
      obtain ⟨result, hresult, rfl⟩ := Option.map_eq_some_iff.mp h
      obtain ⟨htype, ⟨-, rfl⟩ | ⟨hadd, rfl⟩⟩ := newFd_cases hresult
      · exact .inl ⟨rfl, fun _ => htype⟩
      · exact .inr ⟨htype, by simp [Request.freesTwice, hconnect, hadd], .connected, _, _, rfl⟩
    | inProgress fd spAdd =>
      rw [hconnect] at h
      obtain ⟨result, hresult, rfl⟩ := Option.map_eq_some_iff.mp h
      obtain ⟨htype, ⟨-, rfl⟩ | ⟨hadd, rfl⟩⟩ := newFd_cases hresult
      · exact .inl ⟨rfl, fun _ => htype⟩
      · exact .inr ⟨htype, by simp [Request.freesTwice, hconnect, hadd], .connecting, _, _, rfl⟩
  | start | close | exit | send | sendUdp | setopt | setUdp => cases hnew

/-- A reserved slot gets a socket or is free again. -/
theorem slotOk_of_isNew (hs : SlotOk s) (hreserve : s.type = .reserve)
    (hnew : r.isNew) (h : ctrlCmd s answers r = some out) :
    SlotOk out.sock := by
  obtain ⟨hsock, -⟩ | ⟨-, -, b, fd, owner, hsock⟩ := sock_of_isNew hnew h
  · rw [hsock]
    exact .inl ⟨.inl rfl, hs.pending_eq (.inr hreserve)⟩
  · rw [hsock]
    exact .inr (lived_birth b r.id fd owner)

/-- The first of the two stores. -/
theorem type_of_freesTwice (hnew : r.isNew) (htwice : r.freesTwice answers)
    (h : ctrlCmd s answers r = some out) : out.sock.type = .invalid := by
  obtain ⟨hsock, -⟩ | ⟨-, honce, -⟩ := sock_of_isNew hnew h
  · rw [hsock]
  · rw [htwice] at honce
    cases honce

/-- A slot for a connection that was accepted. -/
theorem sock_of_acceptSocket {id fd : Int} {owner : Nat}
    (h : acceptSocket s id fd owner = some out) :
    out.sock = Birth.accepted.sock id fd owner := by
  obtain ⟨result, hresult, rfl⟩ := Option.map_eq_some_iff.mp h
  obtain ⟨-, ⟨hadd, -⟩ | ⟨-, rfl⟩⟩ := newFd_cases hresult
  · cases hadd
  · rfl

/-- Other requests are actions, or do nothing to the slot. -/
theorem ctrlCmd_of_not_isNew (hnew : ¬ r.isNew) (h : ctrlCmd s answers r = some out) :
    (∃ a, r.action answers = some a ∧ s.act a = some out) ∨
      out.sock = s ∧ ∀ m, out.message = some m → m.type ≠ .close ∧ m.type ≠ .error := by
  cases r with
  | bind | listen | openHost | udp => exact absurd rfl hnew
  | exit =>
    cases h
    refine .inr ⟨rfl, ?_⟩
    rintro m ⟨⟩
    exact ⟨by simp, by simp⟩
  | start | close | send | sendUdp | setUdp | setopt =>
    exact .inl ⟨_, rfl, h⟩

/-- The id of an action that is a request. -/
def SockAction.target : SockAction → Option Int
  | .start id _ _ | .send id _ _ _ _ | .close id _ _ | .setUdp id _
  | .setopt id _ _ => some id
  | .event _ _ _ => none

theorem Request.target_action (h : r.action answers = some a) : a.target = some r.id := by
  cases r with
  | start | close | send | sendUdp | setUdp | setopt =>
    cases h
    rfl
  | bind | listen | openHost | udp | exit => cases h

/-- A request for a socket that is not there does nothing. -/
theorem act_of_absent {id : Int} (htarget : a.target = some id)
    (habsent : s.type = .invalid ∨ s.id ≠ id) (h : s.act a = some out) : out.sock = s := by
  cases a with
  | start =>
    cases htarget
    rw [Sock.act, startSocket, if_pos habsent, Option.some.injEq] at h
    exact h ▸ rfl
  | send =>
    cases htarget
    have hdrops : s.drops id := habsent.imp_right .inl
    rw [Sock.act, sendSocket, if_pos hdrops, Option.some.injEq] at h
    exact h ▸ rfl
  | close =>
    cases htarget
    rw [Sock.act, closeSocket, if_pos habsent, Option.some.injEq] at h
    exact h ▸ rfl
  | setUdp =>
    cases htarget
    rw [Sock.act, setUdpAddress, if_pos habsent, Option.some.injEq] at h
    exact h ▸ rfl
  | setopt =>
    cases htarget
    rw [Sock.act, setoptSocket, if_pos habsent, Option.some.injEq] at h
    exact h ▸ rfl
  | event => cases htarget

/-- A slot that is only reserved: a request to send to it puts its package into
a list, and closing it fails.  Other requests leave it as it is. -/
theorem act_of_reserve {id : Int} (htarget : a.target = some id)
    (htype : s.type = .reserve) (hpending : s.pending = [])
    (hsend : (∀ request priority address answer,
      a ≠ .send id request priority address answer) ∨ s.id ≠ id)
    (h : s.act a = some out) :
    out.sock.type = .reserve ∧ out.sock.pending = [] ∧ out.sock.id = s.id := by
  by_cases hid : s.id ≠ id
  · rw [act_of_absent htarget (.inr hid) h]
    exact ⟨htype, hpending, rfl⟩
  · have hhere : ¬ (s.type = .invalid ∨ s.id ≠ id) := by simp [htype, hid]
    cases a with
    | start =>
      cases htarget
      rw [Sock.act, startSocket, if_neg hhere, if_neg (by simp [htype]),
        if_neg (by simp [htype]), Option.some.injEq] at h
      subst h
      exact ⟨htype, hpending, rfl⟩
    | send id' request priority address answer =>
      cases htarget
      exact absurd rfl (hsend.resolve_right hid request priority address answer)
    | close =>
      cases htarget
      rw [Sock.act, closeSocket, if_neg hhere, if_pos (sendBufferEmpty_iff.mpr hpending), closeSent,
        if_neg (by simp [Sock.quiet]),
        if_pos (by exact sendBufferEmpty_iff.mpr hpending)] at h
      simp [Sock.quiet, forceClose, htype] at h
    | setUdp =>
      cases htarget
      rw [Sock.act, setUdpAddress, if_neg hhere] at h
      split_ifs at h
      · cases h
        exact ⟨htype, hpending, rfl⟩
      · split at h
        · cases h
          exact ⟨htype, hpending, rfl⟩
        · cases h
    | setopt =>
      cases htarget
      rw [Sock.act, setoptSocket, if_neg hhere, Option.some.injEq] at h
      subst h
      exact ⟨htype, hpending, rfl⟩
    | event => cases htarget

theorem Request.action_ne_send (hsend : ¬ r.isSend)
    (h : r.action answers = some a) (id : Int) (request : RequestSend)
    (priority : Priority) (address : Option (List Byte)) (answer : WriteAnswer) :
    a ≠ .send id request priority address answer := by
  rintro rfl
  cases r with
  | send | sendUdp => exact hsend rfl
  | start | close | setUdp | setopt | bind | listen | openHost | udp | exit =>
    cases h

/-- What a request to send does to a slot that is only reserved. -/
theorem pending_of_send_reserve (hsend : r.isSend) (htype : s.type = .reserve)
    (hid : s.id = r.id) (h : ctrlCmd s answers r = some out) :
    out.sock.type = .reserve ∧ out.sock.pending ≠ [] := by
  obtain ⟨request, priority, address, answer, h⟩ : ∃ request priority address answer,
        sendSocket s r.id request priority address answer = some out := by
    cases r with
    | send | sendUdp => exact ⟨_, _, _, _, h⟩
    | start | close | setUdp | setopt | bind | listen | openHost | udp
    | exit => cases hsend
  cases sendsSocket_of_sendSocket h with
  | dropped hdrops => simp [Sock.drops, htype, hid] at hdrops
  | failed hopen hempty hconnected => simp [htype] at hconnected
  | direct hopen hempty hconnected => simp [htype] at hconnected
  | part hopen hempty hconnected => simp [htype] at hconnected
  | waits hopen hempty hconnected => simp [htype] at hconnected
  | @behind udpAddress hopen hbusy hlisten hpackage =>
    have hperm :=
      (pending_appendTo s priority (writeBufferOf request 0 udpAddress)).1
    refine ⟨by rw [Sock.quiet, type_appendTo, htype], fun hnil => ?_⟩
    exact absurd (hnil ▸ hperm).symm.eq_nil (by simp)

/-! ## What becomes of a socket that is polled -/

/-- A socket stays in the poll, or it is closed and the message says so. -/
def PolledOrClosed (s : Sock) (out : Outcome) : Prop :=
  out.sock.id = s.id ∧ (out.sock.type.isPolled ∨ out.sock.type = .invalid ∧
    ∃ m, out.message = some m ∧ (m.type = .close ∨ m.type = .error) ∧
      m.id = s.id)

theorem polledOrClosed_closeWith {s' : Sock} {calls : List SysCall}
    {type : MessageType} (h : closeWith s' calls type = some out)
    (htype : s'.type ≠ .invalid) (hid : s'.id = s.id)
    (hkind : type = .close ∨ type = .error) : PolledOrClosed s out := by
  obtain ⟨-, rfl⟩ := closeWith_eq_some htype h
  exact ⟨hid, .inr ⟨rfl, _, rfl, hkind, hid⟩⟩

theorem SendsBuffer.polledOrClosed {answers : List WriteAnswer}
    (hpolled : s.type.isPolled) (htype : s.type ≠ .invalid)
    (h : SendsBuffer s answers out) : PolledOrClosed s out := by
  cases h with
  | highFailed hfailed hhigh hout =>
    exact polledOrClosed_closeWith hout htype rfl (.inl rfl)
  | lowFailed hfailed hhigh hlow hout =>
    exact polledOrClosed_closeWith hout htype rfl (.inl rfl)
  | closed hhigh hnone hhalf hout =>
    exact polledOrClosed_closeWith hout htype rfl (.inl rfl)
  | highLeft => exact ⟨rfl, .inl hpolled⟩
  | raised => exact ⟨rfl, .inl hpolled⟩
  | lowLeft => exact ⟨rfl, .inl hpolled⟩
  | finished => exact ⟨rfl, .inl hpolled⟩

theorem Acts.polledOrClosed (hpolled : s.type.isPolled) (h : Acts s a out) :
    PolledOrClosed s out := by
  have htype : s.type ≠ .invalid := by
    intro htype
    simp [htype, SocketType.isPolled] at hpolled
  have hwaits : ¬ (s.type = .paccept ∨ s.type = .plisten) := by
    rintro (htype | htype)
    · simp [htype, SocketType.isPolled] at hpolled
    · simp [htype, SocketType.isPolled] at hpolled
  have hsame : PolledOrClosed s s.quiet := ⟨rfl, .inl hpolled⟩
  have happend : ∀ priority wb calls message,
      PolledOrClosed s ⟨appendTo s priority wb, calls, message⟩ := by
    intro priority wb calls message
    refine ⟨by cases priority <;> rfl, .inl ?_⟩
    rw [type_appendTo]
    exact hpolled
  cases h with
  | @send id request priority udpAddress answer _ h =>
    cases h with
    | dropped => exact ⟨rfl, .inl hpolled⟩
    | failed hopen hempty hconnected hprotocol hfailed hout =>
      exact polledOrClosed_closeWith hout htype rfl (.inl rfl)
    | direct => exact ⟨rfl, .inl hpolled⟩
    | part => exact happend .high _ _ _
    | waits => exact happend priority _ _ _
    | behind => exact happend priority _ _ _
  | close h =>
    cases h with
    | absent => exact ⟨rfl, .inl hpolled⟩
    | ended hhere hsome hsent hmessage =>
      exact hsent.polledOrClosed hpolled htype
    | @closed sent hhere hreserve hsent hmessage hempty =>
      have hid : sent.sock.id = s.id := by
        rcases hsent with ⟨-, rfl⟩ | ⟨-, hsent⟩
        · rfl
        · exact (hsent.polledOrClosed hpolled htype).1
      exact ⟨hid, .inr ⟨rfl, _, rfl, .inl rfl, hhere.2.symm⟩⟩
    | @half sent hhere hsome hsent hmessage hleft =>
      exact ⟨(hsent.polledOrClosed hpolled htype).1, .inl rfl⟩
  | flush hhere hread h => exact h.polledOrClosed hpolled htype
  | other hsend h =>
    cases h with
    | same => exact ⟨rfl, .inl hpolled⟩
    | started owner message hstart =>
      exact absurd (hstart.imp And.left And.left) hwaits
    | refused message hstart => exact absurd hstart hwaits
    | setopt => exact ⟨rfl, .inl hpolled⟩
    | read => exact ⟨rfl, .inl hpolled⟩
    | connected => exact ⟨rfl, .inl rfl⟩
    | closed hhere call hcall hkind hout =>
      exact polledOrClosed_closeWith hout htype rfl hkind

/-- What a request that is not for a new socket does to a slot: the socket goes
on with its life, and a slot that is reserved stays reserved, unless the request
is one to send to it. -/
theorem slot_of_not_isNew (hs : SlotOk s) (hnew : ¬ r.isNew)
    (hsend : r.isSend → s.type = .reserve → s.id ≠ r.id)
    (h : ctrlCmd s answers r = some out) :
    SlotOk out.sock ∧ (s.type = .reserve → out.sock.type = .reserve ∧ out.sock.id = s.id) ∧
      (s.type.isPolled → PolledOrClosed s out) := by
  rcases ctrlCmd_of_not_isNew hnew h with ⟨a, ha, hact⟩ | ⟨hsame, -⟩
  · have htarget := Request.target_action ha
    have hpolls : s.type.isPolled → PolledOrClosed s out :=
      fun hpolled => (acts_of_act hact).polledOrClosed hpolled
    by_cases hreserve : s.type = .reserve
    · obtain ⟨htype, hnone, hid⟩ : out.sock.type = .reserve ∧
          out.sock.pending = [] ∧ out.sock.id = s.id := by
        refine act_of_reserve htarget hreserve (hs.pending_eq (.inr hreserve)) ?_ hact
        by_cases hr : r.isSend
        · exact .inr (hsend hr hreserve)
        · exact .inl fun _ _ _ _ => Request.action_ne_send hr ha _ _ _ _ _
      exact ⟨.inl ⟨.inr htype, hnone⟩, fun _ => ⟨htype, hid⟩, hpolls⟩
    · refine ⟨?_, fun htype => absurd htype hreserve, hpolls⟩
      rcases hs with ⟨htype, hpending⟩ | hlived
      · rw [act_of_absent htarget (.inl (htype.resolve_right hreserve)) hact]
        exact .inl ⟨htype, hpending⟩
      · refine .inr (hlived.act ?_ hact)
        rintro read write events rfl
        cases htarget
  · rw [hsame]
    exact ⟨hs, fun htype => ⟨htype, rfl⟩, fun hpolled => ⟨by rw [hsame], .inl (hsame ▸ hpolled)⟩⟩

end Socket
end GameServer
