import GameServer.Socket.Watching

/-!
# What is done with the descriptor of a socket

The calls that the server makes for a socket follow a protocol: the descriptor
is added to the poll once, it is read and written and its events are changed
only while it is there, it is taken from the poll before it is closed, and
nothing is done with it afterwards.  Options may be set before it is in the
poll.  `FdState.step` is that protocol.

Two descriptors are never closed: one whose `sp_add` failed in `start_socket`,
and one of `bind_socket`, unless something was left to send when the socket was
to be closed.

All this rests on the events: the server reads from the descriptor of whatever
slot an event belongs to.
-/

namespace GameServer
namespace Socket

open Lib Network

/-- The state of a descriptor. -/
inductive FdState where
  /-- Open and not in the poll. -/
  | out
  /-- In the poll. -/
  | polled
  /-- Open, and `sp_add` has failed. -/
  | refused
  /-- Taken from the poll. -/
  | removed
  | closed
deriving Repr, DecidableEq

/-- What may be called in a state, and the state afterwards.  Freeing a buffer
has nothing to do with the descriptor. -/
def FdState.step : FdState → SysCall → Option FdState
  | st, .free _ _ => some st
  | .out, .setsockopt _ _ => some .out
  | .out, .spAdd true => some .polled
  | .out, .spAdd false => some .refused
  | .polled, .spDel => some .removed
  | .polled, .spAdd _ | .polled, .close => none
  | .polled, _ => some .polled
  | .out, .close | .refused, .close | .removed, .close => some .closed
  | _, _ => none

/-- Buffers can be freed in every state. -/
theorem runSteps_freeWbList (st : FdState) (list : List WriteBuffer) :
    runSteps FdState.step st (freeWbList list) = some st := by
  induction list with
  | nil => rfl
  | cons wb rest ih =>
    have hstep : FdState.step st (writeBufferFree wb) = some st := by
      cases st <;> rfl
    rw [freeWbList, List.map_cons, runSteps_cons, hstep]
    exact ih

theorem SysCall.IsSend.step_polled {call : SysCall} (h : call.IsSend) :
    FdState.step .polled call = some .polled := by
  cases call with
  | write | sendto => rfl
  | _ => cases h

theorem SysCall.IsRead.step_polled {call : SysCall} (h : call.IsRead) :
    FdState.step .polled call = some .polled := by
  cases call with
  | read | recvfrom | accept | getsockopt | getpeername => rfl
  | _ => cases h

/-- Sending a list needs the descriptor in the poll. -/
theorem Sends.runSteps_eq {protocol : Protocol} {list left : List WriteBuffer}
    {calls : List SysCall} (h : Sends protocol list left calls) :
    runSteps FdState.step .polled calls = some .polled := by
  induction h with
  | stop list => rfl
  | failed list => rfl
  | part hprotocol tmp rest hn => rfl
  | whole tmp hsent hcall hrest ih =>
    rw [runSteps_cons, hcall.step_polled]
    exact ih

/-- A socket and the state of its descriptor. -/
structure Keeps (b : Birth) (s : Sock) (st : FdState) : Prop where
  waiting : s.type = .paccept ∨ s.type = .plisten → st = .out
  polled : s.type.isPolled → st = .polled
  gone : s.type = .invalid →
    st = .closed ∨ st = .removed ∧ b = .bound ∨ st = .refused

variable {s : Sock} {b : Birth} {st : FdState} {on : Bool} {out : Outcome}
  {answers : List WriteAnswer}

/-- A socket in the poll. -/
theorem Keeps.of_polled (h : s.type.isPolled) : Keeps b s .polled where
  waiting := by
    rintro (htype | htype)
    · simp [htype, SocketType.isPolled] at h
    · simp [htype, SocketType.isPolled] at h
  polled := fun _ => rfl
  gone := fun htype => by simp [htype, SocketType.isPolled] at h

theorem Keeps.of_invalid (htype : s.type = .invalid)
    (hgone : st = .closed ∨ st = .removed ∧ b = .bound ∨ st = .refused) :
    Keeps b s st where
  waiting := by simp [htype]
  polled := by simp [htype, SocketType.isPolled]
  gone := fun _ => hgone

/-- Only the type matters. -/
theorem Keeps.congr {s' : Sock} (h : Keeps b s st) (htype : s'.type = s.type) : Keeps b s' st where
  waiting := by
    rw [htype]
    exact h.waiting
  polled := htype ▸ h.polled
  gone := by
    rw [htype]
    exact h.gone

/-- The calls of `force_close` are those the descriptor allows. -/
theorem Keeps.closeCalls (h : Keeps b s st) (hs : Watched b s on) (hopen : s.type ≠ .invalid) :
    ∃ st', runSteps FdState.step st (closeCalls s.type) = some st' ∧
      (st' = .closed ∨ st' = .removed ∧ b = .bound) := by
  have hpolled : s.type.isPolled → s.type ≠ .bind →
      runSteps FdState.step st (Socket.closeCalls s.type) = some .closed := by
    intro htype hbind
    rw [h.polled htype]
    cases hcase : s.type <;> simp_all [SocketType.isPolled] <;> rfl
  cases htype : s.type with
  | invalid => exact absurd htype hopen
  | reserve => exact absurd htype hs.reserve
  | paccept =>
    have hout := h.waiting (.inl htype)
    exact ⟨.closed, by rw [hout]; rfl, .inl rfl⟩
  | plisten =>
    have hout := h.waiting (.inr htype)
    exact ⟨.closed, by rw [hout]; rfl, .inl rfl⟩
  | bind =>
    have hb : b = .bound := by
      by_contra hb
      exact hs.bind hb htype
    have hst : st = .polled := h.polled (by rw [htype]; rfl)
    exact ⟨.removed, by rw [hst]; rfl, .inr ⟨rfl, hb⟩⟩
  | listen | connecting | connected | halfclose =>
    rw [htype] at hpolled
    exact ⟨.closed, hpolled rfl (by simp), .inl rfl⟩

/-- What is left to be sent belongs to a socket in the poll. -/
theorem Watched.isPolled (hs : Watched b s on) (hne : s.pending ≠ []) : s.type.isPolled := by
  have hidle : ¬ idleType s.type := fun h => hne (hs.idle h)
  have hreserve := hs.reserve
  simp only [idleType, not_or] at hidle
  cases htype : s.type <;> simp_all [SocketType.isPolled]

/-- What the calls of an action do to the descriptor. -/
def Follows (b : Birth) (st : FdState) (out : Outcome) : Prop :=
  ∃ st', runSteps FdState.step st out.calls = some st' ∧ Keeps b out.sock st'

/-- Closing a socket. -/
theorem follows_closeWith {s' : Sock} {calls : List SysCall}
    {type : MessageType} (hout : closeWith s' calls type = some out)
    (h : Keeps b s st) (hs : Watched b s on) (hopen : s.type ≠ .invalid)
    (htype : s'.type = s.type)
    (hcalls : runSteps FdState.step st calls = some st) : Follows b st out := by
  obtain ⟨-, rfl⟩ := closeWith_eq_some (htype ▸ hopen) hout
  obtain ⟨st', hclose, hgone⟩ := h.closeCalls hs hopen
  refine ⟨st', ?_, .of_invalid rfl (hgone.imp_right .inl)⟩
  rw [runSteps_append, hcalls, Option.bind_some, runSteps_append,
    runSteps_freeWbList, Option.bind_some, htype]
  exact hclose

theorem SendsBuffer.runSteps_eq (h : SendsBuffer s answers out) (hmessage : out.message = none) :
    runSteps FdState.step .polled out.calls = some .polled := by
  cases h with
  | highFailed hfailed hhigh hout =>
    exact absurd hout (closeWith_ne_of_message hmessage)
  | lowFailed hfailed hhigh hlow hout =>
    exact absurd hout (closeWith_ne_of_message hmessage)
  | closed hhigh hlow htype hout =>
    exact absurd hout (closeWith_ne_of_message hmessage)
  | highLeft hhigh => exact hhigh.runSteps_eq
  | raised hhigh hlow =>
    rw [runSteps_append, hhigh.runSteps_eq, Option.bind_some, hlow.runSteps_eq]
  | lowLeft hhigh hlow =>
    rw [runSteps_append, hhigh.runSteps_eq, Option.bind_some, hlow.runSteps_eq]
  | finished hhigh =>
    rw [runSteps_append, hhigh.runSteps_eq]
    rfl

theorem SendsBuffer.follows (h : Keeps b s st) (hs : Watched b s on)
    (hpolled : s.type.isPolled) (hsends : SendsBuffer s answers out) : Follows b st out := by
  have hopen : s.type ≠ .invalid := by
    intro htype
    simp [htype, SocketType.isPolled] at hpolled
  obtain rfl := h.polled hpolled
  by_cases hmessage : out.message = none
  · refine ⟨.polled, hsends.runSteps_eq hmessage, .of_polled ?_⟩
    rw [(hsends.same hmessage).1]
    exact hpolled
  · cases hsends with
    | highFailed hfailed hhigh hout =>
      exact follows_closeWith hout h hs hopen rfl hhigh.runSteps_eq
    | lowFailed hfailed hhigh hlow hout =>
      refine follows_closeWith hout h hs hopen rfl ?_
      rw [runSteps_append, hhigh.runSteps_eq, Option.bind_some, hlow.runSteps_eq]
    | closed hhigh hlow hhalf hout =>
      refine follows_closeWith hout h hs hopen rfl ?_
      rw [runSteps_append, hhigh.runSteps_eq]
      rfl
    | highLeft => exact absurd rfl hmessage
    | raised => exact absurd rfl hmessage
    | lowLeft => exact absurd rfl hmessage
    | finished => exact absurd rfl hmessage

theorem SendsSocket.follows {id : Int} {request : RequestSend}
    {priority : Priority} {udpAddress : Option (List Byte)}
    {answer : WriteAnswer} (h : Keeps b s st) (hs : Watched b s on)
    (hsends : SendsSocket s id request priority udpAddress answer out) :
    Follows b st out := by
  have hconnected : s.type = .connected → st = .polled := by
    intro htype
    exact h.polled (by rw [htype]; rfl)
  have hfree : ∀ st : FdState, FdState.step st (freeRequest request) = some st := by
    intro st
    cases st <;> rfl
  cases hsends with
  | dropped hdrops => exact ⟨st, by rw [runSteps_cons, hfree]; rfl, h⟩
  | failed hopen hempty htype hprotocol hfailed hout =>
    obtain rfl := hconnected htype
    exact follows_closeWith hout h hs (by simp [htype]) rfl rfl
  | direct hopen hempty htype hfailed hsent hcall =>
    obtain rfl := hconnected htype
    refine ⟨.polled, ?_, h⟩
    rw [runSteps_cons, hcall.step_polled, Option.bind_some, runSteps_cons, hfree]
    rfl
  | part hopen hempty htype =>
    obtain rfl := hconnected htype
    refine ⟨.polled, rfl, .of_polled ?_⟩
    rw [type_appendTo, htype]
    rfl
  | waits hopen hempty htype =>
    obtain rfl := hconnected htype
    refine ⟨.polled, rfl, .of_polled ?_⟩
    rw [type_appendTo, htype]
    rfl
  | behind => exact ⟨st, rfl, h.congr (type_appendTo s priority _)⟩

theorem ClosesSocket.follows {id : Int} {owner : Nat} (h : Keeps b s st)
    (hs : Watched b s on) (hcloses : ClosesSocket s id owner answers out) : Follows b st out := by
  have hpolled : ¬ sendBufferEmpty s → s.type.isPolled := by
    intro hsome
    exact hs.isPolled (mt sendBufferEmpty_iff.mpr hsome)
  cases hcloses with
  | absent habsent => exact ⟨st, rfl, h⟩
  | ended hhere hsome hsent hmessage =>
    exact hsent.follows h hs (hpolled hsome)
  | @closed sent hhere hreserve hsent hmessage hempty =>
    have hcalls : runSteps FdState.step st sent.calls = some st := by
      rcases hsent with ⟨-, rfl⟩ | ⟨hsome, hsent⟩
      · rfl
      · rw [h.polled (hpolled hsome)]
        exact hsent.runSteps_eq hmessage
    obtain ⟨st', hclose, hgone⟩ := h.closeCalls hs hhere.1
    refine ⟨st', ?_, .of_invalid rfl (hgone.imp_right .inl)⟩
    rw [runSteps_append, hcalls]
    exact hclose
  | half hhere hsome hsent hmessage hleft =>
    obtain rfl := h.polled (hpolled hsome)
    exact ⟨.polled, hsent.runSteps_eq hmessage, .of_polled rfl⟩

/-- The poll reports events only for descriptors that are in it. -/
def Life.Reported (l : Life) : SockAction → Prop
  | .event _ _ _ => l.sock.type.isPolled
  | _ => True

theorem ActsOther.follows {l : Life} {a : SockAction} (h : Keeps b l.sock st)
    (hs : Watched b l.sock on) (hreported : l.Reported a)
    (hacts : ActsOther l.sock a out) : Follows b st out := by
  cases hacts with
  | same owner message hp => exact ⟨st, rfl, h.congr rfl⟩
  | started owner message htype =>
    have hout : st = .out := h.waiting (htype.imp And.left And.left)
    rw [hout]
    refine ⟨.polled, rfl, .of_polled ?_⟩
    rcases htype with ⟨-, rfl⟩ | ⟨-, rfl⟩
    · rfl
    · rfl
  | refused message htype =>
    rw [h.waiting htype]
    exact ⟨.refused, rfl, .of_invalid rfl (.inr (.inr rfl))⟩
  | setopt what value htype =>
    -- a socket that is there is in the poll or not yet
    by_cases hpolled : l.sock.type.isPolled
    · obtain rfl := h.polled hpolled
      exact ⟨.polled, rfl, h⟩
    · have hreserve := hs.reserve
      have hwaits : l.sock.type = .paccept ∨ l.sock.type = .plisten := by
        cases hcase : l.sock.type <;> simp_all [SocketType.isPolled]
      obtain rfl := h.waiting hwaits
      exact ⟨.out, rfl, h⟩
  | read call hcall message hp =>
    obtain rfl := h.polled hreported
    exact ⟨.polled, by rw [runSteps_cons, hcall.step_polled]; rfl, h.congr rfl⟩
  | connected message htype =>
    obtain rfl : st = .polled := h.polled hreported
    refine ⟨.polled, ?_, .of_polled rfl⟩
    dsimp only
    split_ifs
    · rfl
    · rfl
  | closed htype call hcall hkind hout =>
    obtain rfl := h.polled hreported
    exact follows_closeWith hout h hs htype rfl (by rw [runSteps_cons, hcall.step_polled]; rfl)

theorem Acts.follows {l : Life} {a : SockAction} (h : Keeps b l.sock st)
    (hs : Watched b l.sock on) (hreported : l.Reported a)
    (hacts : Acts l.sock a out) : Follows b st out := by
  cases hacts with
  | send hsends => exact hsends.follows h hs
  | close hcloses => exact hcloses.follows h hs
  | flush htype hread hsends => exact hsends.follows h hs hreported
  | other hsend hother => exact hother.follows h hs hreported

theorem follows_birth (b : Birth) (id fd : Int) (owner : Nat) :
    ∃ st, runSteps FdState.step .out b.calls = some st ∧ Keeps b (b.sock id fd owner) st := by
  cases b with
  | accepted | listening =>
    refine ⟨.out, rfl, fun _ => rfl, ?_, ?_⟩ <;> rintro ⟨⟩
  | connected | connecting | bound | udp | udpv6 =>
    exact ⟨.polled, rfl, .of_polled rfl⟩

/-- **The descriptor of a socket is used as it should be.**  As long as events
are taken only for sockets that are in the poll, the calls made for a socket
follow the protocol.  A socket that may have events has its descriptor in the
poll, and one that is closed has it closed, unless it came from the user by
`bind_socket` or `sp_add` failed. -/
theorem Life.descriptor_protocol {b : Birth} {id fd : Int} {owner : Nat}
    {actions : List SockAction} {l : Life}
    (hreported : RunMeets Life.step Life.Reported (b.life id fd owner) actions)
    (hrun : runSteps Life.step (b.life id fd owner) actions = some l) :
    ∃ st, runSteps FdState.step .out l.calls = some st ∧ (l.sock.type.isPolled → st = .polled) ∧
      (l.sock.type = .invalid → st = .closed ∨ st = .removed ∧ b = .bound ∨ st = .refused) := by
  have hkeep : ∀ (l : Life) (a : SockAction) (l' : Life), (Watched b l.sock (watch l.calls false) ∧
        ∃ st, runSteps FdState.step .out l.calls = some st ∧ Keeps b l.sock st) →
      l.Reported a → l.step a = some l' →
      Watched b l'.sock (watch l'.calls false) ∧
        ∃ st, runSteps FdState.step .out l'.calls = some st ∧ Keeps b l'.sock st := by
    rintro l a l' ⟨hwatched, st, hst, hkeeps⟩ hreported hstep
    obtain ⟨out, hacts, rfl⟩ := exists_of_step hstep
    obtain ⟨st', hst', hkeeps'⟩ := hacts.follows hkeeps hwatched hreported
    refine ⟨?_, st', ?_, hkeeps'⟩
    · rw [watch_append]
      exact hacts.watched hwatched
    · rw [runSteps_append, hst]
      exact hst'
  obtain ⟨-, st, hst, hkeeps⟩ := runSteps_invariant_of_meets hkeep
    ⟨watched_birth b id fd owner, follows_birth b id fd owner⟩ hreported hrun
  exact ⟨st, hst, hkeeps.polled, hkeeps.gone⟩

/-- A descriptor of `bind_socket` with something left to send is closed. -/
theorem Life.descriptor_protocol_bound :
    ∃ l, runSteps Life.step (Birth.bound.life 1 0 0)
        [.send 1 ⟨100, none, [7]⟩ .high none .again, .close 1 0 [.again],
          .event false true { write := [.wrote 1] }] = some l ∧
      l.sock.type = .invalid ∧
      runSteps FdState.step .out l.calls = some .closed := by
  have hreported : RunMeets Life.step Life.Reported (Birth.bound.life 1 0 0)
      [.send 1 ⟨100, none, [7]⟩ .high none .again, .close 1 0 [.again],
        .event false true { write := [.wrote 1] }] := by
    refine ⟨trivial, ?_⟩
    rintro _ ⟨⟩
    refine ⟨trivial, ?_⟩
    rintro _ ⟨⟩
    exact ⟨rfl, fun _ _ => trivial⟩
  obtain ⟨l, hrun⟩ : ∃ l, runSteps Life.step (Birth.bound.life 1 0 0)
      [.send 1 ⟨100, none, [7]⟩ .high none .again, .close 1 0 [.again],
        .event false true { write := [.wrote 1] }] = some l := ⟨_, rfl⟩
  obtain ⟨st, hst, -, hgone⟩ := Life.descriptor_protocol hreported hrun
  have htype : l.sock.type = .invalid := by
    cases hrun
    rfl
  refine ⟨l, hrun, htype, ?_⟩
  rcases hgone htype with rfl | ⟨rfl, -⟩ | rfl
  · exact hst
  · cases hrun
    cases hst
  · cases hrun
    cases hst

end Socket
end GameServer
