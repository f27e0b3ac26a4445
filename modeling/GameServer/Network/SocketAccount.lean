import GameServer.Network.SocketServer
import GameServer.Socket.TableSlots

/-!
# The accepted connections of the socket server

Every function of `socket_server.c` keeps one account of the accepted
connections.  A message that reports an accepted socket has opened one more; a
message that reports a closed socket or an error has ended the connection of
that id, if there was one; nothing else opens or ends any.

`Accounted` says so for a function on one socket, `Keeps` for a call that accepts
nothing, and `Opens` for one that does.  The requests and events at the end are
put together from them (`keeps_ctrlCmd`, `eventTaken_of_takeEvent`).
-/

namespace GameServer
namespace Network

open Socket (Sock Outcome Message MessageType)

/-! ## One socket -/

/-- The message that is returned reports this id as closed, and none as
accepted. -/
def ReportsClosed (message : Option Message) (id : Option Int) : Prop :=
  closedId (message.bind SocketMessage.ofMessage) = id ∧
    acceptedId (message.bind SocketMessage.ofMessage) = none

/-- What a function does to a socket that is not connecting: it stays what it is
or is started, or it is closed. -/
inductive Accounted (s : Sock) (out : Outcome) : Prop
  | kept (hid : out.sock.id = s.id) (htype : out.sock.type = s.type)
      (hmessage : ReportsClosed out.message none)
  | started (hid : out.sock.id = s.id)
      (htype : s.type = .paccept ∧ out.sock.type = .connected ∨
        s.type = .plisten ∧ out.sock.type = .listen)
      (hmessage : ReportsClosed out.message none)
  | closed (hused : s.type ≠ .invalid) (htype : out.sock.type = .invalid)
      (hmessage : ReportsClosed out.message (some s.id))

section Accounted

variable {s : Sock} {out : Outcome}

theorem accounted_closeWith {s' : Sock} {calls : List Socket.SysCall}
    {type : MessageType} (h : Socket.closeWith s' calls type = some out)
    (hid : s'.id = s.id) (htype : s'.type = s.type) (hused : s.type ≠ .invalid)
    (hkind : type = .close ∨ type = .error) : Accounted s out := by
  obtain ⟨-, rfl⟩ := Socket.closeWith_eq_some (htype ▸ hused) h
  refine .closed hused rfl ?_
  rw [hid]
  rcases hkind with rfl | rfl
  · exact ⟨rfl, rfl⟩
  · exact ⟨rfl, rfl⟩

theorem accounted_startSocket {id : Int} (hthere : s.type ≠ .invalid ∧ s.id = id)
    (owner : Nat) (spAdd : Bool) :
    Accounted s (Socket.startSocket s id owner spAdd) := by
  unfold Socket.startSocket
  dsimp only
  rw [if_neg (by tauto)]
  split_ifs with hwaits hadd haccepted hconnected
  · exact .started rfl (.inl ⟨haccepted, rfl⟩) ⟨rfl, rfl⟩
  · exact .started rfl (.inr ⟨hwaits.resolve_left haccepted, rfl⟩) ⟨rfl, rfl⟩
  · exact .closed hthere.1 rfl (hthere.2 ▸ ⟨rfl, rfl⟩)
  · exact .kept rfl rfl ⟨rfl, rfl⟩
  · exact .kept rfl rfl ⟨rfl, rfl⟩

theorem accounted_sendSocket {id : Int} {request : Socket.RequestSend}
    {priority : Lib.Priority} {udpAddress : Option (List Byte)}
    {answer : WriteAnswer} (h : Socket.sendSocket s id request priority
      udpAddress answer = some out) : Accounted s out := by
  have happend : ∀ (priority : Lib.Priority) (wb : Socket.WriteBuffer) calls,
      Accounted s ⟨Socket.appendTo s priority wb, calls, none⟩ := by
    intro priority wb calls
    cases priority with
    | high => exact .kept rfl rfl ⟨rfl, rfl⟩
    | low => exact .kept rfl rfl ⟨rfl, rfl⟩
  cases Socket.sendsSocket_of_sendSocket h with
  | dropped => exact .kept rfl rfl ⟨rfl, rfl⟩
  | failed hopen hempty htype hprotocol hfailed hout =>
    exact accounted_closeWith hout rfl rfl (by simp [htype]) (.inl rfl)
  | direct => exact .kept rfl rfl ⟨rfl, rfl⟩
  | part => exact happend ..
  | waits => exact happend ..
  | behind => exact happend ..

theorem accounted_sendBuffer {answers : List WriteAnswer} (hused : s.type ≠ .invalid)
    (h : Socket.sendBuffer s answers = some out) : Accounted s out := by
  cases Socket.sendsBuffer_of_sendBuffer h with
  | highFailed hfailed hhigh hout =>
    exact accounted_closeWith hout rfl rfl hused (.inl rfl)
  | lowFailed hfailed hhigh hlow hout =>
    exact accounted_closeWith hout rfl rfl hused (.inl rfl)
  | closed hhigh hnone htype hout =>
    exact accounted_closeWith hout rfl rfl hused (.inl rfl)
  | highLeft | raised | lowLeft | finished => exact .kept rfl rfl ⟨rfl, rfl⟩

theorem accounted_forwardMessageTcp {answer : ReadAnswer} (hused : s.type ≠ .invalid)
    (h : Socket.forwardMessageTcp s answer = some out) : Accounted s out := by
  unfold Socket.forwardMessageTcp at h
  split at h
  · cases h
  · cases h
    exact .kept rfl rfl ⟨rfl, rfl⟩
  · exact accounted_closeWith h rfl rfl hused (.inr rfl)
  · split_ifs at h
    · exact accounted_closeWith h rfl rfl hused (.inl rfl)
    · cases h
      exact .kept rfl rfl ⟨rfl, rfl⟩
    · cases h
      exact .kept rfl rfl ⟨rfl, rfl⟩

theorem accounted_forwardMessageUdp {answer : Socket.RecvAnswer} (hused : s.type ≠ .invalid)
    (h : Socket.forwardMessageUdp s answer = some out) : Accounted s out := by
  cases answer with
  | again =>
    cases h
    exact .kept rfl rfl ⟨rfl, rfl⟩
  | failed => exact accounted_closeWith h rfl rfl hused (.inr rfl)
  | received datagram sa slen =>
    cases h
    refine .kept rfl rfl ?_
    cases Socket.forwardDatagram s.protocol datagram sa slen with
    | none => exact ⟨rfl, rfl⟩
    | some data => exact ⟨rfl, rfl⟩

theorem accounted_pollEvent {read write : Bool} {answers : Socket.EventAnswers}
    (hconnecting : s.type ≠ .connecting)
    (h : Socket.pollEvent s read write answers = some out) :
    Accounted s out := by
  rw [Socket.pollEvent.eq_def] at h
  split at h
  · next htype => exact absurd htype hconnecting
  · cases h
    exact .kept rfl rfl ⟨rfl, rfl⟩
  · cases h
    exact .kept rfl rfl ⟨rfl, rfl⟩
  · next hlisten hused =>
    split_ifs at h
    · split at h
      · exact accounted_forwardMessageTcp hused h
      · exact accounted_forwardMessageUdp hused h
    · exact accounted_sendBuffer hused h
    · cases h
      exact .kept rfl rfl ⟨rfl, rfl⟩

end Accounted

/-! ## The account -/

namespace SocketServer

/-- The slot of the id is an accepted connection with that id. -/
def IsOpen (ss : SocketServer) (id : Int) : Prop :=
  (ss.socketOf id).id = id ∧ (ss.socketOf id).type.isOpen = true

/-- The sockets in use are in the slots of their ids.  None is connecting: the
server opens no connections itself. -/
def WellPlaced (ss : SocketServer) : Prop :=
  ∀ i, (ss.slot i).type ≠ .invalid →
    hashId (ss.slot i).id = i ∧ (ss.slot i).type ≠ .connecting

/-- A call with this message accepts nothing, ends the connection that the
message reports as closed, and leaves the pipe alone. -/
structure Keeps (ss : SocketServer) (message : Option SocketMessage)
    (ss' : SocketServer) : Prop where
  accepted : acceptedId message = none
  pipe : ss'.pipe = ss.pipe
  wellPlaced : ss'.WellPlaced
  isOpen_iff : ∀ id, ss'.IsOpen id ↔
    ss.IsOpen id ∧ closedId message ≠ some id

/-- A call opens the connection of a new id, and leaves the pipe alone. -/
structure Opens (ss : SocketServer) (ud : Int) (ss' : SocketServer) :
    Prop where
  pipe : ss'.pipe = ss.pipe
  wellPlaced : ss'.WellPlaced
  fresh : ¬ ss.IsOpen ud
  isOpen_iff : ∀ id, ss'.IsOpen id ↔ ss.IsOpen id ∨ id = ud

variable {ss ss' : SocketServer} {message : Option SocketMessage} {i : Nat}
  {s : Sock} {answers : SystemAnswers}

theorem wellPlaced_create (memory : Nat → Sock) : (create memory).WellPlaced :=
  fun _ hused => (hused rfl).elim

theorem not_isOpen_create (memory : Nat → Sock) (id : Int) : ¬ (create memory).IsOpen id := by
  rintro ⟨-, hopen⟩
  cases hopen

/-! ## Writing a slot -/

@[simp] theorem slot_setSlot_self (ss : SocketServer) (i : Nat) (s : Sock) :
    (ss.setSlot i s).slot i = s := by
  simp [setSlot]

@[simp] theorem setSlot_setSlot (ss : SocketServer) (i : Nat) (s s' : Sock) :
    (ss.setSlot i s).setSlot i s' = ss.setSlot i s' := by
  simp [setSlot]

theorem isOpen_setSlot (ss : SocketServer) (i : Nat) (s : Sock) (id : Int) :
    (ss.setSlot i s).IsOpen id ↔
      if hashId id = i then s.id = id ∧ s.type.isOpen = true
      else ss.IsOpen id := by
  unfold IsOpen socketOf setSlot
  split_ifs with h
  · simp [h]
  · simp [Function.update_of_ne h]

theorem WellPlaced.setSlot (h : ss.WellPlaced)
    (hs : s.type ≠ .invalid → hashId s.id = i ∧ s.type ≠ .connecting) :
    (ss.setSlot i s).WellPlaced := by
  intro j
  unfold SocketServer.setSlot
  by_cases hj : j = i
  · subst hj
    simpa using hs
  · simpa [Function.update_of_ne hj] using h j

/-- Nothing happens. -/
theorem Keeps.refl (h : ss.WellPlaced) (haccepted : acceptedId message = none)
    (hclosed : closedId message = none) : ss.Keeps message ss where
  accepted := haccepted
  pipe := rfl
  wellPlaced := h
  isOpen_iff := fun id => by simp [hclosed]

/-- An id is reported as closed that has not been open. -/
theorem Keeps.of_not_isOpen {id : Int} (h : ss.WellPlaced)
    (hid : ¬ ss.IsOpen id) (haccepted : acceptedId message = none)
    (hclosed : closedId message = some id) : ss.Keeps message ss where
  accepted := haccepted
  pipe := rfl
  wellPlaced := h
  isOpen_iff := by
    intro id'
    rw [hclosed]
    refine ⟨fun hopen => ⟨hopen, fun heq => hid ?_⟩, And.left⟩
    rwa [Option.some.inj heq]

/-- A socket in use is written back, with the same id and the same kind of
type. -/
theorem Keeps.of_setSlot (h : ss.WellPlaced)
    (hused : (ss.slot i).type ≠ .invalid) (hid : s.id = (ss.slot i).id)
    (htype : s.type ≠ .connecting)
    (hopen : s.type.isOpen = (ss.slot i).type.isOpen)
    (haccepted : acceptedId message = none)
    (hclosed : closedId message = none) :
    ss.Keeps message (ss.setSlot i s) where
  accepted := haccepted
  pipe := rfl
  wellPlaced := h.setSlot fun _ => ⟨hid ▸ (h i hused).1, htype⟩
  isOpen_iff := by
    intro id
    rw [isOpen_setSlot, hclosed]
    split_ifs with hi
    · rw [hid, hopen, IsOpen, socketOf, hi]
      simp
    · simp

/-- A socket in use is closed, and the message says so. -/
theorem Keeps.of_closed (h : ss.WellPlaced)
    (hused : (ss.slot i).type ≠ .invalid) (hs : s.type = .invalid)
    (haccepted : acceptedId message = none)
    (hclosed : closedId message = some (ss.slot i).id) :
    ss.Keeps message (ss.setSlot i s) where
  accepted := haccepted
  pipe := rfl
  wellPlaced := h.setSlot fun hne => (hne hs).elim
  isOpen_iff := by
    intro id
    have hslot := (h i hused).1
    rw [isOpen_setSlot, hs, hclosed]
    split_ifs with hi
    · constructor
      · rintro ⟨-, hfalse⟩
        cases hfalse
      · rintro ⟨⟨hid, -⟩, hne⟩
        unfold socketOf at hid
        rw [hi] at hid
        exact (hne (congrArg some hid)).elim
    · have hne : (ss.slot i).id ≠ id := fun hid => hi (hid ▸ hslot)
      simp [hne]

/-- A slot without an open connection gets a socket without one. -/
theorem Keeps.of_not_open {id : Int} (h : ss.WellPlaced)
    (hbefore : (ss.socketOf id).type.isOpen = false) (hid : s.id = id)
    (htype : s.type.isOpen = false) (hconnecting : s.type ≠ .connecting) :
    ss.Keeps none (ss.setSlot (hashId id) s) where
  accepted := rfl
  pipe := rfl
  wellPlaced := h.setSlot fun _ => ⟨congrArg hashId hid, hconnecting⟩
  isOpen_iff := by
    intro id'
    unfold socketOf at hbefore
    rw [isOpen_setSlot, htype]
    split_ifs with hslot
    · rw [IsOpen, socketOf, hslot, hbefore]
      simp
    · simp [closedId]

/-- A free slot is taken by an accepted connection. -/
theorem Opens.of_setSlot {id : Int} (h : ss.WellPlaced)
    (hfree : (ss.socketOf id).type = .invalid) (hid : s.id = id)
    (htype : s.type = .paccept) : ss.Opens id (ss.setSlot (hashId id) s) := by
  have hclosed : ∀ other, hashId other = hashId id → ¬ ss.IsOpen other := by
    rintro other hslot ⟨-, hopen⟩
    unfold socketOf at hopen hfree
    rw [hslot, hfree] at hopen
    cases hopen
  refine ⟨rfl, h.setSlot fun _ => ⟨congrArg hashId hid, by rw [htype]; decide⟩,
    hclosed id rfl, fun id' => ?_⟩
  rw [isOpen_setSlot, htype, hid]
  split_ifs with hslot
  · simp [hclosed id' hslot, SocketType.isOpen, eq_comm]
  · have hne : id' ≠ id := fun heq => hslot (congrArg hashId heq)
    simp [hne]

/-- Only the slots and the pipe matter for what was there before. -/
theorem Opens.congr_slot {before : SocketServer} {ud : Int}
    (h : before.Opens ud ss') (hslot : ss.slot = before.slot)
    (hpipe : ss.pipe = before.pipe) : ss.Opens ud ss' := by
  have hopen : ∀ id, ss.IsOpen id ↔ before.IsOpen id := by
    intro id
    rw [IsOpen, IsOpen, socketOf, socketOf, hslot]
  refine ⟨hpipe ▸ h.pipe, h.wellPlaced, ?_, fun id => ?_⟩
  · rw [hopen]
    exact h.fresh
  · rw [hopen]
    exact h.isOpen_iff id

/-- A function on the socket in a slot keeps the account. -/
theorem Accounted.keeps {out : Outcome} (h : ss.WellPlaced) (hout : Accounted (ss.slot i) out) :
    ss.Keeps (ss.finish i out).2 (ss.finish i out).1 := by
  cases hout with
  | kept hid htype hmessage =>
    by_cases hused : (ss.slot i).type = .invalid
    · -- a free slot is written
      refine ⟨hmessage.2, rfl, h.setSlot fun hne => ?_, fun id => ?_⟩
      · exact absurd (htype.trans hused) hne
      · rw [finish, isOpen_setSlot, hmessage.1, htype, hused]
        split_ifs with hi
        · rw [IsOpen, socketOf, hi, hused]
          simp [SocketType.isOpen]
        · simp
    · exact .of_setSlot h hused hid (htype ▸ (h i hused).2) (by rw [htype]) hmessage.2 hmessage.1
  | started hid htype hmessage =>
    have hused : (ss.slot i).type ≠ .invalid := by
      rcases htype with ⟨hwas, -⟩ | ⟨hwas, -⟩
      · simp [hwas]
      · simp [hwas]
    refine .of_setSlot h hused hid ?_ ?_ hmessage.2 hmessage.1
    · rcases htype with ⟨-, his⟩ | ⟨-, his⟩
      · simp [his]
      · simp [his]
    · rcases htype with ⟨hwas, his⟩ | ⟨hwas, his⟩
      · rw [hwas, his]
        rfl
      · rw [hwas, his]
        rfl
  | closed hused htype hmessage =>
    exact .of_closed h hused htype hmessage.2 hmessage.1

/-! ## Requests -/

theorem keeps_startSocket (h : ss.WellPlaced) (id : Int) (spAdd : Bool) :
    ss.Keeps
      (ss.finish (hashId id) (Socket.startSocket (ss.socketOf id) id socketServerOpaque spAdd)).2
      (ss.finish (hashId id)
        (Socket.startSocket (ss.socketOf id) id socketServerOpaque spAdd)).1 := by
  by_cases hgone : (ss.socketOf id).type = .invalid ∨ (ss.socketOf id).id ≠ id
  · -- a socket that is gone has not been open under this id
    have hclosed : ¬ ss.IsOpen id := by
      rintro ⟨hid, hopen⟩
      rcases hgone with hinvalid | hother
      · rw [hinvalid] at hopen
        cases hopen
      · exact hother hid
    have hsame : ss.setSlot (hashId id) (ss.socketOf id) = ss := by
      rw [setSlot, socketOf, Function.update_eq_self]
    rw [Socket.startSocket, if_pos hgone, finish, hsame]
    exact .of_not_isOpen h hclosed rfl rfl
  · rw [not_or, not_not] at hgone
    exact Accounted.keeps h (accounted_startSocket hgone _ spAdd)

/-- A reserved slot gets a socket that is not polled yet. -/
theorem keeps_listenSocket {id fd : Int} {owner : Nat} {out : Outcome} (h : ss.WellPlaced)
    (hlisten : Socket.listenSocket (ss.socketOf id) id fd owner = some out) :
    ss.Keeps (ss.finish (hashId id) out).2 (ss.finish (hashId id) out).1 := by
  obtain ⟨result, hnew, rfl⟩ := Option.map_eq_some_iff.mp hlisten
  obtain ⟨htype, ⟨hadd, -⟩ | ⟨-, rfl⟩⟩ := Socket.newFd_cases hnew
  · cases hadd
  · exact .of_not_open h (by rw [htype]; rfl) rfl rfl (by simp)

/-- **Requests keep the account.** -/
theorem keeps_ctrlCmd {request : CtrlRequest} (h : ss.WellPlaced)
    (hcmd : ss.ctrlCmd answers request = some (ss', message)) :
    ss.Keeps message ss' := by
  cases request with
  | start id =>
    have hkeeps := keeps_startSocket h id answers.spAdd
    rwa [Option.some.inj hcmd] at hkeeps
  | listen id =>
    obtain ⟨out, hout, hfinish⟩ := Option.map_eq_some_iff.mp hcmd
    have hkeeps := keeps_listenSocket h hout
    rwa [hfinish] at hkeeps
  | send id buffer =>
    obtain ⟨out, hout, hfinish⟩ := Option.map_eq_some_iff.mp hcmd
    have hkeeps := Accounted.keeps h (accounted_sendSocket hout)
    rwa [hfinish] at hkeeps

/-! ## Accepting -/

/-- The slot of the id that the next round tries. -/
theorem hashId_allocId (n : Nat) : hashId ((n % 2 ^ 31 : Nat) : Int) = n % maxSocket := by
  unfold hashId maxSocket
  omega

/-- An id is reserved in a free slot. -/
theorem reserveIdFrom_eq_some {rounds : Nat} {id : Int}
    (hreserve : reserveIdFrom rounds ss = (ss', some id)) :
    (ss.socketOf id).type = .invalid ∧
      ∃ allocId, ss' = { ss with allocId := allocId }.setSlot (hashId id)
        ((ss.socketOf id).reserved id) := by
  induction rounds generalizing ss with
  | zero => cases hreserve
  | succ rounds ih =>
    rw [reserveIdFrom] at hreserve
    dsimp only at hreserve
    split_ifs at hreserve with hfree
    · cases hreserve
      exact ⟨hfree, _, rfl⟩
    · obtain ⟨hfree, allocId, rfl⟩ := ih hreserve
      exact ⟨hfree, allocId, rfl⟩

/-- Without an id only the last id given out has changed. -/
theorem reserveIdFrom_eq_none {rounds : Nat} (hreserve : reserveIdFrom rounds ss = (ss', none)) :
    ∃ allocId, ss' = { ss with allocId := allocId } := by
  induction rounds generalizing ss with
  | zero =>
    cases hreserve
    exact ⟨_, rfl⟩
  | succ rounds ih =>
    rw [reserveIdFrom] at hreserve
    dsimp only at hreserve
    split_ifs at hreserve
    · cases hreserve
    · obtain ⟨allocId, rfl⟩ := ih hreserve
      exact ⟨allocId, rfl⟩

theorem keeps_reserveId {id : Option Int} (h : ss.WellPlaced)
    (hreserve : ss.reserveId = (ss', id)) : ss.Keeps none ss' := by
  cases id with
  | none =>
    obtain ⟨allocId, rfl⟩ := reserveIdFrom_eq_none hreserve
    have hkeeps : ss.Keeps none ss := .refl h rfl rfl
    exact ⟨rfl, rfl, h, hkeeps.isOpen_iff⟩
  | some id =>
    obtain ⟨hfree, allocId, rfl⟩ := reserveIdFrom_eq_some hreserve
    have hbefore : (ss.socketOf id).type.isOpen = false := by
      rw [hfree]
      rfl
    have hkeeps := Keeps.of_not_open h hbefore (s := (ss.socketOf id).reserved id) rfl rfl
      (by simp [Sock.reserved, Sock.named])
    exact ⟨rfl, rfl, hkeeps.wellPlaced, hkeeps.isOpen_iff⟩

/-- The loop ends without an id when all the slots it tries are in use. -/
theorem reserveIdFrom_snd_eq_none_iff {rounds : Nat} :
    (reserveIdFrom rounds ss).2 = none ↔ ∀ k < rounds,
      (ss.slot ((ss.allocId + 1 + k) % maxSocket)).type ≠ .invalid := by
  induction rounds generalizing ss with
  | zero => simp [reserveIdFrom]
  | succ rounds ih =>
    have hslot := hashId_allocId (ss.allocId + 1)
    rw [reserveIdFrom]
    dsimp only
    unfold socketOf
    dsimp only
    rw [hslot]
    split_ifs with hfree
    · constructor
      · intro hsome
        cases hsome
      · intro hall
        exact (hall 0 (by omega) hfree).elim
    · rw [ih]
      dsimp only
      have hround : ∀ k, ((ss.allocId + 1) % 2 ^ 31 + 1 + k) % maxSocket =
          (ss.allocId + 1 + (k + 1)) % maxSocket := by
        intro k
        unfold maxSocket
        omega
      simp only [hround]
      constructor
      · intro hall k hk
        cases k with
        | zero => exact hfree
        | succ k => exact hall k (by omega)
      · intro hall k hk
        exact hall (k + 1) (by omega)

/-- **`reserve_id` finds a free slot if there is one.** -/
theorem reserveId_snd_eq_none_iff :
    ss.reserveId.2 = none ↔
      ∀ i < maxSocket, (ss.slot i).type ≠ .invalid := by
  rw [reserveId, reserveIdFrom_snd_eq_none_iff]
  constructor
  · intro hall i hi
    -- the round in which slot `i` is tried
    have hround := hall ((i + maxSocket - (ss.allocId + 1) % maxSocket) % maxSocket)
      (Nat.mod_lt _ (by decide))
    have hslot : (ss.allocId + 1 + (i + maxSocket -
        (ss.allocId + 1) % maxSocket) % maxSocket) % maxSocket = i := by
      unfold maxSocket at hi ⊢
      omega
    rwa [hslot] at hround
  · intro hall k _
    exact hall _ (Nat.mod_lt _ (by decide))

/-- The next event is that of a listening socket. -/
def NextListens (ss : SocketServer) : Prop :=
  ∃ e rest i, ss.ev = e :: rest ∧ e.s = some i ∧ (ss.slot i).type = .listen

/-- There is a free slot. -/
def HasFree (ss : SocketServer) : Prop :=
  ∃ i < maxSocket, (ss.slot i).type = .invalid

/-- A connection is waiting at the listening socket whose event is next, and
there is a free slot for it. -/
def Accepting (ss : SocketServer) (answers : SystemAnswers) : Prop :=
  ss.NextListens ∧ answers.accept = true ∧ ss.HasFree

/-- What taking an event can lead to. -/
inductive EventTaken (ss : SocketServer) (answers : SystemAnswers) :
    Option SocketMessage → SocketServer → Prop
  | accepted {listener ud : Int} {ss' : SocketServer}
      (haccepting : ss.Accepting answers) (hopens : ss.Opens ud ss') :
      EventTaken ss answers (some (.socketAccept listener ud)) ss'
  | other {message : Option SocketMessage} {ss' : SocketServer}
      (haccepting : ¬ ss.Accepting answers) (hkeeps : ss.Keeps message ss') :
      EventTaken ss answers message ss'

/-- `report_accept` opens a connection if one is waiting and a slot is free. -/
theorem reportAccept_cases (h : ss.WellPlaced)
    (haccept : ss.reportAccept i answers = some (ss', message)) :
    (answers.accept = true ∧ ss.HasFree ∧ ∃ listener ud,
      message = some (.socketAccept listener ud) ∧ ss.Opens ud ss') ∨
    (¬ (answers.accept = true ∧ ss.HasFree) ∧ ss.Keeps message ss') := by
  have hfree : ss.HasFree ↔ ss.reserveId.2 ≠ none := by
    rw [ne_eq, reserveId_snd_eq_none_iff, HasFree]
    push Not
    rfl
  rw [hfree]
  unfold reportAccept at haccept
  split at haccept
  · rename_i hwaiting
    split at haccept
    · rename_i mid hreserve
      cases haccept
      exact Or.inr ⟨fun hfound => hfound.2 (by rw [hreserve]), keeps_reserveId h hreserve⟩
    · rename_i mid id hreserve
      obtain ⟨hinvalid, allocId, rfl⟩ := reserveIdFrom_eq_some hreserve
      obtain ⟨out, hout, heq⟩ := Option.map_eq_some_iff.mp haccept
      have hsock := Socket.sock_of_acceptSocket hout
      cases heq
      rw [hsock, setSlot_setSlot]
      have hplaced : { ss with allocId := allocId }.WellPlaced := h
      refine Or.inl ⟨hwaiting, by rw [hreserve]; simp, _, id, rfl, ?_⟩
      exact (Opens.of_setSlot hplaced hinvalid rfl rfl).congr_slot rfl rfl
  · rename_i hnone
    cases haccept
    exact Or.inr ⟨fun hfound => hnone hfound.1, .refl h rfl rfl⟩

theorem clearClosedEvent_eq (ss : SocketServer) (message : Option SocketMessage) :
    ∃ events, ss.clearClosedEvent message = { ss with ev := events } := by
  unfold clearClosedEvent
  split
  · exact ⟨ss.ev, rfl⟩
  · exact ⟨_, rfl⟩

/-- The events have nothing to do with the account. -/
theorem Keeps.congr_ev {before after : List SocketEvent}
    (h : { ss with ev := before }.Keeps message ss') :
    ss.Keeps message { ss' with ev := after } :=
  ⟨h.accepted, h.pipe, h.wellPlaced, h.isOpen_iff⟩

theorem Keeps.cleared (before : List SocketEvent) (h : { ss with ev := before }.Keeps message ss') :
    ss.Keeps message (ss'.clearClosedEvent message) := by
  obtain ⟨events, hclear⟩ := clearClosedEvent_eq ss' message
  rw [hclear]
  exact h.congr_ev

/-- The next event is known. -/
theorem nextListens_iff {e : SocketEvent} {rest : List SocketEvent}
    (hev : ss.ev = e :: rest) : ss.NextListens ↔
      ∃ i, e.s = some i ∧ (ss.slot i).type = .listen := by
  rw [NextListens, hev]
  constructor
  · rintro ⟨e', rest', i, heq, hlisten⟩
    cases heq
    exact ⟨i, hlisten⟩
  · rintro ⟨i, hlisten⟩
    exact ⟨e, rest, i, rfl, hlisten⟩

/-- **Events keep the account.** -/
theorem eventTaken_of_takeEvent (h : ss.WellPlaced)
    (htake : ss.takeEvent answers = some (ss', message)) :
    ss.EventTaken answers message ss' := by
  unfold takeEvent at htake
  split at htake
  · cases htake
  · rename_i e rest hev
    dsimp only at htake
    have hlistens := nextListens_iff hev
    have hrest : { ss with ev := rest }.WellPlaced := h
    split at htake
    · rename_i hs
      cases htake
      refine .other (fun haccepting => ?_) (Keeps.refl hrest rfl rfl).congr_ev
      obtain ⟨i, hi, -⟩ := hlistens.mp haccepting.1
      rw [hs] at hi
      cases hi
    · rename_i i hs
      have hlisten : ss.NextListens ↔ (ss.slot i).type = .listen := by
        rw [hlistens, hs]
        simp
      by_cases htype : (ss.slot i).type = .listen
      · rw [if_pos htype] at htake
        rcases reportAccept_cases hrest htake with
          ⟨hwaiting, hfree, listener, ud, rfl, hopens⟩ | ⟨hnone, hkeeps⟩
        · exact .accepted ⟨hlisten.mpr htype, hwaiting, hfree⟩ (hopens.congr_slot rfl rfl)
        · exact .other (fun haccepting => hnone haccepting.2) hkeeps.congr_ev
      · have hnot : ¬ ss.Accepting answers := fun haccepting =>
          htype (hlisten.mp haccepting.1)
        have hconnecting : (ss.slot i).type ≠ .connecting := by
          intro hconnecting
          exact (h i (by simp [hconnecting])).2 hconnecting
        rw [if_neg htype] at htake
        obtain ⟨out, hout, heq⟩ := Option.map_eq_some_iff.mp htake
        rw [if_neg hconnecting] at heq
        obtain ⟨rfl, rfl⟩ := Prod.mk.inj heq
        refine .other hnot (.cleared (Socket.Table.eventsAfter (ss.slot i) e rest out.message) ?_)
        exact Accounted.keeps h (accounted_pollEvent hconnecting hout)

end SocketServer
end Network
end GameServer
