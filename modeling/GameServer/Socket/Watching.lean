import GameServer.Socket.WriteAccount

/-!
# Watching a socket for writing

What is queued on a socket is sent when the poll reports that it can be written,
so the event for writing has to be enabled as long as something is queued.
`Watched` is the invariant.  The sockets of `bind_socket` are the exception:
`send_socket` queues for them and never enables the event.

The same invariant says when nothing is queued, which completes the accounts of
a closed socket.
-/

namespace GameServer
namespace Socket

open Lib Network

/-! ## The event for writing -/

/-- Whether the event for writing is enabled after a call.  `sp_add` enables the
event for reading only. -/
def SysCall.watch (on : Bool) : SysCall → Bool
  | .spAdd _ | .spDel => false
  | .spWrite enable => enable
  | _ => on

/-- Whether the event is enabled after the calls. -/
def watch (calls : List SysCall) (on : Bool) : Bool :=
  calls.foldl SysCall.watch on

@[simp] theorem watch_nil (on : Bool) : watch [] on = on := rfl

@[simp] theorem watch_cons (call : SysCall) (calls : List SysCall)
    (on : Bool) : watch (call :: calls) on = watch calls (call.watch on) := rfl

@[simp] theorem watch_append (first second : List SysCall) (on : Bool) :
    watch (first ++ second) on = watch second (watch first on) :=
  List.foldl_append

theorem SysCall.IsSend.watch_eq {call : SysCall} (h : call.IsSend)
    (on : Bool) : call.watch on = on := by
  cases call with
  | write | sendto => rfl
  | _ => cases h

theorem SysCall.IsRead.watch_eq {call : SysCall} (h : call.IsRead)
    (on : Bool) : call.watch on = on := by
  cases call with
  | spAdd | spWrite | spDel => cases h
  | _ => rfl

@[simp] theorem watch_freeWbList (list : List WriteBuffer) (on : Bool) :
    watch (freeWbList list) on = on := by
  induction list with
  | nil => rfl
  | cons wb rest ih => exact ih

variable {calls : List SysCall} {s : Sock} {on : Bool} {b : Birth}
  {out : Outcome} {answers : List WriteAnswer}

theorem Sends.watch_eq {protocol : Protocol} {list left : List WriteBuffer}
    (h : Sends protocol list left calls) (on : Bool) : watch calls on = on := by
  induction h with
  | stop list => rfl
  | failed list => rfl
  | part hprotocol tmp rest hn => rfl
  | whole tmp hsent hcall hrest ih =>
    rw [watch_cons, hcall.watch_eq]
    exact ih

/-- Closing never enables the event. -/
theorem watch_closeCalls (type : SocketType) : watch (closeCalls type) false = false := by
  cases type <;> rfl

/-- The types of socket that nothing is queued on. -/
def idleType (type : SocketType) : Prop :=
  type = .invalid ∨ type = .paccept ∨ type = .plisten ∨ type = .listen

/-- A socket with the event on or off, by how it began. -/
structure Watched (b : Birth) (s : Sock) (on : Bool) : Prop where
  reserve : s.type ≠ .reserve
  idle : idleType s.type → s.pending = []
  bound : b = .bound →
    (s.type = .bind ∨ s.type = .halfclose ∨ s.type = .invalid) ∧ on = false
  bind : b ≠ .bound → s.type ≠ .bind
  connecting : s.type = .connecting → on = true
  pending : b ≠ .bound → s.pending ≠ [] → on = true

theorem Watched.of_invalid (htype : s.type = .invalid)
    (hpending : s.pending = []) (hbound : b = .bound → on = false) : Watched b s on where
  reserve := by simp [htype]
  idle := fun _ => hpending
  bound := fun hb => ⟨.inr (.inr htype), hbound hb⟩
  bind := fun _ => by simp [htype]
  connecting := by simp [htype]
  pending := fun _ hne => absurd hpending hne

/-- The type and the lists stay the same. -/
theorem Watched.congr {s' : Sock} (h : Watched b s on)
    (htype : s'.type = s.type) (hpending : s'.pending = s.pending) : Watched b s' on where
  reserve := htype ▸ h.reserve
  idle := by
    rw [htype, hpending]
    exact h.idle
  bound := by
    rw [htype]
    exact h.bound
  bind := htype ▸ h.bind
  connecting := by
    rw [htype]
    exact h.connecting
  pending := hpending ▸ h.pending

theorem watched_closeWith {s' : Sock} {type : MessageType}
    (h : closeWith s' calls type = some out) (htype : s'.type ≠ .invalid)
    (hbound : b = .bound → watch calls on = false) :
    Watched b out.sock (watch out.calls on) := by
  obtain ⟨-, rfl⟩ := closeWith_eq_some htype h
  refine .of_invalid rfl rfl fun hb => ?_
  simp [hbound hb, watch_closeCalls]

/-- Sending takes buffers away. -/
theorem Sends.length_le {protocol : Protocol} {list left : List WriteBuffer}
    (h : Sends protocol list left calls) : left.length ≤ list.length := by
  induction h with
  | stop list => exact le_rfl
  | failed list => exact le_rfl
  | part hprotocol tmp rest hn => exact le_rfl
  | whole tmp hsent hcall hrest ih => exact Nat.le_succ_of_le ih

/-- `send_buffer` disables the event when nothing is left. -/
theorem SendsBuffer.watch_eq (h : SendsBuffer s answers out)
    (hmessage : out.message = none) (on : Bool) :
    (watch out.calls on = on ∨ out.sock.pending = [] ∧ watch out.calls on = false) ∧
      (s.pending = [] → out.sock.pending = []) := by
  have hnone : ∀ {list left : List WriteBuffer} {calls : List SysCall},
      Sends s.protocol list left calls → list = [] → left = [] := by
    rintro list left calls hsends rfl
    exact List.length_eq_zero_iff.mp (Nat.le_zero.mp hsends.length_le)
  cases h with
  | highFailed hfailed hhigh hout =>
    exact absurd hout (closeWith_ne_of_message hmessage)
  | lowFailed hfailed hhigh hlow hout =>
    exact absurd hout (closeWith_ne_of_message hmessage)
  | closed hhigh hlow htype hout =>
    exact absurd hout (closeWith_ne_of_message hmessage)
  | highLeft hhigh hleft hsize =>
    refine ⟨.inl (hhigh.watch_eq on), fun hempty => ?_⟩
    rw [Sock.pending, List.append_eq_nil_iff] at hempty
    exact absurd (hnone hhigh hempty.1) hleft
  | raised hhigh hlow huncomplete hsize =>
    refine ⟨.inl ?_, fun hempty => ?_⟩
    · rw [watch_append, hhigh.watch_eq, hlow.watch_eq]
    · rw [Sock.pending, List.append_eq_nil_iff] at hempty
      cases hnone hlow hempty.2
  | lowLeft hhigh hlow hsome hcomplete hsize =>
    refine ⟨.inl ?_, fun hempty => ?_⟩
    · rw [watch_append, hhigh.watch_eq, hlow.watch_eq]
    · rw [Sock.pending, List.append_eq_nil_iff] at hempty
      exact absurd hempty.2 hsome
  | finished hhigh hlow htype hsize =>
    have hpending : ∀ wbSize, Sock.pending
        { s with high := [], wbSize := wbSize } = [] := by
      intro wbSize
      simp [Sock.pending, hlow]
    exact ⟨.inr ⟨hpending _, by simp [SysCall.watch]⟩, fun _ => hpending _⟩

/-- When it closes the socket, that is closed. -/
theorem SendsBuffer.watched_of_message (hs : Watched b s on)
    (htype : s.type ≠ .invalid) (h : SendsBuffer s answers out)
    (hmessage : out.message ≠ none) :
    Watched b out.sock (watch out.calls on) := by
  have hoff : b = .bound → on = false := fun hb => (hs.bound hb).2
  cases h with
  | highFailed hfailed hhigh hout =>
    refine watched_closeWith hout htype fun hb => ?_
    rw [hhigh.watch_eq, hoff hb]
  | lowFailed hfailed hhigh hlow hout =>
    refine watched_closeWith hout htype fun hb => ?_
    rw [watch_append, hhigh.watch_eq, hlow.watch_eq, hoff hb]
  | closed hhigh hlow hhalf hout =>
    refine watched_closeWith hout htype fun _ => ?_
    rw [watch_append]
    rfl
  | highLeft => exact absurd rfl hmessage
  | raised => exact absurd rfl hmessage
  | lowLeft => exact absurd rfl hmessage
  | finished => exact absurd rfl hmessage

theorem SendsBuffer.watched (hs : Watched b s on) (htype : s.type ≠ .invalid ∧ s.type ≠ .connecting)
    (h : SendsBuffer s answers out) :
    Watched b out.sock (watch out.calls on) := by
  by_cases hmessage : out.message = none
  · obtain ⟨hwatch, hempty⟩ := h.watch_eq hmessage on
    have hsame : out.sock.type = s.type := by
      rw [(h.same hmessage).1]
    exact
      { reserve := hsame ▸ hs.reserve
        idle := fun hidle => hempty (hs.idle (hsame ▸ hidle))
        bound := fun hb => by
          obtain ⟨hbind, hoff⟩ := hs.bound hb
          rw [hsame]
          rcases hwatch with hwatch | ⟨-, hwatch⟩
          · exact ⟨hbind, hwatch.trans hoff⟩
          · exact ⟨hbind, hwatch⟩
        bind := hsame ▸ hs.bind
        connecting := fun hconnecting =>
          absurd (hsame ▸ hconnecting) htype.2
        pending := fun hb hne => by
          rcases hwatch with hwatch | ⟨hnone, -⟩
          · exact hwatch.trans (hs.pending hb (mt hempty hne))
          · exact absurd hnone hne }
  · exact h.watched_of_message hs htype.1 hmessage

theorem ClosesSocket.watched {id : Int} {owner : Nat} (hs : Watched b s on)
    (h : ClosesSocket s id owner answers out) :
    Watched b out.sock (watch out.calls on) := by
  cases h with
  | absent habsent => exact hs
  | ended hhere hsome hsent hmessage =>
    exact hsent.watched_of_message hs hhere.1 hmessage
  | @closed sent hhere hreserve hsent hmessage hempty =>
    refine .of_invalid rfl (sendBufferEmpty_iff.mp hempty) fun hb => ?_
    have hoff := (hs.bound hb).2
    have hfalse : watch sent.calls on = false := by
      rcases hsent with ⟨-, rfl⟩ | ⟨-, hsent⟩
      · exact hoff
      · rcases (hsent.watch_eq hmessage on).1 with hwatch | ⟨-, hwatch⟩
        · exact hwatch.trans hoff
        · exact hwatch
    rw [watch_append, hfalse, watch_closeCalls]
  | @half sent hhere hsome hsent hmessage hleft =>
    rw [sendBufferEmpty_iff] at hleft
    obtain ⟨hwatch, hempty⟩ := hsent.watch_eq hmessage on
    have hsame : watch sent.calls on = on :=
      hwatch.resolve_right fun h => hleft h.1
    have hpending : s.pending ≠ [] := mt hempty hleft
    exact
      { reserve := by simp
        idle := by simp [idleType]
        bound := fun hb => ⟨.inr (.inl rfl), hsame.trans (hs.bound hb).2⟩
        bind := by simp
        connecting := by simp
        pending := fun hb _ => hsame.trans (hs.pending hb hpending) }

theorem type_appendTo (s : Sock) (priority : Priority) (wb : WriteBuffer) :
    (appendTo s priority wb).type = s.type := by
  cases priority <;> rfl

/-- A buffer is put on a list of a socket that is not idle. -/
theorem Watched.append {on' : Bool} (hs : Watched b s on) (hidle : ¬ idleType s.type)
    (hon : if b = .bound then on' = false else on' = true) (priority : Priority)
    (wb : WriteBuffer) : Watched b (appendTo s priority wb) on' := by
  have htype := type_appendTo s priority wb
  exact
    { reserve := htype ▸ hs.reserve
      idle := fun h => absurd (htype ▸ h) hidle
      bound := fun hb => by
        rw [htype]
        rw [if_pos hb] at hon
        exact ⟨(hs.bound hb).1, hon⟩
      bind := htype ▸ hs.bind
      connecting := fun h => by
        have hb : b ≠ .bound := by
          intro hb
          have hbind := (hs.bound hb).1
          simp [htype ▸ h] at hbind
        rwa [if_neg hb] at hon
      pending := fun hb _ => by rwa [if_neg hb] at hon }

theorem SendsSocket.watched {id : Int} {request : RequestSend}
    {priority : Priority} {udpAddress : Option (List Byte)}
    {answer : WriteAnswer} (hs : Watched b s on)
    (h : SendsSocket s id request priority udpAddress answer out) :
    Watched b out.sock (watch out.calls on) := by
  -- a socket that is connected was not bound
  have hconnected : s.type = .connected → b ≠ .bound := by
    intro htype hb
    have hbind := (hs.bound hb).1
    simp [htype] at hbind
  cases h with
  | dropped hdrops => exact hs
  | failed hopen hempty htype hprotocol hfailed hout =>
    exact watched_closeWith hout (by simp [htype]) fun hb => (hs.bound hb).2
  | direct hopen hempty htype hfailed hsent hcall =>
    rw [watch_cons, hcall.watch_eq]
    exact hs
  | part hopen hempty htype hprotocol hfailed hn =>
    refine hs.append (by simp [idleType, htype]) ?_ .high _
    rw [if_neg (hconnected htype)]
    rfl
  | waits hopen hempty htype hprotocol hpackage =>
    refine hs.append (by simp [idleType, htype]) ?_ priority _
    rw [if_neg (hconnected htype)]
    rfl
  | behind hopen hbusy hlisten hpackage =>
    simp only [Sock.drops, not_or] at hopen hlisten
    refine hs.append ?_ ?_ priority _
    · simp only [idleType, not_or]
      exact ⟨hopen.1, hopen.2.2.2, hlisten.1, hlisten.2⟩
    · split_ifs with hb
      · exact (hs.bound hb).2
      · by_cases hpending : s.pending = []
        · -- nothing is queued, so the socket is not connected yet
          have hnot : s.type ≠ .connected := fun htype =>
            hbusy ⟨sendBufferEmpty_iff.mpr hpending, htype⟩
          refine hs.connecting ?_
          have hbind := hs.bind hb
          have hreserve := hs.reserve
          cases htype : s.type <;> simp_all
        · exact hs.pending hb hpending

theorem ActsOther.watched {a : SockAction} (hs : Watched b s on)
    (h : ActsOther s a out) : Watched b out.sock (watch out.calls on) := by
  have hwaits : ∀ {type}, s.type = type → type ≠ .bind → type ≠ .halfclose →
      type ≠ .invalid → b ≠ .bound := by
    rintro type rfl hbind hhalf hinvalid hb
    rcases (hs.bound hb).1 with h | h | h
    · exact hbind h
    · exact hhalf h
    · exact hinvalid h
  cases h with
  | same owner message hp => exact hs.congr rfl rfl
  | @started a owner message type htype =>
    have hidle : s.pending = [] := by
      refine hs.idle ?_
      rcases htype with ⟨htype, -⟩ | ⟨htype, -⟩
      · exact .inr (.inl htype)
      · exact .inr (.inr (.inl htype))
    have hb : b ≠ .bound := by
      rcases htype with ⟨htype, -⟩ | ⟨htype, -⟩
      · exact hwaits htype (by simp) (by simp) (by simp)
      · exact hwaits htype (by simp) (by simp) (by simp)
    have hnew : type = .connected ∨ type = .listen :=
      htype.imp And.right And.right
    exact
      { reserve := by rcases hnew with rfl | rfl <;> simp
        idle := fun _ => hidle
        bound := fun h => absurd h hb
        bind := fun _ => by rcases hnew with rfl | rfl <;> simp
        connecting := by rcases hnew with rfl | rfl <;> simp
        pending := fun _ hne => absurd hidle hne }
  | refused message htype =>
    refine .of_invalid rfl (hs.idle ?_) fun _ => rfl
    rcases htype with htype | htype
    · exact .inr (.inl htype)
    · exact .inr (.inr (.inl htype))
  | setopt what value htype => exact hs
  | read call hcall message hp =>
    rw [watch_cons, hcall.watch_eq]
    exact hs.congr rfl rfl
  | connected message htype =>
    have hb : b ≠ .bound := hwaits htype (by simp) (by simp) (by simp)
    exact
      { reserve := by simp
        idle := by simp [idleType]
        bound := fun h => absurd h hb
        bind := by simp
        connecting := by simp
        pending := fun _ hne => by
          have hqueued : ¬ sendBufferEmpty s := mt sendBufferEmpty_iff.mp hne
          dsimp only
          rw [if_neg hqueued]
          exact hs.connecting htype }
  | closed htype call hcall hkind hout =>
    refine watched_closeWith hout htype fun hb => ?_
    rw [watch_cons, hcall.watch_eq]
    exact (hs.bound hb).2

theorem Acts.watched {a : SockAction} (hs : Watched b s on) (h : Acts s a out) :
    Watched b out.sock (watch out.calls on) := by
  cases h with
  | send h => exact h.watched hs
  | close h => exact h.watched hs
  | flush htype hread h => exact h.watched hs htype
  | other hsend h => exact h.watched hs

theorem watched_birth (b : Birth) (id fd : Int) (owner : Nat) :
    Watched b (b.sock id fd owner) (watch b.calls false) where
  reserve := by cases b <;> simp [Birth.sock, Birth.type]
  idle := fun _ => rfl
  bound := by
    rintro rfl
    exact ⟨.inl rfl, rfl⟩
  bind := by cases b <;> simp [Birth.sock, Birth.type]
  connecting := by cases b <;> simp [Birth.sock, Birth.type, Birth.calls, SysCall.watch]
  pending := fun _ hne => absurd rfl hne

theorem Life.watched_of_run {id fd : Int} {owner : Nat}
    {actions : List SockAction} {l : Life}
    (hrun : runSteps Life.step (b.life id fd owner) actions = some l) :
    Watched b l.sock (watch l.calls false) := by
  have hkeep : ∀ (l : Life) (a : SockAction) (l' : Life),
      Watched b l.sock (watch l.calls false) → l.step a = some l' →
        Watched b l'.sock (watch l'.calls false) := by
    intro l a l' hl hstep
    obtain ⟨out, hacts, rfl⟩ := exists_of_step hstep
    rw [watch_append]
    exact hacts.watched hl
  exact runSteps_invariant hkeep (watched_birth b id fd owner) hrun

/-- **What is queued will be sent.**  At every moment at which something is
queued on a socket the event for writing is enabled, except on a socket of
`bind_socket`: for those it is never enabled. -/
theorem Life.watches_while_queued {b : Birth} {id fd : Int} {owner : Nat}
    {actions : List SockAction} {l : Life}
    (hrun : runSteps Life.step (b.life id fd owner) actions = some l) :
    (b ≠ .bound → l.sock.pending ≠ [] → watch l.calls false = true) ∧
      (b = .bound → watch l.calls false = false) := by
  have hwatched := Life.watched_of_run hrun
  exact ⟨hwatched.pending, fun hb => (hwatched.bound hb).2⟩

/-- A request is queued on a socket that is being connected. -/
theorem Life.watches_while_queued_connecting :
    ∃ l, runSteps Life.step (Birth.connecting.life 1 5 0)
        [.send 1 ⟨100, none, [7]⟩ .high none .again, .event false true {}] = some l ∧
      l.sock.type = .connected ∧ l.sock.pending ≠ [] ∧
      watch l.calls false = true := by
  obtain ⟨l, hrun⟩ : ∃ l, runSteps Life.step (Birth.connecting.life 1 5 0)
      [.send 1 ⟨100, none, [7]⟩ .high none .again, .event false true {}] = some l := ⟨_, rfl⟩
  have hwatches := (Life.watches_while_queued hrun).1 (by simp)
  obtain ⟨htype, hpending⟩ : l.sock.type = .connected ∧ l.sock.pending ≠ [] := by
    cases hrun
    exact ⟨rfl, List.cons_ne_nil _ _⟩
  exact ⟨l, hrun, htype, hpending, hwatches hpending⟩

/-! ## The accounts of a closed socket -/

/-- An action that loses its buffer closes the socket. -/
theorem Acts.leaked_eq {a : SockAction} (h : Acts s a out) :
    s.leaked a = [] ∨
      (∃ request, s.leaked a = [request]) ∧ s.type ≠ .invalid ∧ out.sock.type = .invalid := by
  cases h with
  | @send id request priority udpAddress answer _ h =>
    cases h with
    | failed hopen hempty htype hprotocol hfailed hout =>
      have hinvalid : s.type ≠ .invalid := by simp [htype]
      obtain ⟨-, rfl⟩ := closeWith_eq_some hinvalid hout
      exact .inr ⟨⟨request, if_pos ⟨hopen, hempty, htype, hprotocol, hfailed⟩⟩, hinvalid, rfl⟩
    | dropped hdrops => exact .inl (if_neg fun h => h.1 hdrops)
    | direct hopen hempty htype hfailed =>
      exact .inl (if_neg fun h => hfailed h.2.2.2.2)
    | part hopen hempty htype hprotocol hfailed =>
      exact .inl (if_neg fun h => hfailed h.2.2.2.2)
    | waits hopen hempty htype hprotocol =>
      exact .inl (if_neg fun h => hprotocol h.2.2.2.1)
    | behind hopen hbusy =>
      exact .inl (if_neg fun h => hbusy ⟨h.2.1, h.2.2.1⟩)
  | close h => exact .inl rfl
  | flush htype hread h => exact .inl rfl
  | other hsend h => exact .inl hsend.2.2

/-- At most one buffer is lost in a life, and it is the last one. -/
theorem Life.leaked_of_run {id fd : Int} {owner : Nat}
    {actions : List SockAction} {l : Life}
    (hrun : runSteps Life.step (b.life id fd owner) actions = some l) :
    l.leaked = [] ∨ l.leaked.length = 1 ∧ l.sock.type = .invalid := by
  have hkeep : ∀ (l : Life) (a : SockAction) (l' : Life),
      (l.leaked = [] ∨ l.leaked.length = 1 ∧ l.sock.type = .invalid) → l.step a = some l' →
        l'.leaked = [] ∨ l'.leaked.length = 1 ∧ l'.sock.type = .invalid := by
    intro l a l' hl hstep
    obtain ⟨out, hacts, rfl⟩ := exists_of_step hstep
    dsimp only
    rcases hacts.leaked_eq with hnone | ⟨⟨request, hone⟩, hopen, hclosed⟩
    · rw [hnone, List.append_nil]
      exact hl.imp_right fun h => ⟨h.1, (hacts.of_invalid h.2).1⟩
    · have hempty := hl.resolve_right fun h => hopen h.2
      rw [hempty, hone]
      exact .inr ⟨rfl, hclosed⟩
  exact runSteps_invariant hkeep (.inl rfl) hrun

/-- **Every buffer is freed once.**  The buffers handed over for a socket are
those that were freed, each by the function that belongs to it, those that are
queued, and those that were lost.  Nothing is queued on a closed socket, and at
most one buffer is lost: the one whose first write failed and closed the
socket. -/
theorem Life.buffers_accounted {b : Birth} {id fd : Int} {owner : Nat}
    {actions : List SockAction} {l : Life}
    (hrun : runSteps Life.step (b.life id fd owner) actions = some l) :
    (freed l.calls ++ l.sock.blocks ++ l.leaked.map RequestSend.block).Perm
        (l.given.map RequestSend.block) ∧
      (l.sock.type = .invalid → l.sock.blocks = []) ∧
      (l.leaked = [] ∨ l.leaked.length = 1 ∧ l.sock.type = .invalid) := by
  refine ⟨(Life.balanced_of_run hrun).blocks, fun htype => ?_, Life.leaked_of_run hrun⟩
  rw [Sock.blocks, (Life.watched_of_run hrun).idle (.inl htype), List.map_nil]

/-- The first package is sent, and the write of the second one fails. -/
theorem Life.buffers_accounted_lost :
    ∃ l, runSteps Life.step (Birth.connected.life 1 5 0)
        [.send 1 ⟨100, none, [7]⟩ .high none (.wrote 1),
          .send 1 ⟨200, none, [8]⟩ .high none .failed] = some l ∧
      l.leaked = [⟨200, none, [8]⟩] ∧ l.sock.blocks = [] ∧
      (freed l.calls ++ l.sock.blocks ++ l.leaked.map RequestSend.block).Perm
          (l.given.map RequestSend.block) := by
  obtain ⟨l, hrun⟩ : ∃ l, runSteps Life.step (Birth.connected.life 1 5 0)
      [.send 1 ⟨100, none, [7]⟩ .high none (.wrote 1),
        .send 1 ⟨200, none, [8]⟩ .high none .failed] = some l := ⟨_, rfl⟩
  obtain ⟨hperm, hclosed, -⟩ := Life.buffers_accounted hrun
  obtain ⟨hleaked, htype⟩ : l.leaked = [⟨200, none, [8]⟩] ∧ l.sock.type = .invalid := by
    cases hrun
    exact ⟨rfl, rfl⟩
  exact ⟨l, hrun, hleaked, hclosed htype, hperm⟩

/-- **`wb_size` counts what has not left.**  It is the number of bytes queued,
and on a stream the bytes that have left and it make up the bytes accepted. -/
theorem Life.write_size_exact {b : Birth} {id fd : Int} {owner : Nat}
    {actions : List SockAction} {l : Life}
    (hrun : runSteps Life.step (b.life id fd owner) actions = some l)
    (hopen : l.sock.type ≠ .invalid) :
    l.sock.wbSize = bytesIn l.sock.pending ∧ (l.sock.protocol = .tcp →
        l.wire.length + l.sock.wbSize = (streamOf l.accepted).length) := by
  have hbalanced := Life.balanced_of_run hrun
  refine ⟨hbalanced.size hopen, fun hprotocol => ?_⟩
  rw [hbalanced.size hopen, ← hbalanced.bytes hprotocol hopen]
  push_cast
  rfl

/-- One byte of three has left. -/
theorem Life.write_size_exact_part :
    ∃ l, runSteps Life.step (Birth.connected.life 1 5 0)
        [.send 1 ⟨100, none, [1, 2, 3]⟩ .high none (.wrote 1)] = some l ∧
      l.sock.wbSize = 2 ∧
      l.wire.length + l.sock.wbSize = (streamOf l.accepted).length := by
  obtain ⟨l, hrun⟩ : ∃ l, runSteps Life.step (Birth.connected.life 1 5 0)
      [.send 1 ⟨100, none, [1, 2, 3]⟩ .high none (.wrote 1)] = some l :=
    ⟨_, rfl⟩
  obtain ⟨htype, hprotocol, hpending⟩ : l.sock.type ≠ .invalid ∧
      l.sock.protocol = .tcp ∧ bytesIn l.sock.pending = 2 := by
    cases hrun
    exact ⟨by decide, rfl, rfl⟩
  obtain ⟨hsize, hbytes⟩ := Life.write_size_exact hrun htype
  exact ⟨l, hrun, by rw [hsize, hpending]; rfl, hbytes hprotocol⟩

end Socket
end GameServer
