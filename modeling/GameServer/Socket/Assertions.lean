import GameServer.Socket.Watching

/-!
# The assertions of the write path

The functions of the write path assert what they expect of the lists, of the
type and of the union of a socket.  Along every run that is what they find, with
one exception: `send_socket` does not expect a socket that listens.
-/

namespace GameServer
namespace Socket

open Lib Network

variable {s : Sock}

theorem isSome_closeWith (h : s.type ≠ .reserve) (calls : List SysCall)
    (type : MessageType) : (closeWith s calls type).isSome := by
  rw [closeWith, Option.isSome_map]
  unfold forceClose
  split
  · rfl
  · contradiction
  · rfl

/-- `send_buffer` finds the list of low priority as it expects it, and so does
`raise_uncomplete` the one of high priority. -/
theorem isSome_sendBuffer (hcomplete : Complete s.low)
    (hreserve : s.type ≠ .reserve) (answers : List WriteAnswer) :
    (sendBuffer s answers).isSome := by
  rw [sendBuffer, if_neg (by simp [listUncomplete_of_complete hcomplete])]
  dsimp only
  split_ifs with hfailed hempty hlow hlowFailed hraise hhalf
  · exact isSome_closeWith (by exact hreserve) _ _
  · exact isSome_closeWith (by exact hreserve) _ _
  · rw [Option.isSome_map]
    generalize (sendList _ s.low _ _).list = low at hraise
    cases low with
    | nil => simp [listUncomplete] at hraise
    | cons wb rest => simp [raiseUncomplete, hempty]
  · rfl
  · exact isSome_closeWith (by exact hreserve) _ _
  · rfl
  · rfl

theorem isSome_closeSent {sent : Outcome} (h : sent.sock.type ≠ .reserve)
    (id : Int) (owner : Nat) : (closeSent id owner sent).isSome := by
  rw [closeSent]
  split_ifs with hmessage hempty
  · rfl
  · rw [Option.isSome_map]
    unfold forceClose
    split
    · rfl
    · contradiction
    · rfl
  · rfl

theorem isSome_closeSocket (hcomplete : Complete s.low)
    (hreserve : s.type ≠ .reserve) (id : Int) (owner : Nat)
    (answers : List WriteAnswer) : (closeSocket s id owner answers).isSome := by
  rw [closeSocket]
  split_ifs with habsent hempty
  · rfl
  · exact isSome_closeSent hreserve id owner
  · obtain ⟨sent, hsent⟩ :=
      Option.isSome_iff_exists.mp (isSome_sendBuffer hcomplete hreserve answers)
    rw [hsent, Option.bind_some]
    by_cases hmessage : sent.message = none
    · refine isSome_closeSent ?_ id owner
      rw [((sendsBuffer_of_sendBuffer hsent).same hmessage).1]
      exact hreserve
    · rw [closeSent, if_pos hmessage]
      rfl

/-- The union of a socket holds what its protocol needs. -/
def Sock.Typed (s : Sock) : Prop :=
  s.p.isAddress = decide (s.protocol ≠ .tcp)

theorem p_closeWith {calls : List SysCall} {type : MessageType} {out : Outcome}
    (h : closeWith s calls type = some out) : out.sock.p = s.p := by
  obtain ⟨closed, hclosed, rfl⟩ := Option.map_eq_some_iff.mp h
  unfold forceClose at hclosed
  split at hclosed
  · cases hclosed
    rfl
  · cases hclosed
  · cases hclosed
    rfl

theorem SendsBuffer.p_eq {answers : List WriteAnswer} {out : Outcome}
    (h : SendsBuffer s answers out) : out.sock.p = s.p := by
  cases h with
  | highFailed hfailed hhigh hout => rw [p_closeWith hout]
  | lowFailed hfailed hhigh hlow hout => rw [p_closeWith hout]
  | closed hhigh hnone hhalf hout => rw [p_closeWith hout]
  | highLeft => rfl
  | raised => rfl
  | lowLeft => rfl
  | finished => rfl

theorem Acts.isAddress_eq {a : SockAction} {out : Outcome} (h : Acts s a out) :
    out.sock.p.isAddress = s.p.isAddress := by
  have happend : ∀ priority wb, (appendTo s priority wb).p = s.p := by
    intro priority wb
    cases priority <;> rfl
  cases h with
  | send h =>
    cases h with
    | dropped => rfl
    | failed hopen hempty htype hprotocol hfailed hout =>
      rw [p_closeWith hout]
    | direct => rfl
    | part => rfl
    | waits => rw [happend]
    | behind => rw [Sock.quiet, happend]
  | close h =>
    cases h with
    | absent => rfl
    | ended hhere hsome hsent hmessage => rw [hsent.p_eq]
    | closed hhere hreserve hsent hmessage hempty =>
      rcases hsent with ⟨-, rfl⟩ | ⟨-, hsent⟩
      · rfl
      · rw [hsent.p_eq]
    | half hhere hsome hsent hmessage hleft => rw [hsent.p_eq]
  | flush htype hread h => rw [h.p_eq]
  | other hsend h =>
    cases h with
    | same owner message hp => exact hp
    | started => rfl
    | refused => rfl
    | setopt => rfl
    | read call hcall message hp => exact hp
    | connected => rfl
    | closed htype call hcall hkind hout => rw [p_closeWith hout]

theorem Life.typed_of_run {b : Birth} {id fd : Int} {owner : Nat}
    {actions : List SockAction} {l : Life}
    (hrun : runSteps Life.step (b.life id fd owner) actions = some l) :
    l.sock.Typed := by
  have hkeep : ∀ (l : Life) (a : SockAction) (l' : Life), l.sock.Typed →
      l.step a = some l' → l'.sock.Typed := by
    intro l a l' hl hstep
    obtain ⟨out, hacts, rfl⟩ := exists_of_step hstep
    show out.sock.Typed
    rw [Sock.Typed, hacts.isAddress_eq, hacts.accounts.protocol]
    exact hl
  have hbirth : (b.sock id fd owner).Typed := by
    cases b <;> rfl
  exact runSteps_invariant hkeep hbirth hrun

theorem Sock.Typed.exists_size (h : s.Typed) (hprotocol : s.protocol = .tcp) :
    ∃ sz, s.p = .size sz := by
  cases hp : s.p with
  | size sz => exact ⟨sz, rfl⟩
  | udpAddress address => simp [Sock.Typed, hp, hprotocol, SocketP.isAddress] at h

theorem Sock.Typed.exists_address (h : s.Typed) (hprotocol : s.protocol ≠ .tcp) :
    ∃ address, s.p = .udpAddress address := by
  cases hp : s.p with
  | size sz => simp [Sock.Typed, hp, hprotocol, SocketP.isAddress] at h
  | udpAddress address => exact ⟨address, rfl⟩

theorem isSome_addressFor (h : s.Typed) (hprotocol : s.protocol ≠ .tcp)
    (udpAddress : Option (List Byte)) : (s.addressFor udpAddress).isSome := by
  cases udpAddress with
  | some address => rfl
  | none =>
    obtain ⟨address, hp⟩ := h.exists_address hprotocol
    simp [Sock.addressFor, hp]

/-- The only assertion of `send_socket` that can fail. -/
theorem sendSocket_eq_none_iff (htyped : s.Typed) (hreserve : s.type ≠ .reserve)
    {id : Int} {request : RequestSend} {priority : Priority}
    {udpAddress : Option (List Byte)} {answer : WriteAnswer} :
    sendSocket s id request priority udpAddress answer = none ↔
      id = s.id ∧ (s.type = .plisten ∨ s.type = .listen) := by
  rw [sendSocket]
  split_ifs with hdrops hlisten hdirect
  · refine iff_of_false (by simp) ?_
    rintro ⟨rfl, htype⟩
    simp only [Sock.drops, ne_eq, not_true_eq_false, false_or] at hdrops
    rcases htype with htype | htype
    · simp [htype] at hdrops
    · simp [htype] at hdrops
  · have hid : s.id = id := by
      by_contra hid
      exact hdrops (.inr (.inl hid))
    exact iff_of_true rfl ⟨hid.symm, hlisten⟩
  · refine iff_of_false ?_ fun h => hlisten h.2
    rw [← ne_eq, ← Option.isSome_iff_ne_none, sendDirect]
    dsimp only
    split
    · split_ifs
      · exact isSome_closeWith hreserve _ _
      · rfl
      · rfl
    · next hprotocol =>
      rw [Option.isSome_map]
      exact isSome_addressFor htyped hprotocol udpAddress
  · refine iff_of_false ?_ fun h => hlisten h.2
    rw [← ne_eq, ← Option.isSome_iff_ne_none, Option.isSome_map, sendBehind.eq_def]
    split
    · rfl
    · next hprotocol =>
      rw [Option.isSome_map]
      exact isSome_addressFor htyped hprotocol udpAddress

/-- What the other side of an action keeps to: an address for datagrams is not
one for TCP, and a read does not return more than it was asked for. -/
def SockAction.Proper (s : Sock) : SockAction → Prop
  | .setUdp _ address => address.headD 0 ≠ Protocol.tcp.number
  | .event _ _ answers => ∀ bytes sz, answers.read = .read bytes →
      s.p = .size sz → bytes.length ≤ sz
  | _ => True

theorem isSome_setUdpAddress (htyped : s.Typed) (id : Int) {address : List Byte}
    (h : address.headD 0 ≠ Protocol.tcp.number) :
    (setUdpAddress s id address).isSome := by
  rw [setUdpAddress]
  split_ifs with habsent hother
  · rfl
  · rfl
  · have hprotocol : s.protocol ≠ .tcp := by
      intro hprotocol
      rw [not_not, hprotocol] at hother
      exact h hother
    obtain ⟨old, hp⟩ := htyped.exists_address hprotocol
    rw [hp]
    rfl

theorem isSome_forwardMessageTcp (htyped : s.Typed)
    (hreserve : s.type ≠ .reserve) (hprotocol : s.protocol = .tcp)
    {answer : ReadAnswer}
    (hfits : ∀ bytes sz, answer = .read bytes → s.p = .size sz →
      bytes.length ≤ sz) : (forwardMessageTcp s answer).isSome := by
  obtain ⟨sz, hp⟩ := htyped.exists_size hprotocol
  unfold forwardMessageTcp
  rw [hp]
  cases answer with
  | again => rfl
  | failed => exact isSome_closeWith hreserve _ _
  | read bytes =>
    dsimp only
    rw [if_neg (Nat.not_lt.mpr (hfits bytes sz rfl hp))]
    split_ifs
    · exact isSome_closeWith hreserve _ _
    · rfl
    · rfl

theorem isSome_pollEvent (htyped : s.Typed) (hcomplete : Complete s.low)
    (hreserve : s.type ≠ .reserve) {read write : Bool} {answers : EventAnswers}
    (hproper : (SockAction.event read write answers).Proper s) :
    (pollEvent s read write answers).isSome := by
  rw [pollEvent.eq_def]
  split
  · cases herror : answers.error with
    | true => exact isSome_closeWith hreserve _ _
    | false => rfl
  · rfl
  · rfl
  · split_ifs
    · split
      · next hprotocol =>
        exact isSome_forwardMessageTcp htyped hreserve hprotocol hproper
      · cases answers.recv with
        | again => rfl
        | failed => exact isSome_closeWith hreserve _ _
        | received => rfl
    · exact isSome_sendBuffer hcomplete hreserve _
    · rfl

/-- **The one assertion that can fail.**  Whatever happened to a socket before,
as long as no user object was sent with low priority, the server stops at the
next request or event if and only if that is a request to send to the socket
while it listens. -/
theorem Life.aborts_iff_send_to_listening {b : Birth} {id fd : Int}
    {owner : Nat} {actions : List SockAction} {l : Life} {a : SockAction}
    (hplain : ∀ a ∈ actions, a.PlainLow)
    (hrun : runSteps Life.step (b.life id fd owner) actions = some l)
    (hproper : a.Proper l.sock) :
    l.step a = none ↔ (∃ request priority udpAddress answer,
        a = .send l.sock.id request priority udpAddress answer) ∧
      (l.sock.type = .plisten ∨ l.sock.type = .listen) := by
  have hwatched := Life.watched_of_run hrun
  have htyped := Life.typed_of_run hrun
  have hcomplete : Complete l.sock.low := by
    by_cases hopen : l.sock.type = .invalid
    · have hpending := hwatched.idle (.inl hopen)
      rw [Sock.pending, List.append_eq_nil_iff] at hpending
      rw [hpending.2]
      exact List.forall_mem_nil _
    · obtain ⟨o, -, htracks⟩ := exists_inStep_of_run hplain hrun
      exact (htracks hopen).complete
  rw [Life.step, Option.map_eq_none_iff]
  cases a with
  | start id owner spAdd => simp [Sock.act]
  | send id request priority udpAddress answer =>
    rw [Sock.act, sendSocket_eq_none_iff htyped hwatched.reserve]
    simp
  | close id owner answers =>
    have := isSome_closeSocket hcomplete hwatched.reserve id owner answers
    simp [Sock.act, ← Option.not_isSome_iff_eq_none, this]
  | setUdp id address =>
    have := isSome_setUdpAddress htyped id hproper
    simp [Sock.act, ← Option.not_isSome_iff_eq_none, this]
  | setopt id what value => simp [Sock.act]
  | event read write answers =>
    have := isSome_pollEvent htyped hcomplete hwatched.reserve hproper
    simp [Sock.act, ← Option.not_isSome_iff_eq_none, this]

/-- A request to send to a socket that has just been started. -/
theorem Life.aborts_iff_send_to_listening_started :
    ∃ l, runSteps Life.step (Birth.listening.life 1 5 0) [.start 1 0 true] = some l ∧
      l.step (.send 1 ⟨100, none, [7]⟩ .high none .again) = none ∧
      l.step (.close 1 0 []) ≠ none := by
  obtain ⟨l, hrun⟩ : ∃ l, runSteps Life.step (Birth.listening.life 1 5 0)
      [.start 1 0 true] = some l := ⟨_, rfl⟩
  have hid : l.sock.id = 1 ∧ l.sock.type = .listen := by
    cases hrun
    exact ⟨rfl, rfl⟩
  have hplain : ∀ a ∈ [SockAction.start 1 0 true], a.PlainLow := by
    simp [SockAction.PlainLow]
  refine ⟨l, hrun, ?_, ?_⟩
  · refine (Life.aborts_iff_send_to_listening
      (a := .send 1 ⟨100, none, [7]⟩ .high none .again) hplain hrun
      trivial).mpr ?_
    rw [hid.1]
    exact ⟨⟨_, _, _, _, rfl⟩, .inr hid.2⟩
  · intro hnone
    obtain ⟨⟨_, _, _, _, hsend⟩, -⟩ :=
      (Life.aborts_iff_send_to_listening (a := .close 1 0 []) hplain hrun
        trivial).mp hnone
    cases hsend

end Socket
end GameServer
