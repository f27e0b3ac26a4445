import GameServer.Socket.Life

/-!
# The order in which packages leave a socket

The write path of a socket is an outbox with two priorities.  The buffer at the
head of the list of high priority may have been sent in part, also when its
package has low priority: `send_socket` puts the rest of a package there that
was written directly, and `raise_uncomplete` moves the head of the other list
there when it was sent in part.  No package is begun before that one is
finished.

`Tracks` relates a socket to an outbox, and each of the functions is matched by
steps of the outbox.  So what leaves by a socket are whole packages, with those
of each priority in their order, and a socket that is closed on request has sent
all of them.
-/

namespace GameServer
namespace Socket

open Lib Network

/-- A list of write buffers and an outbox with the packages of that list: one
package may be on its way. -/
def InFlight (protocol : Protocol) (list : List WriteBuffer)
    (current : List Sent) (waiting : List (List Sent)) : Prop :=
  (current = [] ∧ list.map (packageOf protocol) = waiting) ∨
    ∃ wb rest, list = wb :: rest ∧ packageOf protocol wb = current ∧
      rest.map (packageOf protocol) = waiting

/-- None of the buffers has been sent in part. -/
def Complete (list : List WriteBuffer) : Prop :=
  ∀ wb ∈ list, wb.ptr = wb.buffer

variable {list : List WriteBuffer} {o : Outbox Sent} {s : Sock}
  {protocol : Protocol} {calls : List SysCall} {out : Outcome}
  {answers : List WriteAnswer} {a : SockAction}

theorem listUncomplete_of_complete (h : Complete list) : listUncomplete list = false := by
  cases list with
  | nil => rfl
  | cons wb rest => simp [listUncomplete, h wb List.mem_cons_self]

/-- The outbox of a socket. -/
structure Tracks (s : Sock) (o : Outbox Sent) : Prop where
  high : InFlight s.protocol s.high o.current o.high
  low : s.low.map (packageOf s.protocol) = o.low
  complete : Complete s.low

/-- Only the lists and the protocol matter. -/
theorem Tracks.congr {s' : Sock} (h : Tracks s o)
    (hprotocol : s'.protocol = s.protocol) (hhigh : s'.high = s.high)
    (hlow : s'.low = s.low) : Tracks s' o := by
  refine ⟨?_, ?_, ?_⟩
  · rw [hprotocol, hhigh]
    exact h.high
  · rw [hprotocol, hlow]
    exact h.low
  · rw [hlow]
    exact h.complete

theorem inFlight_nil {current : List Sent} {waiting : List (List Sent)}
    (h : InFlight protocol [] current waiting) :
    current = [] ∧ waiting = [] := by
  rcases h with ⟨hcurrent, hwaiting⟩ | ⟨wb, rest, hlist, -⟩
  · exact ⟨hcurrent, hwaiting.symm⟩
  · cases hlist

/-- The outbox has nothing left to do. -/
def Idle (o : Outbox Sent) : Prop :=
  o.current = [] ∧ o.high = [] ∧ o.low = []

theorem Tracks.idle (h : Tracks s o) (hempty : sendBufferEmpty s) : Idle o := by
  have hflight := h.high
  rw [hempty.1] at hflight
  obtain ⟨hcurrent, hwaiting⟩ := inFlight_nil hflight
  refine ⟨hcurrent, hwaiting, ?_⟩
  rw [← h.low, hempty.2, List.map_nil]

theorem InFlight.append {current : List Sent} {waiting : List (List Sent)}
    (h : InFlight protocol list current waiting) (wb : WriteBuffer) :
    InFlight protocol (list ++ [wb]) current (waiting ++ [packageOf protocol wb]) := by
  rcases h with ⟨hcurrent, hwaiting⟩ | ⟨head, rest, rfl, hcurrent, hwaiting⟩
  · exact .inl ⟨hcurrent, by simp [hwaiting]⟩
  · exact .inr ⟨head, rest ++ [wb], rfl, hcurrent, by simp [hwaiting]⟩

/-! ## Sending a list -/

@[simp] theorem sent_writeBufferFree (wb : WriteBuffer) : (writeBufferFree wb).sent = [] := rfl

@[simp] theorem sent_freeRequest (request : RequestSend) : (freeRequest request).sent = [] := rfl

@[simp] theorem sent_sendFailed : SysCall.sendFailed.sent = [] := rfl

theorem SysCall.IsRead.sent_eq_nil {call : SysCall} (h : call.IsRead) : call.sent = [] := by
  cases call with
  | write | sendto => cases h
  | _ => rfl

@[simp] theorem flatMap_sent_freeWbList (list : List WriteBuffer) :
    (freeWbList list).flatMap SysCall.sent = [] := by
  simp [freeWbList]

@[simp] theorem flatMap_sent_closeCalls (type : SocketType) :
    (closeCalls type).flatMap SysCall.sent = [] := by
  cases type <;> rfl

/-- The head of the list of high priority is begun, if it is not on its way. -/
theorem exists_begun_high {tmp : WriteBuffer} {rest : List WriteBuffer}
    (h : InFlight protocol (tmp :: rest) o.current o.high) :
    ∃ o', o.Reaches o' [] [] ∧ o'.current = packageOf protocol tmp ∧
      o'.high = rest.map (packageOf protocol) ∧ o'.low = o.low := by
  rcases h with ⟨hcurrent, hwaiting⟩ | ⟨wb, rest', hlist, hcurrent, hwaiting⟩
  · exact Outbox.reaches_next_high hcurrent hwaiting.symm
  · rw [List.cons.injEq] at hlist
    obtain ⟨rfl, rfl⟩ := hlist
    exact ⟨o, .refl o, hcurrent.symm, hwaiting.symm, rfl⟩

/-- A part of the package on its way. -/
theorem exists_part {tmp : WriteBuffer} {n : Nat} (hcurrent : o.current = packageOf .tcp tmp) :
    ∃ o', o.Reaches o' [] ((tmp.data.take n).map .byte) ∧
      o'.current = packageOf .tcp (tmp.advance n) ∧ o'.high = o.high ∧
      o'.low = o.low := by
  obtain ⟨o', hreach, hcurrent', hhigh, hlow⟩ := Outbox.reaches_transmit o n
  have hpackage : packageOf .tcp tmp = tmp.data.map .byte := rfl
  rw [hcurrent, hpackage, ← List.map_take] at hreach
  rw [hcurrent, hpackage, ← List.map_drop] at hcurrent'
  exact ⟨o', hreach, hcurrent', hhigh, hlow⟩

theorem Sends.follow_high {left : List WriteBuffer} (h : Sends protocol list left calls)
    (ho : InFlight protocol list o.current o.high) :
    ∃ o', o.Reaches o' [] (calls.flatMap SysCall.sent) ∧
      InFlight protocol left o'.current o'.high ∧ o'.low = o.low := by
  induction h generalizing o with
  | stop list => exact ⟨o, .refl o, ho, rfl⟩
  | failed list => exact ⟨o, .refl o, ho, rfl⟩
  | part hprotocol tmp rest hn =>
    subst hprotocol
    obtain ⟨o₁, hreach₁, hcurrent₁, hhigh₁, hlow₁⟩ := exists_begun_high ho
    obtain ⟨o₂, hreach₂, hcurrent₂, hhigh₂, hlow₂⟩ := exists_part hcurrent₁
    refine ⟨o₂, ?_, .inr ⟨_, rest, rfl, hcurrent₂.symm, ?_⟩, ?_⟩
    · simpa [SysCall.sent] using hreach₁.trans hreach₂
    · rw [hhigh₂, hhigh₁]
    · rw [hlow₂, hlow₁]
  | @whole tmp rest left calls call hsent hcall hrest ih =>
    obtain ⟨o₁, hreach₁, hcurrent₁, hhigh₁, hlow₁⟩ := exists_begun_high ho
    obtain ⟨o₂, hreach₂, hcurrent₂, hhigh₂, hlow₂⟩ :=
      Outbox.reaches_transmit_all o₁
    obtain ⟨o₃, hreach₃, hleft, hlow₃⟩ :=
      ih (.inl ⟨hcurrent₂, by rw [hhigh₂, hhigh₁]⟩)
    refine ⟨o₃, ?_, hleft, by rw [hlow₃, hlow₂, hlow₁]⟩
    rw [hcurrent₁] at hreach₂
    simpa [hsent] using (hreach₁.trans hreach₂).trans hreach₃

/-- The list of low priority is sent when the other one is empty.  If its head
has been sent in part then that package is on its way. -/
theorem Sends.follow_low {left : List WriteBuffer}
    (h : Sends protocol list left calls) (hcurrent : o.current = [])
    (hhigh : o.high = []) (hlow : list.map (packageOf protocol) = o.low)
    (hcomplete : Complete list) :
    ∃ o', o.Reaches o' [] (calls.flatMap SysCall.sent) ∧ o'.high = [] ∧
      ((Complete left ∧ o'.current = [] ∧ left.map (packageOf protocol) = o'.low) ∨
        ∃ wb rest, left = wb :: rest ∧ wb.ptr ≠ wb.buffer ∧ Complete rest ∧
          o'.current = packageOf protocol wb ∧
          rest.map (packageOf protocol) = o'.low) := by
  induction h generalizing o with
  | stop list =>
    exact ⟨o, .refl o, hhigh, .inl ⟨hcomplete, hcurrent, hlow⟩⟩
  | failed list =>
    exact ⟨o, .refl o, hhigh, .inl ⟨hcomplete, hcurrent, hlow⟩⟩
  | @part hprotocol tmp rest n hn =>
    subst hprotocol
    have htmp := hcomplete tmp List.mem_cons_self
    by_cases hzero : n = 0
    · -- nothing has been sent of it
      subst hzero
      refine ⟨o, ?_, hhigh, .inl ⟨?_, hcurrent, hlow⟩⟩
      · simpa [SysCall.sent] using Outbox.Reaches.refl o
      · exact hcomplete
    · obtain ⟨o₁, hreach₁, hcurrent₁, hhigh₁, hlow₁⟩ :=
        Outbox.reaches_next_low hcurrent hhigh hlow.symm
      obtain ⟨o₂, hreach₂, hcurrent₂, hhigh₂, hlow₂⟩ :=
        exists_part hcurrent₁
      refine ⟨o₂, ?_, by rw [hhigh₂, hhigh₁],
        .inr ⟨_, rest, rfl, ?_, ?_, hcurrent₂, by rw [hlow₂, hlow₁]⟩⟩
      · simpa [SysCall.sent] using hreach₁.trans hreach₂
      · show tmp.ptr + n ≠ tmp.buffer
        omega
      · exact fun wb hwb => hcomplete wb (List.mem_cons_of_mem _ hwb)
  | @whole tmp rest left calls call hsent hcall hrest ih =>
    obtain ⟨o₁, hreach₁, hcurrent₁, hhigh₁, hlow₁⟩ :=
      Outbox.reaches_next_low hcurrent hhigh hlow.symm
    obtain ⟨o₂, hreach₂, hcurrent₂, hhigh₂, hlow₂⟩ :=
      Outbox.reaches_transmit_all o₁
    obtain ⟨o₃, hreach₃, hleft⟩ :=
      ih hcurrent₂ (by rw [hhigh₂, hhigh₁]) (by rw [hlow₂, hlow₁])
        fun wb hwb => hcomplete wb (List.mem_cons_of_mem _ hwb)
    refine ⟨o₃, ?_, hleft⟩
    rw [hcurrent₁] at hreach₂
    simpa [hsent] using (hreach₁.trans hreach₂).trans hreach₃

/-! ## The functions -/

/-- The outbox can follow a function that accepts these packages: it sends the
same, and as long as the socket is there it keeps track of it. -/
def Followed (s : Sock) (new : List (Priority × List Sent)) (out : Outcome) :
    Prop :=
  ∀ o, Tracks s o → ∃ o', o.Reaches o' new (out.calls.flatMap SysCall.sent) ∧
    (out.sock.type ≠ .invalid → Tracks out.sock o')

/-- Closing sends nothing. -/
theorem followed_closeWith {type : MessageType}
    (h : closeWith s calls type = some out) (htype : s.type ≠ .invalid)
    {o' : Outbox Sent} {new : List (Priority × List Sent)}
    (hreach : o.Reaches o' new (calls.flatMap SysCall.sent)) :
    ∃ o', o.Reaches o' new (out.calls.flatMap SysCall.sent) ∧
      (out.sock.type ≠ .invalid → Tracks out.sock o') := by
  obtain ⟨-, rfl⟩ := closeWith_eq_some htype h
  exact ⟨o', by simpa using hreach, fun hne => absurd rfl hne⟩

theorem SendsBuffer.followed (htype : s.type ≠ .invalid)
    (h : SendsBuffer s answers out) : Followed s [] out := by
  intro o ho
  cases h with
  | highFailed hfailed hhigh hout =>
    obtain ⟨o₁, hreach, -, -⟩ := hhigh.follow_high ho.high
    exact followed_closeWith hout htype hreach
  | highLeft hhigh hleft hsize =>
    obtain ⟨o₁, hreach, hflight, hlow⟩ := hhigh.follow_high ho.high
    exact ⟨o₁, hreach, fun _ =>
      ⟨hflight, ho.low.trans hlow.symm, ho.complete⟩⟩
  | lowFailed hfailed hhigh hlow hout =>
    obtain ⟨o₁, hreach₁, hflight, hlow₁⟩ := hhigh.follow_high ho.high
    obtain ⟨hcurrent, hempty⟩ := inFlight_nil hflight
    obtain ⟨o₂, hreach₂, -⟩ := hlow.follow_low hcurrent hempty (ho.low.trans hlow₁.symm) ho.complete
    exact followed_closeWith hout htype (by simpa using hreach₁.trans hreach₂)
  | @raised wb low wbSize calls lowCalls hhigh hlow huncomplete hsize =>
    obtain ⟨o₁, hreach₁, hflight, hlow₁⟩ := hhigh.follow_high ho.high
    obtain ⟨hcurrent, hempty⟩ := inFlight_nil hflight
    obtain ⟨o₂, hreach₂, hhigh₂, hleft⟩ := hlow.follow_low hcurrent hempty
      (ho.low.trans hlow₁.symm) ho.complete
    refine ⟨o₂, by simpa using hreach₁.trans hreach₂, fun _ => ?_⟩
    rcases hleft with ⟨hcomplete, -⟩ | ⟨wb', rest, hlist, -, hcomplete, hcurrent₂, hlow₂⟩
    · exact absurd (hcomplete wb List.mem_cons_self) huncomplete
    · rw [List.cons.injEq] at hlist
      obtain ⟨rfl, rfl⟩ := hlist
      exact ⟨.inr ⟨wb, [], rfl, hcurrent₂.symm, hhigh₂.symm⟩, hlow₂, hcomplete⟩
  | lowLeft hhigh hlow hsome hcomplete hsize =>
    obtain ⟨o₁, hreach₁, hflight, hlow₁⟩ := hhigh.follow_high ho.high
    obtain ⟨hcurrent, hempty⟩ := inFlight_nil hflight
    obtain ⟨o₂, hreach₂, hhigh₂, hleft⟩ := hlow.follow_low hcurrent hempty
      (ho.low.trans hlow₁.symm) ho.complete
    refine ⟨o₂, by simpa using hreach₁.trans hreach₂, fun _ => ?_⟩
    rcases hleft with ⟨hall, hcurrent₂, hlow₂⟩ | ⟨wb, rest, rfl, huncomplete, -⟩
    · exact ⟨.inl ⟨hcurrent₂, hhigh₂.symm⟩, hlow₂, hall⟩
    · exact absurd hcomplete (by simp [listUncomplete, huncomplete])
  | finished hhigh hnone hhalf hsize =>
    obtain ⟨o₁, hreach, hflight, hlow⟩ := hhigh.follow_high ho.high
    exact ⟨o₁, by simpa [SysCall.sent] using hreach, fun _ =>
      ⟨hflight, ho.low.trans hlow.symm, ho.complete⟩⟩
  | closed hhigh hnone hhalf hout =>
    obtain ⟨o₁, hreach, -, -⟩ := hhigh.follow_high ho.high
    exact followed_closeWith hout htype (by simpa [SysCall.sent] using hreach)

/-- The condition on requests of low priority: no user objects.  The head of
the list counts as sent in part if `ptr` is not `buffer`, and a user object is
not at the place of its bytes. -/
def SockAction.PlainLow : SockAction → Prop
  | .send _ request .low _ _ => request.object = none
  | _ => True

theorem packageOf_writeBufferOf (protocol : Protocol) (request : RequestSend)
    (address : List Byte) :
    packageOf protocol (writeBufferOf request 0 address) =
      packageFor protocol address request.data := by
  simp [packageOf, writeBufferOf]

/-- A package is put behind the others. -/
theorem followed_appendTo {request : RequestSend} {priority : Priority}
    {address : List Byte} (hplain : priority = .low → request.object = none)
    (hsent : calls.flatMap SysCall.sent = []) :
    Followed s [(priority, packageFor s.protocol address request.data)]
      ⟨appendTo s priority (writeBufferOf request 0 address), calls, none⟩ := by
  intro o ho
  rw [hsent]
  cases priority with
  | high =>
    obtain ⟨o', hreach, hcurrent, hhigh, hlow⟩ := Outbox.reaches_accept_high o
      (packageFor s.protocol address request.data)
    refine ⟨o', hreach, fun _ => ⟨?_, ho.low.trans hlow.symm, ho.complete⟩⟩
    rw [hcurrent, hhigh, ← packageOf_writeBufferOf]
    exact ho.high.append _
  | low =>
    obtain ⟨o', hreach, hcurrent, hhigh, hlow⟩ := Outbox.reaches_accept_low o
      (packageFor s.protocol address request.data)
    refine ⟨o', hreach, fun _ => ⟨?_, ?_, ?_⟩⟩
    · rw [hcurrent, hhigh]
      exact ho.high
    · show (s.low ++ [writeBufferOf request 0 address]).map (packageOf s.protocol) = _
      rw [hlow, List.map_append, ho.low, List.map_singleton, packageOf_writeBufferOf]
    · intro wb hwb
      rcases List.mem_append.mp hwb with hold | hnew
      · exact ho.complete wb hold
      · rw [List.mem_singleton.mp hnew]
        simp [writeBufferOf, sendObjectInit, hplain rfl]

/-- A package that finds nothing in front of it is begun at once. -/
theorem exists_accepted_begun (hcurrent : o.current = []) (hhigh : o.high = [])
    (hlow : o.low = []) (priority : Priority) (package : List Sent) :
    ∃ o', o.Reaches o' [(priority, package)] [] ∧ o'.current = package ∧
      o'.high = [] ∧ o'.low = [] := by
  cases priority with
  | high =>
    obtain ⟨o₁, hreach₁, hcurrent₁, hhigh₁, hlow₁⟩ :=
      Outbox.reaches_accept_high o package
    obtain ⟨o₂, hreach₂, hcurrent₂, hhigh₂, hlow₂⟩ :=
      Outbox.reaches_next_high (hcurrent₁.trans hcurrent) (by rw [hhigh₁, hhigh]; rfl)
    exact ⟨o₂, hreach₁.trans hreach₂, hcurrent₂, hhigh₂, by rw [hlow₂, hlow₁, hlow]⟩
  | low =>
    obtain ⟨o₁, hreach₁, hcurrent₁, hhigh₁, hlow₁⟩ :=
      Outbox.reaches_accept_low o package
    obtain ⟨o₂, hreach₂, hcurrent₂, hhigh₂, hlow₂⟩ :=
      Outbox.reaches_next_low (hcurrent₁.trans hcurrent)
        (hhigh₁.trans hhigh) (by rw [hlow₁, hlow]; rfl)
    exact ⟨o₂, hreach₁.trans hreach₂, hcurrent₂, hhigh₂, hlow₂⟩

theorem SendsSocket.followed {id : Int} {request : RequestSend}
    {priority : Priority} {udpAddress : Option (List Byte)}
    {answer : WriteAnswer} (hplain : priority = .low → request.object = none)
    (h : SendsSocket s id request priority udpAddress answer out) :
    Followed s (s.accepted (.send id request priority udpAddress answer))
      out := by
  cases h with
  | dropped hdrops =>
    intro o ho
    refine ⟨o, ?_, fun _ => ho⟩
    simpa [Sock.accepted, hdrops] using Outbox.Reaches.refl o
  | failed hopen hempty htype hprotocol hfailed hout =>
    intro o ho
    rw [Sock.accepted_send hopen]
    obtain ⟨hcurrent, hhigh, hlow⟩ := ho.idle hempty
    obtain ⟨o', hreach, -⟩ := exists_accepted_begun hcurrent hhigh hlow
      priority (s.package udpAddress request)
    exact followed_closeWith hout (by simp [htype]) (by simpa using hreach)
  | direct hopen hempty htype hfailed hsent hcall =>
    intro o ho
    rw [Sock.accepted_send hopen]
    obtain ⟨hcurrent, hhigh, hlow⟩ := ho.idle hempty
    obtain ⟨o₁, hreach₁, hcurrent₁, hhigh₁, hlow₁⟩ :=
      exists_accepted_begun hcurrent hhigh hlow priority (s.package udpAddress request)
    obtain ⟨o₂, hreach₂, hcurrent₂, hhigh₂, hlow₂⟩ :=
      Outbox.reaches_transmit_all o₁
    rw [hcurrent₁] at hreach₂
    refine ⟨o₂, by simpa [hsent] using hreach₁.trans hreach₂, fun _ => ?_⟩
    refine ⟨.inl ⟨hcurrent₂, ?_⟩, ?_, ho.complete⟩
    · rw [hhigh₂, hhigh₁, hempty.1, List.map_nil]
    · rw [hlow₂, hlow₁, hempty.2, List.map_nil]
  | @part n hopen hempty htype hprotocol hfailed hn =>
    intro o ho
    rw [Sock.accepted_send hopen]
    obtain ⟨hcurrent, hhigh, hlow⟩ := ho.idle hempty
    obtain ⟨o₁, hreach₁, hcurrent₁, hhigh₁, hlow₁⟩ :=
      exists_accepted_begun hcurrent hhigh hlow priority (s.package udpAddress request)
    have hpackage : s.package udpAddress request = packageOf .tcp (writeBufferOf request 0 []) := by
      rw [packageOf_writeBufferOf, Sock.package, hprotocol]
      rfl
    obtain ⟨o₂, hreach₂, hcurrent₂, hhigh₂, hlow₂⟩ :=
      exists_part (n := n) (hcurrent₁.trans hpackage)
    have hadvance : (writeBufferOf request 0 []).advance n = writeBufferOf request n [] := by
      simp [WriteBuffer.advance, writeBufferOf]
    rw [hadvance] at hcurrent₂
    refine ⟨o₂, ?_, fun _ => ⟨.inr ⟨writeBufferOf request n [], [], ?_, ?_, ?_⟩, ?_, ho.complete⟩⟩
    · simpa [SysCall.sent, writeBufferOf] using hreach₁.trans hreach₂
    · show s.high ++ [writeBufferOf request n []] = _
      rw [hempty.1, List.nil_append]
    · rw [hcurrent₂]
      show packageOf s.protocol _ = _
      rw [hprotocol]
    · rw [hhigh₂, hhigh₁, List.map_nil]
    · show s.low.map _ = _
      rw [hlow₂, hlow₁, hempty.2, List.map_nil]
  | waits hopen hempty htype hprotocol hpackage =>
    rw [Sock.accepted_send hopen, ← hpackage]
    exact followed_appendTo hplain rfl
  | behind hopen hbusy hlisten hpackage =>
    rw [Sock.accepted_send hopen, ← hpackage]
    exact followed_appendTo hplain rfl

theorem ClosesSocket.followed {id : Int} {owner : Nat}
    (h : ClosesSocket s id owner answers out) : Followed s [] out := by
  cases h with
  | absent habsent => exact fun o ho => ⟨o, .refl o, fun _ => ho⟩
  | ended hhere hsome hsent hmessage => exact hsent.followed hhere.1
  | @closed sent hhere hreserve hsent hmessage hempty =>
    intro o ho
    rcases hsent with ⟨-, rfl⟩ | ⟨-, hsent⟩
    · exact ⟨o, by simpa [Sock.quiet] using Outbox.Reaches.refl o, fun hne => absurd rfl hne⟩
    · obtain ⟨o', hreach, -⟩ := hsent.followed hhere.1 o ho
      exact ⟨o', by simpa using hreach, fun hne => absurd rfl hne⟩
  | @half sent hhere hsome hsent hmessage hleft =>
    intro o ho
    obtain ⟨o', hreach, htracks⟩ := hsent.followed hhere.1 o ho
    have htype : sent.sock.type ≠ .invalid := by
      rw [(hsent.same hmessage).1]
      exact hhere.1
    exact ⟨o', hreach, fun _ => (htracks htype).congr rfl rfl rfl⟩

theorem ActsOther.followed (h : ActsOther s a out) : Followed s [] out := by
  intro o ho
  cases h with
  | same owner message hp => exact ⟨o, .refl o, fun _ => ho.congr rfl rfl rfl⟩
  | started owner message htype =>
    exact ⟨o, .refl o, fun _ => ho.congr rfl rfl rfl⟩
  | refused message htype => exact ⟨o, .refl o, fun hne => absurd rfl hne⟩
  | setopt what value htype => exact ⟨o, .refl o, fun _ => ho⟩
  | read call hcall message hp =>
    refine ⟨o, ?_, fun _ => ho.congr rfl rfl rfl⟩
    simpa [hcall.sent_eq_nil] using Outbox.Reaches.refl o
  | connected message htype =>
    refine ⟨o, ?_, fun _ => ho.congr rfl rfl rfl⟩
    dsimp only
    split_ifs
    · exact .refl o
    · exact .refl o
  | closed htype call hcall hkind hout =>
    have hreach : o.Reaches o [] ([call].flatMap SysCall.sent) := by
      simpa [hcall.sent_eq_nil] using Outbox.Reaches.refl o
    exact followed_closeWith hout htype hreach

/-- One lemma for all actions. -/
theorem Acts.followed (hplain : a.PlainLow) (h : Acts s a out) : Followed s (s.accepted a) out := by
  cases h with
  | @send id request priority udpAddress answer _ h =>
    refine h.followed ?_
    rintro rfl
    exact hplain
  | close h => exact h.followed
  | flush htype hread h => exact h.followed htype.1
  | other hsend h =>
    rw [hsend.1]
    exact h.followed

/-! ## Runs -/

/-- Nothing happens to a slot that is free. -/
theorem Acts.of_invalid (htype : s.type = .invalid) (h : Acts s a out) :
    out.sock.type = .invalid ∧ s.accepted a = [] ∧ out.calls.flatMap SysCall.sent = [] := by
  cases h with
  | @send id request priority udpAddress answer _ h =>
    have hdrops : s.drops id := .inl htype
    refine ⟨?_, if_pos hdrops, ?_⟩
    · cases h with
      | dropped => exact htype
      | _ => contradiction
    · cases h with
      | dropped => rfl
      | _ => contradiction
  | close h =>
    cases h with
    | absent habsent => exact ⟨htype, rfl, rfl⟩
    | ended hhere => exact absurd htype hhere.1
    | closed hhere => exact absurd htype hhere.1
    | half hhere => exact absurd htype hhere.1
  | flush hhere => exact absurd htype hhere.1
  | other hsend h =>
    cases h with
    | same owner message hp => exact ⟨htype, hsend.1, rfl⟩
    | started owner message hwaits => simp [htype] at hwaits
    | refused message hwaits => simp [htype] at hwaits
    | setopt what value hhere => exact absurd htype hhere
    | read call hcall message hp =>
      exact ⟨htype, hsend.1, by simp [hcall.sent_eq_nil]⟩
    | connected message hwaits => simp [htype] at hwaits
    | closed hhere => exact absurd htype hhere

namespace Life

/-- Splitting a step into the action and the history. -/
theorem exists_of_step {l l' : Life} {a : SockAction} (h : l.step a = some l') :
    ∃ out, Acts l.sock a out ∧ l' =
      { sock := out.sock
        calls := l.calls ++ out.calls
        accepted := l.accepted ++ l.sock.accepted a
        given := l.given ++ a.given
        leaked := l.leaked ++ l.sock.leaked a } := by
  obtain ⟨out, hact, rfl⟩ := Option.map_eq_some_iff.mp h
  exact ⟨out, acts_of_act hact, rfl⟩

/-- An outbox that has done what the socket did. -/
def InStep (l : Life) (o : Outbox Sent) : Prop :=
  Outbox.empty.Reaches o l.accepted l.wire ∧
    (l.sock.type ≠ .invalid → Tracks l.sock o)

theorem inStep_birth (b : Birth) (id fd : Int) (owner : Nat) :
    (b.life id fd owner).InStep .empty := by
  refine ⟨?_, fun _ => ⟨.inl ⟨rfl, rfl⟩, rfl, fun wb hwb => nomatch hwb⟩⟩
  have hwire : (b.life id fd owner).wire = [] := by
    cases b <;> rfl
  rw [hwire]
  exact .refl _

theorem InStep.step {l l' : Life} {o : Outbox Sent} {a : SockAction}
    (h : l.InStep o) (hplain : a.PlainLow) (hstep : l.step a = some l') :
    ∃ o', l'.InStep o' := by
  obtain ⟨hreach, htracks⟩ := h
  obtain ⟨out, hacts, rfl⟩ := exists_of_step hstep
  have hwire : ∀ calls : List SysCall, (l.calls ++ calls).flatMap SysCall.sent =
        l.wire ++ calls.flatMap SysCall.sent := by
    intro calls
    rw [List.flatMap_append, wire]
  by_cases htype : l.sock.type = .invalid
  · obtain ⟨hinvalid, haccepted, hsent⟩ := hacts.of_invalid htype
    refine ⟨o, ?_, fun hne => absurd hinvalid hne⟩
    rw [wire, hwire, hsent, haccepted]
    simpa using hreach
  · obtain ⟨o', hreach', htracks'⟩ :=
      hacts.followed hplain o (htracks htype)
    refine ⟨o', ?_, htracks'⟩
    rw [wire, hwire]
    exact hreach.trans hreach'

theorem exists_inStep_of_run {b : Birth} {id fd : Int} {owner : Nat}
    {actions : List SockAction} {l : Life}
    (hplain : ∀ a ∈ actions, a.PlainLow)
    (hrun : runSteps step (b.life id fd owner) actions = some l) :
    ∃ o, l.InStep o := by
  have hkeep : ∀ (l : Life) (a : SockAction) (l' : Life), (∃ o, l.InStep o) →
      a.PlainLow → l.step a = some l' → ∃ o, l'.InStep o := by
    rintro l a l' ⟨o, ho⟩ ha hstep
    exact ho.step ha hstep
  exact runSteps_invariant_of_meets hkeep ⟨_, inStep_birth b id fd owner⟩
    ((runMeets_iff_forall hrun).mpr hplain) hrun

/-- **A socket is an outbox.**  Whatever is requested of a socket and however
much the system takes at a time, an outbox with two priorities accepts and sends
the same, and while the socket is there the outbox has the same packages
waiting and the same one on its way.  So whole packages leave, the last one
perhaps cut off, and those of each priority leave in the order in which they
were accepted. -/
theorem refines_outbox {b : Birth} {id fd : Int} {owner : Nat}
    {actions : List SockAction} {l : Life}
    (hplain : ∀ a ∈ actions, a.PlainLow)
    (hrun : runSteps step (b.life id fd owner) actions = some l) :
    (∃ o : Outbox Sent, Outbox.empty.Reaches o l.accepted l.wire ∧
      (l.sock.type ≠ .invalid → Tracks l.sock o)) ∧
      WholePackages l.accepted l.wire := by
  obtain ⟨o, hreach, htracks⟩ := exists_inStep_of_run hplain hrun
  refine ⟨⟨o, hreach, htracks⟩, ?_⟩
  obtain ⟨outboxActions, houtbox, haccepted, hwire⟩ := hreach
  have hwhole := (Outbox.ordered_of_run houtbox).wholePackages
  rw [haccepted, hwire] at hwhole
  exact hwhole

/-- The first package is sent in part and the second one waits for the rest. -/
theorem refines_outbox_part_first :
    ∃ l, runSteps step (Birth.connected.life 1 5 0)
        [.send 1 ⟨100, none, [1, 2, 3]⟩ .low none (.wrote 1),
          .send 1 ⟨200, some 208, [9]⟩ .high none .again,
          .event false true { write := [.wrote 1] }] = some l ∧
      l.wire = [.byte 1, .byte 2] ∧ WholePackages l.accepted l.wire := by
  obtain ⟨l, hrun⟩ : ∃ l, runSteps step (Birth.connected.life 1 5 0)
      [.send 1 ⟨100, none, [1, 2, 3]⟩ .low none (.wrote 1),
        .send 1 ⟨200, some 208, [9]⟩ .high none .again,
        .event false true { write := [.wrote 1] }] = some l := ⟨_, rfl⟩
  have hwhole := (refines_outbox (by simp [SockAction.PlainLow]) hrun).2
  refine ⟨l, hrun, ?_, hwhole⟩
  cases hrun
  rfl

end Life

/-! ## Closing on request -/

/-- `send_buffer` closes a socket after an error or when all has been sent. -/
theorem SendsBuffer.idle (h : SendsBuffer s answers out)
    (htype : s.type ≠ .invalid) (hfailed : .failed ∉ answers)
    (hclosed : out.sock.type = .invalid) (ho : Tracks s o) :
    ∃ o', o.Reaches o' [] (out.calls.flatMap SysCall.sent) ∧ Idle o' := by
  cases h with
  | highFailed h => exact absurd h hfailed
  | lowFailed h => exact absurd h hfailed
  | highLeft => exact absurd hclosed htype
  | raised => exact absurd hclosed htype
  | lowLeft => exact absurd hclosed htype
  | finished => exact absurd hclosed htype
  | closed hhigh hnone hhalf hout =>
    obtain ⟨o', hreach, hflight, hlow⟩ := hhigh.follow_high ho.high
    obtain ⟨hcurrent, hwaiting⟩ := inFlight_nil hflight
    obtain ⟨-, rfl⟩ := closeWith_eq_some (by exact htype) hout
    refine ⟨o', by simpa [SysCall.sent] using hreach, hcurrent, hwaiting, ?_⟩
    rw [hlow, ← ho.low, hnone, List.map_nil]

/-- An action that closes a socket without an error: a request to close it, or
the event that lets it send the rest. -/
def SockAction.Graceful : SockAction → Prop
  | .close _ _ answers => .failed ∉ answers
  | .event read _ answers =>
    read = false ∧ answers.error = false ∧ .failed ∉ answers.write
  | _ => False

/-- Only `send_buffer` closes a socket on such an event. -/
theorem sendsBuffer_of_pollEvent {write : Bool} {answers : EventAnswers}
    (htype : s.type ≠ .invalid) (herror : answers.error = false)
    (h : pollEvent s false write answers = some out)
    (hclosed : out.sock.type = .invalid) : SendsBuffer s answers.write out := by
  rw [pollEvent.eq_def] at h
  split at h
  · rw [herror] at h
    cases h
    cases hclosed
  · cases h
    exact absurd hclosed htype
  · contradiction
  · rw [if_neg (by simp)] at h
    split_ifs at h
    · exact sendsBuffer_of_sendBuffer h
    · cases h
      exact absurd hclosed htype

theorem exists_idle_of_graceful (h : s.act a = some out)
    (htype : s.type ≠ .invalid) (hgraceful : a.Graceful)
    (hclosed : out.sock.type = .invalid) (ho : Tracks s o) :
    s.accepted a = [] ∧ ∃ o', o.Reaches o' [] (out.calls.flatMap SysCall.sent) ∧ Idle o' := by
  cases a with
  | start => cases hgraceful
  | send => cases hgraceful
  | setUdp => cases hgraceful
  | setopt => cases hgraceful
  | event read write answers =>
    obtain ⟨rfl, herror, hfailed⟩ := hgraceful
    have hsends := sendsBuffer_of_pollEvent htype herror h hclosed
    exact ⟨rfl, hsends.idle htype hfailed hclosed ho⟩
  | close id owner answers =>
    refine ⟨rfl, ?_⟩
    cases closesSocket_of_closeSocket h with
    | absent habsent => exact absurd hclosed htype
    | ended hhere hsome hsent hmessage =>
      exact hsent.idle htype hgraceful hclosed ho
    | half => cases hclosed
    | @closed sent hhere hreserve hsent hmessage hempty =>
      rcases hsent with ⟨-, rfl⟩ | ⟨-, hsent⟩
      · exact ⟨o, by simpa [Sock.quiet] using Outbox.Reaches.refl o, ho.idle hempty⟩
      · obtain ⟨o', hreach, htracks⟩ := hsent.followed htype o ho
        have hsame : sent.sock.type ≠ .invalid := by
          rw [(hsent.same hmessage).1]
          exact htype
        exact ⟨o', by simpa using hreach, (htracks hsame).idle hempty⟩

/-- **A socket closed on request has sent everything.**  When a request to
close a socket, or a later event that finishes sending, closes it without an
error, then all packages accepted before have left as a whole, those of each
priority in their order, as long as no user object was sent with low
priority. -/
theorem Life.all_sent_when_closed {b : Birth} {id fd : Int} {owner : Nat}
    {actions : List SockAction} {l l' : Life} {a : SockAction}
    (hplain : ∀ a ∈ actions, a.PlainLow)
    (hrun : runSteps Life.step (b.life id fd owner) actions = some l)
    (hopen : l.sock.type ≠ .invalid) (hgraceful : a.Graceful)
    (hstep : l.step a = some l') (hclosed : l'.sock.type = .invalid) :
    ∃ order, l'.wire = streamOf order ∧ ∀ p, packagesOf p order = packagesOf p l'.accepted := by
  obtain ⟨o, hreach, htracks⟩ := exists_inStep_of_run hplain hrun
  obtain ⟨out, hact, rfl⟩ := Option.map_eq_some_iff.mp hstep
  obtain ⟨haccepted, o', hreach', hcurrent, hhigh, hlow⟩ :=
    exists_idle_of_graceful hact hopen hgraceful hclosed (htracks hopen)
  obtain ⟨outboxActions, houtbox, hsame, hwire⟩ := hreach.trans hreach'
  obtain ⟨hstream, hall⟩ :=
    (Outbox.ordered_of_run houtbox).eq_of_idle hcurrent hhigh hlow
  refine ⟨o'.begun, ?_, fun p => ?_⟩
  · rw [← hstream, hwire, Life.wire, List.flatMap_append]
    rfl
  · rw [hall p, hsame, haccepted]
    rfl

/-- A socket that is closed by the event after the request. -/
theorem Life.all_sent_when_closed_later :
    ∃ l, runSteps Life.step (Birth.connected.life 1 5 0)
        [.send 1 ⟨100, none, [1, 2, 3]⟩ .low none (.wrote 1),
          .send 1 ⟨200, none, [9]⟩ .high none .again,
          .close 1 0 [.again]] = some l ∧
      l.sock.type = .halfclose ∧
      ∃ l', l.step (.event false true { write := [.wrote 2, .wrote 1] }) = some l' ∧
        ∃ order, l'.wire = streamOf order ∧ ∀ p, packagesOf p order = packagesOf p l'.accepted := by
  obtain ⟨l, hrun⟩ : ∃ l, runSteps Life.step (Birth.connected.life 1 5 0)
      [.send 1 ⟨100, none, [1, 2, 3]⟩ .low none (.wrote 1),
        .send 1 ⟨200, none, [9]⟩ .high none .again,
        .close 1 0 [.again]] = some l := ⟨_, rfl⟩
  have htype : l.sock.type = .halfclose := by
    cases hrun
    rfl
  obtain ⟨l', hstep, hclosed⟩ : ∃ l', l.step
      (.event false true { write := [.wrote 2, .wrote 1] }) = some l' ∧
        l'.sock.type = .invalid := by
    cases hrun
    exact ⟨_, rfl, rfl⟩
  have hgraceful : (SockAction.event false true
      { write := [.wrote 2, .wrote 1] }).Graceful := ⟨rfl, rfl, by simp⟩
  exact ⟨l, hrun, htype, l', hstep, Life.all_sent_when_closed
    (by simp [SockAction.PlainLow]) hrun (by simp [htype]) hgraceful hstep
    hclosed⟩

end Socket
end GameServer
