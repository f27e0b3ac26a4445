import GameServer.Socket.WriteOrder

/-!
# The accounts of a socket

Two accounts are kept over the life of a socket.

* Every buffer handed over for sending is freed, queued or lost, exactly one of
  these, and it is freed by the function that belongs to it.  A buffer is lost
  only if the socket is closed by the very write that was to send it.
* `wb_size` is the number of bytes that were accepted and have not left.
-/

namespace GameServer
namespace Socket

open Lib Network

/-! ## Buffers and bytes -/

/-- A block of memory with the function that frees it. -/
def RequestSend.block (request : RequestSend) : Nat × Bool :=
  (request.buffer, request.object.isSome)

/-- The block of a write buffer. -/
def WriteBuffer.block (wb : WriteBuffer) : Nat × Bool :=
  (wb.buffer, wb.userobject)

/-- The block a call frees. -/
def SysCall.freed : SysCall → Option (Nat × Bool)
  | .free buffer userobject => some (buffer, userobject)
  | _ => none

/-- The blocks that calls free. -/
def freed (calls : List SysCall) : List (Nat × Bool) :=
  calls.filterMap SysCall.freed

/-- The blocks that are queued. -/
def Sock.blocks (s : Sock) : List (Nat × Bool) :=
  s.pending.map WriteBuffer.block

@[simp] theorem freed_append (first second : List SysCall) :
    freed (first ++ second) = freed first ++ freed second := by
  simp [freed]

@[simp] theorem freed_freeWbList (list : List WriteBuffer) :
    freed (freeWbList list) = list.map WriteBuffer.block := by
  simp [freed, freeWbList, Function.comp_def, writeBufferFree, SysCall.freed,
    WriteBuffer.block, List.filterMap_map]

@[simp] theorem freed_closeCalls (type : SocketType) : freed (closeCalls type) = [] := by
  cases type <;> rfl

theorem SysCall.IsSend.freed_eq_none {call : SysCall} (h : call.IsSend) : call.freed = none := by
  cases call with
  | write | sendto => rfl
  | _ => cases h

theorem SysCall.IsRead.freed_eq_none {call : SysCall} (h : call.IsRead) : call.freed = none := by
  cases call with
  | free => cases h
  | _ => rfl

@[simp] theorem freed_sendFailed : SysCall.sendFailed.freed = none := rfl

theorem freed_freeRequest (request : RequestSend) :
    (freeRequest request).freed = some request.block := by
  unfold freeRequest sendObjectInit RequestSend.block
  cases request.object <;> rfl

theorem block_writeBufferOf (request : RequestSend) (n : Nat) (address : List Byte) :
    (writeBufferOf request n address).block = request.block := by
  unfold writeBufferOf sendObjectInit RequestSend.block WriteBuffer.block
  cases request.object <;> rfl

variable {calls : List SysCall} {s : Sock} {out : Outcome}
  {request : RequestSend}

theorem Sends.blocks {protocol : Protocol} {list left : List WriteBuffer}
    (h : Sends protocol list left calls) :
    freed calls ++ left.map WriteBuffer.block = list.map WriteBuffer.block := by
  induction h with
  | stop list => rfl
  | failed list => rfl
  | part hprotocol tmp rest hn => rfl
  | @whole tmp rest left calls call hsent hcall hrest ih =>
    have hfreed : freed (call :: writeBufferFree tmp :: calls) = tmp.block :: freed calls := by
      rw [freed, List.filterMap_cons, hcall.freed_eq_none]
      rfl
    rw [hfreed, List.cons_append, ih, List.map_cons]

theorem Sends.bytes {list left : List WriteBuffer} (h : Sends .tcp list left calls) :
    (calls.flatMap SysCall.sent).length + bytesIn left = bytesIn list := by
  generalize hprotocol : Protocol.tcp = protocol at h
  induction h with
  | stop list => simp
  | failed list => simp
  | part _ tmp rest hn =>
    simp only [List.flatMap_singleton, SysCall.sent, List.length_map,
      List.length_take, bytesIn_cons, WriteBuffer.advance, List.length_drop]
    omega
  | @whole tmp rest left calls call hsent hcall hrest ih =>
    subst hprotocol
    have hlength : call.sent.length = tmp.data.length := by
      rw [hsent]
      exact List.length_map ..
    simp only [List.flatMap_cons, List.length_append, hlength,
      sent_writeBufferFree, List.length_nil, bytesIn_cons]
    omega

/-- What a function that accepts these packages and gets these buffers does to
the accounts. -/
structure Accounts (s : Sock) (new : List (Priority × List Sent))
    (given leaked : List RequestSend) (out : Outcome) : Prop where
  blocks : (freed out.calls ++ out.sock.blocks ++
    leaked.map RequestSend.block).Perm
      (s.blocks ++ given.map RequestSend.block)
  protocol : out.sock.protocol = s.protocol
  size : out.sock.type ≠ .invalid →
    out.sock.wbSize - bytesIn out.sock.pending =
      s.wbSize - bytesIn s.pending
  bytes : s.protocol = .tcp → out.sock.type ≠ .invalid →
    (out.calls.flatMap SysCall.sent).length + bytesIn out.sock.pending =
      bytesIn s.pending + (streamOf new).length

/-- Closing frees what is queued. -/
theorem accounts_closeWith {s' : Sock} {type : MessageType}
    (h : closeWith s' calls type = some out) (htype : s'.type ≠ .invalid)
    (hprotocol : s'.protocol = s.protocol) {new : List (Priority × List Sent)}
    {given leaked : List RequestSend} (hblocks : (freed calls ++ s'.blocks ++
      leaked.map RequestSend.block).Perm (s.blocks ++ given.map RequestSend.block)) :
    Accounts s new given leaked out := by
  obtain ⟨-, rfl⟩ := closeWith_eq_some htype h
  refine ⟨?_, hprotocol, fun hne => absurd rfl hne, fun _ hne => absurd rfl hne⟩
  simpa [Sock.blocks, Sock.pending] using hblocks

theorem SendsBuffer.accounts {answers : List WriteAnswer}
    (htype : s.type ≠ .invalid) (h : SendsBuffer s answers out) : Accounts s [] [] [] out := by
  -- as long as the socket is there, the sizes are those of `same`
  have hsize : out.message = none → out.sock.wbSize -
      bytesIn out.sock.pending = s.wbSize - bytesIn s.pending := by
    intro hmessage
    have := (h.same hmessage).2
    omega
  cases h with
  | highFailed hfailed hhigh hout =>
    refine accounts_closeWith (s := s) hout htype rfl (.of_eq ?_)
    simp [← hhigh.blocks, Sock.blocks, Sock.pending]
  | lowFailed hfailed hhigh hlow hout =>
    refine accounts_closeWith (s := s) hout htype rfl (.of_eq ?_)
    simp [← hhigh.blocks, ← hlow.blocks, Sock.blocks, Sock.pending]
  | closed hhigh hnone hhalf hout =>
    refine accounts_closeWith (s := s) hout htype rfl (.of_eq ?_)
    simp [← hhigh.blocks, hnone, Sock.blocks, Sock.pending, freed, SysCall.freed]
  | highLeft hhigh hleft _ =>
    refine ⟨.of_eq ?_, rfl, fun _ => hsize rfl, fun hprotocol _ => ?_⟩
    · simp [← hhigh.blocks, Sock.blocks, Sock.pending]
    · have := (hprotocol ▸ hhigh).bytes
      simp only [Sock.pending, bytesIn_append, streamOf_nil, List.length_nil]
      omega
  | raised hhigh hlow huncomplete _ =>
    refine ⟨.of_eq ?_, rfl, fun _ => hsize rfl, fun hprotocol _ => ?_⟩
    · simp [← hhigh.blocks, ← hlow.blocks, Sock.blocks, Sock.pending]
    · have hfirst := (hprotocol ▸ hhigh).bytes
      have hsecond := (hprotocol ▸ hlow).bytes
      simp only [Sock.pending, bytesIn_append, bytesIn_cons, bytesIn_nil,
        streamOf_nil, List.length_nil, List.flatMap_append,
        List.length_append] at hfirst hsecond ⊢
      omega
  | lowLeft hhigh hlow hsome hcomplete _ =>
    refine ⟨.of_eq ?_, rfl, fun _ => hsize rfl, fun hprotocol _ => ?_⟩
    · simp [← hhigh.blocks, ← hlow.blocks, Sock.blocks, Sock.pending]
    · have hfirst := (hprotocol ▸ hhigh).bytes
      have hsecond := (hprotocol ▸ hlow).bytes
      simp only [Sock.pending, bytesIn_append, bytesIn_nil, streamOf_nil,
        List.length_nil, List.flatMap_append, List.length_append]
        at hfirst hsecond ⊢
      omega
  | finished hhigh hnone hhalf _ =>
    refine ⟨.of_eq ?_, rfl, fun _ => hsize rfl, fun hprotocol _ => ?_⟩
    · simp [← hhigh.blocks, hnone, Sock.blocks, Sock.pending, freed, SysCall.freed]
    · have := (hprotocol ▸ hhigh).bytes
      simp only [Sock.pending, bytesIn_append, bytesIn_nil, streamOf_nil,
        List.length_nil, List.flatMap_append, List.length_append,
        List.flatMap_singleton, SysCall.sent, hnone] at this ⊢
      omega

/-- Nothing but the type, the owner and the union changes. -/
theorem accounts_same {s' : Sock} {message : Option Message}
    (hprotocol : s'.protocol = s.protocol) (hpending : s'.pending = s.pending)
    (hsize : s'.wbSize = s.wbSize) (hfreed : freed calls = [])
    (hsent : calls.flatMap SysCall.sent = []) :
    Accounts s [] [] [] ⟨s', calls, message⟩ := by
  refine ⟨.of_eq ?_, hprotocol, fun _ => ?_, fun _ _ => ?_⟩
  · simp [hfreed, Sock.blocks, hpending]
  · rw [hsize, hpending]
  · simp [hsent, hpending]

theorem pending_appendTo (s : Sock) (priority : Priority) (wb : WriteBuffer) :
    (appendTo s priority wb).pending.Perm (wb :: s.pending) ∧
      bytesIn (appendTo s priority wb).pending = wb.data.length + bytesIn s.pending ∧
      (appendTo s priority wb).wbSize = s.wbSize + wb.data.length := by
  cases priority with
  | high =>
    refine ⟨?_, ?_, rfl⟩
    · simp only [appendTo, Sock.pending, List.append_assoc, List.singleton_append]
      exact List.perm_middle
    · simp only [appendTo, Sock.pending, bytesIn_append, bytesIn_cons, bytesIn_nil]
      omega
  | low =>
    refine ⟨?_, ?_, rfl⟩
    · simp only [appendTo, Sock.pending, ← List.append_assoc]
      exact List.perm_append_singleton wb _
    · simp only [appendTo, Sock.pending, bytesIn_append, bytesIn_cons, bytesIn_nil]
      omega

/-- What is left of a package is put behind the others. -/
theorem accounts_appendTo {priority priority' : Priority} {n : Nat}
    {address : List Byte} {package : List Sent} (hfreed : freed calls = [])
    (hn : n ≤ request.data.length)
    (hbytes : s.protocol = .tcp → package.length = request.data.length ∧
      (calls.flatMap SysCall.sent).length = n) :
    Accounts s [(priority', package)] [request] []
      ⟨appendTo s priority (writeBufferOf request n address), calls, none⟩ := by
  obtain ⟨hperm, hlength, hsize⟩ :=
    pending_appendTo s priority (writeBufferOf request n address)
  have hdata : (writeBufferOf request n address).data.length = request.data.length - n := by
    simp [writeBufferOf]
  have hprotocol : (appendTo s priority
      (writeBufferOf request n address)).protocol = s.protocol := by
    cases priority <;> rfl
  refine ⟨?_, hprotocol, fun _ => ?_, fun htcp _ => ?_⟩
  · rw [hfreed, List.nil_append, List.map_nil, List.append_nil, List.map_singleton]
    refine (hperm.map WriteBuffer.block).trans ?_
    rw [List.map_cons, block_writeBufferOf]
    exact (List.perm_append_singleton _ _).symm
  · show Sock.wbSize _ - (bytesIn (Sock.pending _) : Int) = _
    rw [hsize, hlength]
    omega
  · obtain ⟨hpackage, hsent⟩ := hbytes htcp
    show _ + bytesIn (Sock.pending _) = _
    rw [hsent, hlength, hdata, streamOf_singleton, hpackage]
    omega

theorem length_package {udpAddress : Option (List Byte)} (h : s.protocol = .tcp) :
    (s.package udpAddress request).length = request.data.length := by
  simp [Sock.package, packageFor, h]

theorem SendsSocket.accounts {id : Int} {priority : Priority}
    {udpAddress : Option (List Byte)} {answer : WriteAnswer}
    (h : SendsSocket s id request priority udpAddress answer out) :
    Accounts s (s.accepted (.send id request priority udpAddress answer))
      [request] (s.leaked (.send id request priority udpAddress answer))
      out := by
  cases h with
  | dropped hdrops =>
    simp only [Sock.accepted, Sock.leaked, hdrops, not_true_eq_false, false_and, if_true, if_false]
    refine ⟨?_, rfl, fun _ => rfl, fun _ _ => by simp⟩
    simpa [freed, freed_freeRequest] using (List.perm_append_singleton _ _).symm
  | failed hopen hempty htype hprotocol hfailed hout =>
    have hleaked : s.leaked (.send id request priority udpAddress answer) =
        [request] := if_pos ⟨hopen, hempty, htype, hprotocol, hfailed⟩
    rw [hleaked]
    exact accounts_closeWith hout (by simp [htype]) rfl (.of_eq (by simp [freed]))
  | direct hopen hempty htype hfailed hsent hcall =>
    have hleaked : s.leaked (.send id request priority udpAddress answer) =
        [] := if_neg (by simp [hfailed])
    rw [hleaked, Sock.accepted_send hopen]
    refine ⟨?_, rfl, fun _ => rfl, fun htcp _ => ?_⟩
    · have hnone := hcall.freed_eq_none
      simpa [freed, hnone, freed_freeRequest] using (List.perm_append_singleton _ _).symm
    · simp only [List.flatMap_cons, hsent, sent_freeRequest, List.flatMap_nil,
        List.append_nil, streamOf_singleton]
      omega
  | @part n hopen hempty htype hprotocol hfailed hn =>
    have hleaked : s.leaked (.send id request priority udpAddress answer) =
        [] := if_neg (by simp [hfailed])
    rw [hleaked, Sock.accepted_send hopen]
    refine accounts_appendTo rfl hn.le fun htcp => ⟨length_package htcp, ?_⟩
    simp only [List.flatMap_cons, SysCall.sent, List.flatMap_nil,
      List.append_nil, List.length_map, List.length_take]
    omega
  | waits hopen hempty htype hprotocol hpackage =>
    have hleaked : s.leaked (.send id request priority udpAddress answer) =
        [] := if_neg (by simp [hprotocol])
    rw [hleaked, Sock.accepted_send hopen]
    exact accounts_appendTo rfl (Nat.zero_le _) fun htcp =>
      absurd htcp hprotocol
  | behind hopen hbusy hlisten hpackage =>
    have hleaked : s.leaked (.send id request priority udpAddress answer) =
        [] := if_neg fun h => hbusy ⟨h.2.1, h.2.2.1⟩
    rw [hleaked, Sock.accepted_send hopen]
    exact accounts_appendTo rfl (Nat.zero_le _) fun htcp =>
      ⟨length_package htcp, rfl⟩

theorem ClosesSocket.accounts {id : Int} {owner : Nat}
    {answers : List WriteAnswer} (h : ClosesSocket s id owner answers out) :
    Accounts s [] [] [] out := by
  cases h with
  | absent habsent => exact accounts_same rfl rfl rfl rfl rfl
  | ended hhere hsome hsent hmessage => exact hsent.accounts hhere.1
  | @closed sent hhere hreserve hsent hmessage hempty =>
    have hblocks : (freed sent.calls ++ sent.sock.blocks).Perm s.blocks ∧
        sent.sock.protocol = s.protocol := by
      rcases hsent with ⟨-, rfl⟩ | ⟨-, hsent⟩
      · exact ⟨.of_eq rfl, rfl⟩
      · have haccounts := hsent.accounts hhere.1
        exact ⟨by simpa using haccounts.blocks, haccounts.protocol⟩
    refine ⟨?_, hblocks.2, fun hne => absurd rfl hne, fun _ hne => absurd rfl hne⟩
    simpa [Sock.blocks, Sock.pending] using hblocks.1
  | @half sent hhere hsome hsent hmessage hleft =>
    have haccounts := hsent.accounts hhere.1
    have htype : sent.sock.type ≠ .invalid := by
      rw [(hsent.same hmessage).1]
      exact hhere.1
    exact ⟨haccounts.blocks, haccounts.protocol,
      fun _ => haccounts.size htype, fun htcp _ => haccounts.bytes htcp htype⟩

theorem ActsOther.accounts {a : SockAction} (h : ActsOther s a out) : Accounts s [] [] [] out := by
  cases h with
  | same owner message hp => exact accounts_same rfl rfl rfl rfl rfl
  | started owner message htype => exact accounts_same rfl rfl rfl rfl rfl
  | refused message htype => exact accounts_same rfl rfl rfl rfl rfl
  | setopt what value htype => exact accounts_same rfl rfl rfl rfl rfl
  | read call hcall message hp =>
    exact accounts_same rfl rfl rfl (by simp [freed, hcall.freed_eq_none])
      (by simp [hcall.sent_eq_nil])
  | connected message htype =>
    split_ifs
    · exact accounts_same rfl rfl rfl rfl rfl
    · exact accounts_same rfl rfl rfl rfl rfl
  | closed htype call hcall hkind hout =>
    exact accounts_closeWith hout htype rfl (.of_eq (by simp [freed, hcall.freed_eq_none]))

/-- One lemma for all actions. -/
theorem Acts.accounts {a : SockAction} (h : Acts s a out) :
    Accounts s (s.accepted a) a.given (s.leaked a) out := by
  cases h with
  | send h => exact h.accounts
  | close h => exact h.accounts
  | flush htype hread h => exact h.accounts htype.1
  | other hsend h =>
    rw [hsend.1, hsend.2.1, hsend.2.2]
    exact h.accounts

/-- The accounts over a life. -/
structure Life.Balanced (l : Life) : Prop where
  blocks : (freed l.calls ++ l.sock.blocks ++
    l.leaked.map RequestSend.block).Perm (l.given.map RequestSend.block)
  size : l.sock.type ≠ .invalid → l.sock.wbSize = bytesIn l.sock.pending
  bytes : l.sock.protocol = .tcp → l.sock.type ≠ .invalid →
    l.wire.length + bytesIn l.sock.pending = (streamOf l.accepted).length

theorem Life.balanced_birth (b : Birth) (id fd : Int) (owner : Nat) :
    (b.life id fd owner).Balanced := by
  refine ⟨.of_eq ?_, fun _ => rfl, fun _ _ => ?_⟩
  · cases b <;> rfl
  · cases b <;> rfl

theorem Life.Balanced.step {l l' : Life} {a : SockAction} (h : l.Balanced)
    (hstep : l.step a = some l') : l'.Balanced := by
  obtain ⟨out, hacts, rfl⟩ := exists_of_step hstep
  have haccounts := hacts.accounts
  have hopen : out.sock.type ≠ .invalid → l.sock.type ≠ .invalid :=
    fun hne htype => hne (hacts.of_invalid htype).1
  refine ⟨?_, fun hne => ?_, fun htcp hne => ?_⟩
  · have hold := h.blocks
    have hnew := haccounts.blocks
    rw [List.perm_iff_count] at hold hnew ⊢
    intro block
    have hold := hold block
    have hnew := hnew block
    simp only [freed_append, List.map_append, List.count_append] at hold hnew ⊢
    omega
  · have hold := h.size (hopen hne)
    have hnew := haccounts.size hne
    show out.sock.wbSize = bytesIn out.sock.pending
    omega
  · have hprotocol : l.sock.protocol = .tcp := haccounts.protocol ▸ htcp
    have hold := h.bytes hprotocol (hopen hne)
    have hnew := haccounts.bytes hprotocol hne
    simp only [Life.wire, List.flatMap_append, List.length_append, streamOf_append] at hold hnew ⊢
    omega

theorem Life.balanced_of_run {b : Birth} {id fd : Int} {owner : Nat}
    {actions : List SockAction} {l : Life}
    (hrun : runSteps Life.step (b.life id fd owner) actions = some l) :
    l.Balanced :=
  runSteps_invariant (fun _ _ _ h hstep => h.step hstep) (Life.balanced_birth b id fd owner) hrun

end Socket
end GameServer
