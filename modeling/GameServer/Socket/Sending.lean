import GameServer.Socket.Sock
import Mathlib.Tactic

/-!
# What sending does to a socket

One lemma for each of the functions `send_list`, `send_buffer`, `send_socket`
and `close_socket` says everything it can do to a socket.  The properties of the
write path are read off these lemmas.

`Sends` describes both kinds of `send_list`: some buffers at the front leave as
a whole and are freed, and then the loop stops, possibly within a buffer or
because a call fails.
-/

namespace GameServer
namespace Socket

open Lib Network

/-- What leaves by a socket: the bytes of a stream, or datagrams. -/
inductive Sent where
  | byte (b : Byte)
  | datagram (address data : List Byte)
deriving Repr, DecidableEq

/-- What a call sends. -/
def SysCall.sent : SysCall → List Sent
  | .write bytes => bytes.map .byte
  | .sendto address data => [.datagram address data]
  | _ => []

/-- A call that sends. -/
def SysCall.IsSend : SysCall → Prop
  | .write _ | .sendto _ _ => True
  | _ => False

/-- What leaves when the data is sent with the address. -/
def packageFor (protocol : Protocol) (udpAddress data : List Byte) :
    List Sent :=
  match protocol with
  | .tcp => data.map .byte
  | _ => [.datagram (udpSocketAddress protocol udpAddress) data]

/-- What is left to be sent of a write buffer. -/
def packageOf (protocol : Protocol) (wb : WriteBuffer) : List Sent :=
  packageFor protocol wb.udpAddress wb.data

/-- The bytes in a list of write buffers. -/
def bytesIn (list : List WriteBuffer) : Nat :=
  (list.map (·.data.length)).sum

@[simp] theorem bytesIn_nil : bytesIn [] = 0 := rfl

@[simp] theorem bytesIn_cons (wb : WriteBuffer) (list : List WriteBuffer) :
    bytesIn (wb :: list) = wb.data.length + bytesIn list := by
  simp [bytesIn]

@[simp] theorem bytesIn_append (first second : List WriteBuffer) :
    bytesIn (first ++ second) = bytesIn first + bytesIn second := by
  simp [bytesIn]

/-- What a socket has yet to send. -/
def Sock.pending (s : Sock) : List WriteBuffer := s.high ++ s.low

variable {s : Sock} {out : Outcome} {answers : List WriteAnswer}
  {udpAddress : Option (List Byte)} {request : RequestSend}

theorem sendBufferEmpty_iff : sendBufferEmpty s ↔ s.pending = [] := by
  simp [sendBufferEmpty, Sock.pending]

/-! ## One list -/

/-- A write buffer after `n` of its bytes have been sent. -/
def WriteBuffer.advance (wb : WriteBuffer) (n : Nat) : WriteBuffer :=
  { wb with ptr := wb.ptr + n, data := wb.data.drop n }

/-- Sending a list leaves a list and makes calls. -/
inductive Sends (protocol : Protocol) :
    List WriteBuffer → List WriteBuffer → List SysCall → Prop
  | stop (list : List WriteBuffer) : Sends protocol list list []
  | failed (list : List WriteBuffer) : Sends protocol list list [.sendFailed]
  | part (hprotocol : protocol = .tcp) (tmp : WriteBuffer)
      (rest : List WriteBuffer) {n : Nat} (hn : n < tmp.data.length) :
      Sends protocol (tmp :: rest) (tmp.advance n :: rest)
        [.write (tmp.data.take n)]
  | whole (tmp : WriteBuffer) {rest left : List WriteBuffer}
      {calls : List SysCall} {call : SysCall}
      (hsent : call.sent = packageOf protocol tmp)
      (hcall : call.IsSend) (hrest : Sends protocol rest left calls) :
      Sends protocol (tmp :: rest) left (call :: writeBufferFree tmp :: calls)

theorem sends_sendListTcp (list : List WriteBuffer) (wbSize : Int) (answers : List WriteAnswer) :
    Sends .tcp list (sendListTcp list wbSize answers).list
      (sendListTcp list wbSize answers).calls := by
  fun_induction sendListTcp list wbSize answers with
  | case1 => exact .stop _
  | case2 => exact .failed _
  | case3 => exact .failed _
  | case4 => exact .failed _
  | case5 tmp rest wbSize n answers sz hpart =>
    exact .part rfl tmp rest (by omega)
  | case6 tmp rest wbSize n answers sz hwhole result ih =>
    exact .whole tmp rfl trivial ih

theorem sends_sendListUdp {protocol : Protocol} (h : protocol ≠ .tcp)
    (list : List WriteBuffer) (wbSize : Int) (answers : List WriteAnswer) :
    Sends protocol list (sendListUdp protocol list wbSize answers).list
      (sendListUdp protocol list wbSize answers).calls := by
  fun_induction sendListUdp protocol list wbSize answers with
  | case1 => exact .stop _
  | case2 tmp rest wbSize n answers result ih =>
    refine .whole tmp ?_ trivial ih
    cases protocol with
    | tcp => exact absurd rfl h
    | udp => rfl
    | udpv6 => rfl
  | case3 => exact .failed _

/-- Everything `send_list` can do to a list. -/
theorem sends_sendList (protocol : Protocol) (list : List WriteBuffer)
    (wbSize : Int) (answers : List WriteAnswer) :
    Sends protocol list (sendList protocol list wbSize answers).list
      (sendList protocol list wbSize answers).calls := by
  cases protocol with
  | tcp => exact sends_sendListTcp list wbSize answers
  | udp => exact sends_sendListUdp (by simp) list wbSize answers
  | udpv6 => exact sends_sendListUdp (by simp) list wbSize answers

/-- Only a failed call makes `send_list` close the socket, and the answers it
leaves are some of those it got. -/
theorem failed_sendList (protocol : Protocol) (list : List WriteBuffer)
    (wbSize : Int) (answers : List WriteAnswer) :
    ((sendList protocol list wbSize answers).failed = true → .failed ∈ answers) ∧
      (sendList protocol list wbSize answers).answers ⊆ answers := by
  have htcp : ((sendListTcp list wbSize answers).failed = true → .failed ∈ answers) ∧
      (sendListTcp list wbSize answers).answers ⊆ answers := by
    fun_induction sendListTcp list wbSize answers with
    | case1 => simp
    | case2 => simp
    | case3 => simp
    | case4 => simp
    | case5 => simp
    | case6 tmp rest wbSize n answers sz hwhole result ih =>
      exact ⟨fun h => List.mem_cons_of_mem _ (ih.1 h), fun a ha => List.mem_cons_of_mem _ (ih.2 ha)⟩
  have hudp : ∀ protocol, (sendListUdp protocol list wbSize answers).failed = false ∧
      (sendListUdp protocol list wbSize answers).answers ⊆ answers := by
    clear htcp
    intro protocol
    fun_induction sendListUdp protocol list wbSize answers with
    | case1 => simp
    | case2 tmp rest wbSize n answers result ih =>
      exact ⟨ih.1, fun a ha => List.mem_cons_of_mem _ (ih.2 ha)⟩
    | case3 list wbSize answers => exact ⟨rfl, List.tail_subset answers⟩
  cases protocol with
  | tcp => exact htcp
  | udp => exact ⟨by simp [sendList, (hudp .udp).1], (hudp .udp).2⟩
  | udpv6 => exact ⟨by simp [sendList, (hudp .udpv6).1], (hudp .udpv6).2⟩

theorem wbSize_sendListTcp (list : List WriteBuffer) (wbSize : Int) (answers : List WriteAnswer) :
    (sendListTcp list wbSize answers).wbSize = wbSize - bytesIn list +
      bytesIn (sendListTcp list wbSize answers).list := by
  fun_induction sendListTcp list wbSize answers with
  | case1 => simp
  | case2 => simp
  | case3 => simp
  | case4 => simp
  | case5 tmp rest wbSize n answers sz hpart =>
    simp only [bytesIn_cons, List.length_drop]
    omega
  | case6 tmp rest wbSize n answers sz hwhole result ih =>
    simp only [bytesIn_cons, result]
    omega

theorem wbSize_sendListUdp (protocol : Protocol) (list : List WriteBuffer)
    (wbSize : Int) (answers : List WriteAnswer) :
    (sendListUdp protocol list wbSize answers).wbSize = wbSize - bytesIn list +
        bytesIn (sendListUdp protocol list wbSize answers).list := by
  fun_induction sendListUdp protocol list wbSize answers with
  | case1 => simp
  | case2 tmp rest wbSize n answers result ih =>
    simp only [bytesIn_cons, result]
    omega
  | case3 => simp

/-- `wb_size` goes down by the bytes that leave the list. -/
theorem wbSize_sendList (protocol : Protocol) (list : List WriteBuffer)
    (wbSize : Int) (answers : List WriteAnswer) :
    (sendList protocol list wbSize answers).wbSize = wbSize - bytesIn list +
        bytesIn (sendList protocol list wbSize answers).list := by
  cases protocol with
  | tcp => exact wbSize_sendListTcp list wbSize answers
  | udp => exact wbSize_sendListUdp .udp list wbSize answers
  | udpv6 => exact wbSize_sendListUdp .udpv6 list wbSize answers

/-! ## Closing -/

/-- `force_close` of a socket that is there. -/
theorem forceClose_eq (hinvalid : s.type ≠ .invalid) (hreserve : s.type ≠ .reserve) :
    forceClose s = some ({ s with type := .invalid, high := [], low := [] },
      freeWbList s.pending ++ closeCalls s.type) := by
  have hfree : freeWbList s.pending = freeWbList s.high ++ freeWbList s.low := by
    simp [freeWbList, Sock.pending]
  rw [hfree]
  unfold forceClose
  cases htype : s.type
  case invalid => exact absurd htype hinvalid
  case reserve => exact absurd htype hreserve
  all_goals rfl

/-- A message about a socket that has been closed. -/
theorem closeWith_eq_some {calls : List SysCall} {type : MessageType}
    (hinvalid : s.type ≠ .invalid) (h : closeWith s calls type = some out) :
    s.type ≠ .reserve ∧ out = ⟨{ s with type := .invalid, high := [], low := [] },
        calls ++ (freeWbList s.pending ++ closeCalls s.type),
        some ⟨type, s.id, s.owner, 0, .null⟩⟩ := by
  have hreserve : s.type ≠ .reserve := by
    intro hreserve
    simp [closeWith, forceClose, hreserve] at h
  refine ⟨hreserve, ?_⟩
  rw [closeWith, forceClose_eq hinvalid hreserve, Option.map_some, Option.some.injEq] at h
  exact h.symm

/-! ## Both lists -/

/-- Everything `send_buffer` can do: the list of high priority is sent first,
and the other one only when nothing is left of it. -/
inductive SendsBuffer (s : Sock) (answers : List WriteAnswer) :
    Outcome → Prop
  | highFailed {high : List WriteBuffer} {wbSize : Int} {calls : List SysCall}
      {out : Outcome} (hfailed : .failed ∈ answers)
      (hhigh : Sends s.protocol s.high high calls)
      (hout : closeWith { s with high := high, wbSize := wbSize } calls .close =
        some out) : SendsBuffer s answers out
  | highLeft {high : List WriteBuffer} {wbSize : Int} {calls : List SysCall}
      (hhigh : Sends s.protocol s.high high calls) (hleft : high ≠ [])
      (hsize : wbSize = s.wbSize - bytesIn s.high + bytesIn high) :
      SendsBuffer s answers
        ⟨{ s with high := high, wbSize := wbSize }, calls, none⟩
  | lowFailed {low : List WriteBuffer} {wbSize : Int}
      {calls lowCalls : List SysCall} {out : Outcome}
      (hfailed : .failed ∈ answers)
      (hhigh : Sends s.protocol s.high [] calls)
      (hlow : Sends s.protocol s.low low lowCalls)
      (hout : closeWith { s with high := [], low := low, wbSize := wbSize }
        (calls ++ lowCalls) .close = some out) : SendsBuffer s answers out
  | raised {wb : WriteBuffer} {low : List WriteBuffer} {wbSize : Int}
      {calls lowCalls : List SysCall}
      (hhigh : Sends s.protocol s.high [] calls)
      (hlow : Sends s.protocol s.low (wb :: low) lowCalls)
      (huncomplete : wb.ptr ≠ wb.buffer)
      (hsize : wbSize = s.wbSize - bytesIn s.pending + bytesIn (wb :: low)) :
      SendsBuffer s answers
        ⟨{ s with high := [wb], low := low, wbSize := wbSize },
          calls ++ lowCalls, none⟩
  | lowLeft {low : List WriteBuffer} {wbSize : Int}
      {calls lowCalls : List SysCall}
      (hhigh : Sends s.protocol s.high [] calls)
      (hlow : Sends s.protocol s.low low lowCalls) (hsome : s.low ≠ [])
      (hcomplete : listUncomplete low = false)
      (hsize : wbSize = s.wbSize - bytesIn s.pending + bytesIn low) :
      SendsBuffer s answers
        ⟨{ s with high := [], low := low, wbSize := wbSize },
          calls ++ lowCalls, none⟩
  | finished {wbSize : Int} {calls : List SysCall}
      (hhigh : Sends s.protocol s.high [] calls) (hnone : s.low = [])
      (htype : s.type ≠ .halfclose)
      (hsize : wbSize = s.wbSize - bytesIn s.pending) :
      SendsBuffer s answers ⟨{ s with high := [], wbSize := wbSize },
          calls ++ [.spWrite false], none⟩
  | closed {wbSize : Int} {calls : List SysCall} {out : Outcome}
      (hhigh : Sends s.protocol s.high [] calls) (hnone : s.low = [])
      (htype : s.type = .halfclose)
      (hout : closeWith { s with high := [], wbSize := wbSize }
        (calls ++ [.spWrite false]) .close = some out) : SendsBuffer s answers out

theorem sendsBuffer_of_sendBuffer (h : sendBuffer s answers = some out) :
    SendsBuffer s answers out := by
  have hhigh := sends_sendList s.protocol s.high s.wbSize answers
  obtain ⟨hfail, hanswers⟩ :=
    failed_sendList s.protocol s.high s.wbSize answers
  have hsize := wbSize_sendList s.protocol s.high s.wbSize answers
  rw [sendBuffer] at h
  split_ifs at h with hassert
  dsimp only at h
  generalize sendList s.protocol s.high s.wbSize answers = first at h hhigh hsize hfail hanswers
  obtain ⟨high, wbSize, calls, rest, failed⟩ := first
  dsimp only at h hhigh hsize hfail hanswers
  split_ifs at h with hfailed hempty hlowSome hlowFailed hraise hhalf
  · exact .highFailed (hfail hfailed) hhigh h
  · subst hempty
    have hlater := (failed_sendList s.protocol s.low wbSize rest).1 hlowFailed
    exact .lowFailed (hanswers hlater) hhigh (sends_sendList ..) h
  · subst hempty
    have hlow := sends_sendList s.protocol s.low wbSize rest
    have hlowSize := wbSize_sendList s.protocol s.low wbSize rest
    generalize sendList s.protocol s.low wbSize rest = second at h hlow hlowSize hraise
    obtain ⟨low, wbSize', lowCalls, rest', failed'⟩ := second
    dsimp only at h hlow hlowSize hraise
    -- the list is not empty, its head has been sent in part
    match low, hraise with
    | wb :: low, hraise =>
      cases h
      refine .raised hhigh hlow (by simpa [listUncomplete] using hraise) ?_
      simp only [Sock.pending, bytesIn_append, bytesIn_nil] at hsize ⊢
      omega
  · subst hempty
    have hlow := sends_sendList s.protocol s.low wbSize rest
    have hlowSize := wbSize_sendList s.protocol s.low wbSize rest
    cases h
    refine .lowLeft hhigh hlow hlowSome (by simpa using hraise) ?_
    simp only [Sock.pending, bytesIn_append, bytesIn_nil] at hsize ⊢
    omega
  · subst hempty
    rw [not_not] at hlowSome
    exact .closed hhigh hlowSome hhalf h
  · subst hempty
    rw [not_not] at hlowSome
    cases h
    refine .finished hhigh hlowSome hhalf ?_
    simp only [Sock.pending, bytesIn_append, bytesIn_nil, hlowSome] at hsize ⊢
    omega
  · cases h
    exact .highLeft hhigh hempty hsize

/-- A socket that is closed is reported. -/
theorem closeWith_ne_of_message {calls : List SysCall} {type : MessageType}
    (h : out.message = none) : closeWith s calls type ≠ some out := by
  intro hout
  obtain ⟨closed, -, rfl⟩ := Option.map_eq_some_iff.mp hout
  cases h

/-- What stays the same as long as a socket is not closed. -/
theorem SendsBuffer.same (h : SendsBuffer s answers out) (hmessage : out.message = none) :
    out.sock = { s with
      high := out.sock.high, low := out.sock.low, wbSize := out.sock.wbSize } ∧
      out.sock.wbSize = s.wbSize - bytesIn s.pending + bytesIn out.sock.pending := by
  cases h with
  | highFailed hfailed hhigh hout =>
    exact absurd hout (closeWith_ne_of_message hmessage)
  | lowFailed hfailed hhigh hlow hout =>
    exact absurd hout (closeWith_ne_of_message hmessage)
  | closed hhigh hnone htype hout =>
    exact absurd hout (closeWith_ne_of_message hmessage)
  | highLeft hhigh hleft hsize =>
    refine ⟨rfl, ?_⟩
    simp only [Sock.pending, bytesIn_append]
    omega
  | raised hhigh hlow huncomplete hsize => exact ⟨rfl, hsize⟩
  | lowLeft hhigh hlow hsome hcomplete hsize => exact ⟨rfl, hsize⟩
  | finished hhigh hnone htype hsize =>
    refine ⟨rfl, ?_⟩
    simpa [Sock.pending, hnone] using hsize

/-! ## Requests to send and to close -/

/-- What leaves when a request to send is executed. -/
def Sock.package (s : Sock) (udpAddress : Option (List Byte))
    (request : RequestSend) : List Sent :=
  packageFor s.protocol ((s.addressFor udpAddress).getD []) request.data

@[simp] theorem data_sendObjectInit (request : RequestSend) :
    (sendObjectInit request).data = request.data := by
  unfold sendObjectInit
  split <;> rfl

/-- Everything `send_socket` can do: the request is dropped, or its package is
sent at once, in part or as a whole, or it is put behind the others. -/
inductive SendsSocket (s : Sock) (id : Int) (request : RequestSend)
    (priority : Priority) (udpAddress : Option (List Byte))
    (answer : WriteAnswer) : Outcome → Prop
  | dropped (hdrops : s.drops id) :
      SendsSocket s id request priority udpAddress answer
        ⟨s, [freeRequest request], none⟩
  | failed {out : Outcome} (hopen : ¬ s.drops id)
      (hempty : sendBufferEmpty s) (htype : s.type = .connected)
      (hprotocol : s.protocol = .tcp) (hfailed : answer = .failed)
      (hout : closeWith s [.sendFailed] .close = some out) :
      SendsSocket s id request priority udpAddress answer out
  | direct {call : SysCall} (hopen : ¬ s.drops id)
      (hempty : sendBufferEmpty s) (htype : s.type = .connected)
      (hfailed : answer ≠ .failed)
      (hsent : call.sent = s.package udpAddress request)
      (hcall : call.IsSend) :
      SendsSocket s id request priority udpAddress answer
        ⟨s, [call, freeRequest request], none⟩
  | part {n : Nat} (hopen : ¬ s.drops id) (hempty : sendBufferEmpty s)
      (htype : s.type = .connected) (hprotocol : s.protocol = .tcp)
      (hfailed : answer ≠ .failed) (hn : n < request.data.length) :
      SendsSocket s id request priority udpAddress answer
        ⟨appendTo s .high (writeBufferOf request n []),
          [.write (request.data.take n), .spWrite true], none⟩
  | waits {address : List Byte} (hopen : ¬ s.drops id)
      (hempty : sendBufferEmpty s) (htype : s.type = .connected)
      (hprotocol : s.protocol ≠ .tcp)
      (hpackage : packageFor s.protocol address request.data =
        s.package udpAddress request) :
      SendsSocket s id request priority udpAddress answer
        ⟨appendTo s priority (writeBufferOf request 0 address),
          [.sendFailed, .spWrite true], none⟩
  | behind {address : List Byte} (hopen : ¬ s.drops id)
      (hbusy : ¬ (sendBufferEmpty s ∧ s.type = .connected))
      (hlisten : ¬ (s.type = .plisten ∨ s.type = .listen))
      (hpackage : packageFor s.protocol address request.data =
        s.package udpAddress request) :
      SendsSocket s id request priority udpAddress answer
        (appendTo s priority (writeBufferOf request 0 address)).quiet

/-- The branch that writes to the descriptor. -/
theorem sendsSocket_of_sendDirect {id : Int} {priority : Priority}
    {answer : WriteAnswer} (hopen : ¬ s.drops id) (hempty : sendBufferEmpty s)
    (htype : s.type = .connected)
    (h : sendDirect s request priority udpAddress answer = some out) :
    SendsSocket s id request priority udpAddress answer out := by
  simp only [sendDirect, data_sendObjectInit] at h
  by_cases hprotocol : s.protocol = .tcp
  · simp only [hprotocol] at h
    split_ifs at h with hfailed hwhole
    · exact .failed hopen hempty htype hprotocol hfailed h
    · cases h
      refine .direct hopen hempty htype hfailed ?_ trivial
      rw [hwhole, List.take_length, Sock.package, hprotocol]
      rfl
    · cases h
      exact .part hopen hempty htype hprotocol hfailed (by omega)
  · split at h
    · contradiction
    · obtain ⟨address, haddress, hout⟩ := Option.map_eq_some_iff.mp h
      have hpackage : packageFor s.protocol address request.data =
          s.package udpAddress request := by
        rw [Sock.package, haddress, Option.getD_some]
      split_ifs at hout with hwrote
      · subst hout
        refine .direct hopen hempty htype (by simp [hwrote]) ?_ trivial
        rw [← hpackage]
        cases hp : s.protocol with
        | tcp => exact absurd hp hprotocol
        | udp => rfl
        | udpv6 => rfl
      · subst hout
        exact .waits hopen hempty htype hprotocol hpackage

/-- The branch that puts the package behind the others. -/
theorem exists_of_sendBehind {after : Sock} {priority : Priority}
    (h : sendBehind s request priority udpAddress = some after) :
    ∃ address, after = appendTo s priority (writeBufferOf request 0 address) ∧
      packageFor s.protocol address request.data = s.package udpAddress request := by
  unfold sendBehind at h
  split at h
  · next hprotocol =>
    refine ⟨[], ?_, by rw [Sock.package, hprotocol]; rfl⟩
    cases priority <;> exact (Option.some.inj h).symm
  · obtain ⟨address, haddress, rfl⟩ := Option.map_eq_some_iff.mp h
    exact ⟨address, rfl, by rw [Sock.package, haddress, Option.getD_some]⟩

theorem sendsSocket_of_sendSocket {id : Int} {priority : Priority}
    {answer : WriteAnswer}
    (h : sendSocket s id request priority udpAddress answer = some out) :
    SendsSocket s id request priority udpAddress answer out := by
  rw [sendSocket] at h
  split_ifs at h with hdrops hlisten hdirect
  · cases h
    exact .dropped hdrops
  · exact sendsSocket_of_sendDirect hdrops hdirect.1 hdirect.2 h
  · obtain ⟨after, hafter, rfl⟩ := Option.map_eq_some_iff.mp h
    obtain ⟨address, rfl, hpackage⟩ := exists_of_sendBehind hafter
    exact .behind hdrops hdirect hlisten hpackage

/-- Everything `close_socket` can do: there may be nothing to close, the socket
may be closed by an error or after all has been sent, or it waits until then. -/
inductive ClosesSocket (s : Sock) (id : Int) (owner : Nat)
    (answers : List WriteAnswer) : Outcome → Prop
  | absent (habsent : s.type = .invalid ∨ s.id ≠ id) :
      ClosesSocket s id owner answers ⟨s, [], some ⟨.close, id, owner, 0, .null⟩⟩
  | ended {out : Outcome} (hhere : s.type ≠ .invalid ∧ s.id = id)
      (hsome : ¬ sendBufferEmpty s) (hsent : SendsBuffer s answers out)
      (hmessage : out.message ≠ none) : ClosesSocket s id owner answers out
  | closed {sent : Outcome} (hhere : s.type ≠ .invalid ∧ s.id = id)
      (hreserve : s.type ≠ .reserve)
      (hsent : sendBufferEmpty s ∧ sent = s.quiet ∨
        ¬ sendBufferEmpty s ∧ SendsBuffer s answers sent)
      (hmessage : sent.message = none) (hempty : sendBufferEmpty sent.sock) :
      ClosesSocket s id owner answers
        ⟨{ sent.sock with type := .invalid }, sent.calls ++ closeCalls s.type,
          some ⟨.close, id, owner, 0, .null⟩⟩
  | half {sent : Outcome} (hhere : s.type ≠ .invalid ∧ s.id = id)
      (hsome : ¬ sendBufferEmpty s) (hsent : SendsBuffer s answers sent)
      (hmessage : sent.message = none)
      (hleft : ¬ sendBufferEmpty sent.sock) :
      ClosesSocket s id owner answers
        { sent with sock := { sent.sock with type := .halfclose } }

/-- Closing what has nothing left to send. -/
theorem forceClose_of_sendBufferEmpty (hempty : sendBufferEmpty s)
    (hinvalid : s.type ≠ .invalid) (hreserve : s.type ≠ .reserve) :
    forceClose s = some ({ s with type := .invalid }, closeCalls s.type) := by
  rw [forceClose_eq hinvalid hreserve, sendBufferEmpty_iff.mp hempty]
  obtain ⟨owner, high, low, wbSize, fd, id, protocol, type, p⟩ := s
  obtain ⟨rfl, rfl⟩ := hempty
  rfl

/-- What is done with a socket after its buffers have been sent. -/
theorem closeSent_eq_some {id : Int} {owner : Nat} {sent : Outcome}
    (hinvalid : sent.message = none → sent.sock.type ≠ .invalid)
    (h : closeSent id owner sent = some out) :
    (sent.message ≠ none ∧ out = sent) ∨ (sent.message = none ∧ sendBufferEmpty sent.sock ∧
        sent.sock.type ≠ .reserve ∧
        out = ⟨{ sent.sock with type := .invalid }, sent.calls ++ closeCalls sent.sock.type,
          some ⟨.close, id, owner, 0, .null⟩⟩) ∨
      (sent.message = none ∧ ¬ sendBufferEmpty sent.sock ∧
        out = { sent with sock := { sent.sock with type := .halfclose } }) := by
  rw [closeSent] at h
  split_ifs at h with hmessage hempty
  · cases h
    exact .inl ⟨hmessage, rfl⟩
  · rw [not_not] at hmessage
    have hreserve : sent.sock.type ≠ .reserve := by
      intro hreserve
      simp [forceClose, hreserve] at h
    rw [forceClose_of_sendBufferEmpty hempty (hinvalid hmessage) hreserve,
      Option.map_some, Option.some.injEq] at h
    exact .inr (.inl ⟨hmessage, hempty, hreserve, h.symm⟩)
  · cases h
    exact .inr (.inr ⟨not_not.mp hmessage, hempty, rfl⟩)

theorem closesSocket_of_closeSocket {id : Int} {owner : Nat}
    (h : closeSocket s id owner answers = some out) :
    ClosesSocket s id owner answers out := by
  rw [closeSocket] at h
  split_ifs at h with habsent hempty
  · cases h
    exact .absent habsent
  · rw [not_or, not_not] at habsent
    rcases closeSent_eq_some (fun _ => habsent.1) h with
      ⟨hmessage, -⟩ | ⟨-, hnone, hreserve, rfl⟩ | ⟨-, hleft, -⟩
    · exact absurd rfl hmessage
    · exact .closed habsent hreserve (.inl ⟨hempty, rfl⟩) rfl hnone
    · exact absurd hempty hleft
  · rw [not_or, not_not] at habsent
    obtain ⟨sent, hsent, h⟩ := Option.bind_eq_some_iff.mp h
    have hsends := sendsBuffer_of_sendBuffer hsent
    have htype : sent.message = none → sent.sock.type = s.type := by
      intro hmessage
      rw [(hsends.same hmessage).1]
    have hinvalid : sent.message = none → sent.sock.type ≠ .invalid := by
      intro hmessage
      rw [htype hmessage]
      exact habsent.1
    rcases closeSent_eq_some hinvalid h with
      ⟨hmessage, rfl⟩ | ⟨hmessage, hnone, hreserve, rfl⟩ |
      ⟨hmessage, hleft, rfl⟩
    · exact .ended habsent hempty hsends hmessage
    · rw [htype hmessage] at hreserve ⊢
      exact .closed habsent hreserve (.inr ⟨hempty, hsends⟩) hmessage hnone
    · exact .half habsent hempty hsends hmessage hleft

end Socket
end GameServer
