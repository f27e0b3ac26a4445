import GameServer.Lib.Transition
import GameServer.Client.HelloClient
import GameServer.Network.RoundTrip

/-!
# The example client and the server

The two threads of the example client, the server and the two byte streams
between them.  The sender puts two hundred packets into the pool and sends them;
the server reads the stream in pieces of any size, cuts it with `scanFrame`,
which is what one round of `UnpackPacketToRecvQueue` does, answers with
`HandleCSProto` and writes with `PacketBufferSend`; the receiver reads the
replies in pieces of any size.  Between its ends the server is two fifos: the
packets unpacked and not handled, and the replies produced and not written.
The connection stays open, so that `read` and `send` do not fail.

The receiver works only if the replies become no shorter, because its loop
compares what is left with the reply it has just handled.  They do not: the
texts become longer, the numbers become larger, and so do the readings of the
server's clock.

`exchange_ends` says that no assertion of the client fails, that the client never
waits for a reply it already has, and that all runs end.  `exchange_verified`
says what it has written then.
-/

namespace GameServer
namespace SocketClient

open Lib Network Gamehandle

/-! ## The system -/

/-- What the environment supplies: the parsers, the memory in which packets are
constructed, and the readings of `GetMilliSecond` for each packet, all of them
given in advance.  The clocks have left zero, and the server's does not go
back. -/
structure Setting where
  parser : CSHelloParser
  rspParser : CSHelloRspParser
  memory : Nat → StPacket
  /-- In `do_send_msg`. -/
  sendTime : Nat → UInt64
  /-- When the server unpacks the request. -/
  unpackTime : Nat → UInt64
  /-- In `HandleCSProtoHello`. -/
  logicTime : Nat → UInt64
  /-- When the reply's packet is constructed. -/
  produceTime : Nat → UInt64
  /-- In `PrepareTail`. -/
  tailTime : Nat → UInt64
  /-- In `recv_msg`. -/
  recvTime : Nat → UInt64
  ulClientSeq : UInt64
  iClientFd : Int
  unpackTime_pos : ∀ i, 0 < unpackTime i
  unpackTime_mono : ∀ {i j}, i ≤ j → unpackTime i ≤ unpackTime j
  logicTime_mono : ∀ {i j}, i ≤ j → logicTime i ≤ logicTime j
  recvTime_pos : ∀ i, 0 < recvTime i

/-- Where the receiving thread stands. -/
inductive RecvPc where
  /-- At the head of the outer loop. -/
  | reading
  /-- At the head of the inner loop. -/
  | parsing
  /-- Behind `Statistics`. -/
  | done
deriving DecidableEq

/-- The stages of the receiving thread that are to come before it is done. -/
def RecvPc.rank : RecvPc → Nat
  | .reading => 1
  | .parsing => 2
  | .done => 0

/-- The client, the streams and the server. -/
structure Exchange where
  /-- The packets put into the pool. -/
  added : Nat
  /-- The bytes of a packet that is in the pool and not sent. -/
  sending : Option (List Byte)
  client : StClient
  pc : RecvPc
  total : Nat
  requests : List Byte
  content : List Byte
  unpacked : Nat
  received : List NetPacketBuffer
  handled : Nat
  produced : List NetPacketBuffer
  written : Nat
  replies : List Byte
  printed : List StStatistics

inductive ExchangeAction where
  /-- `do_send_msg` up to and with `AddPacket`. -/
  | addPacket
  /-- Its `send`. -/
  | send
  /-- The server receives bytes. -/
  | serverRead (n : Nat)
  /-- The server unpacks a packet. -/
  | serverUnpack
  /-- The logic thread handles a packet. -/
  | serverHandle
  /-- The network thread writes a reply. -/
  | serverSend
  /-- `read` of the receiving thread returns. -/
  | read (n : Nat)
  /-- A round of the inner loop. -/
  | parse
  /-- `Statistics`, behind the outer loop. -/
  | finish

namespace Exchange

/-- Before the threads start. -/
def start : Exchange :=
  ⟨0, none, .construct, .reading, 0, [], [], 0, [], 0, [], 0, [], []⟩

variable (E : Setting)

/-- One action.  `none` means that it is not enabled or that the client or the
server has stopped. -/
def step (s : Exchange) : ExchangeAction → Option Exchange
  | .addPacket =>
    if s.sending = none ∧ s.added < maxTestPacketNumber * 2 then
      let message := doSendMsg (E.memory s.added) s.added (sendSize s.added)
        (E.sendTime s.added)
      some { s with
        added := s.added + 1
        sending := some message.2
        client := s.client.withPool
          (poolInsert message.1 s.client.packetPool) }
    else
      none
  | .send => s.sending.map fun buffer =>
    { s with sending := none, requests := s.requests ++ buffer }
  | .serverRead n =>
    if 0 < n ∧ n ≤ s.requests.length ∧
        s.content.length + n ≤ contextBufferCapacity then
      some { s with
        requests := s.requests.drop n
        content := s.content ++ s.requests.take n }
    else
      none
  | .serverUnpack =>
    match scanFrame s.content with
    | .frame p rest => some { s with
        content := rest
        unpacked := s.unpacked + 1
        received := s.received ++ [⟨E.ulClientSeq, E.iClientFd, p.1,
          p.2.length, E.unpackTime s.unpacked, p.2⟩] }
    | _ => none
  | .serverHandle =>
    match s.received with
    | [] => none
    | packet :: rest =>
      (handleCSProto E.parser .construct packet (E.logicTime s.handled)
        (E.produceTime s.handled)).map fun ctx =>
          { s with
            handled := s.handled + 1
            received := rest
            produced := s.produced ++
              ctx.netPacketSendPrepareQueue.vecPacketPool }
  | .serverSend =>
    match s.produced with
    | [] => none
    | packet :: rest => some { s with
        written := s.written + 1
        produced := rest
        replies := s.replies ++
          packet.packetBufferSend (E.tailTime s.written) }
  | .read n =>
    if s.pc = .reading ∧ s.total < maxTestPacketNumber * 2 ∧ 0 < n ∧
        n ≤ s.replies.length then
      if h : (s.replies.take n).length ≤ s.client.iReadLen then
        some { s with
          client := s.client.read (s.replies.take n) h
          replies := s.replies.drop n
          pc := .parsing }
      else
        none
    else
      none
  | .parse =>
    if s.pc = .parsing then
      (s.client.recvBody E.rspParser (E.recvTime s.total)).map fun outcome =>
        match outcome with
        | .incomplete => { s with pc := .reading }
        | .handled client again =>
          { s with
            client := client
            total := s.total + 1
            pc := if again then .parsing else .reading }
    else
      none
  | .finish =>
    if s.pc = .reading ∧ ¬ s.total < maxTestPacketNumber * 2 then
      s.client.printStatistics.map fun lines =>
        { s with pc := .done, printed := s.printed ++ lines }
    else
      none

end Exchange

/-! ## What is under way -/

/-- The bytes of packet `i` as the client sends it. -/
def requestBytes (i : Nat) : List Byte :=
  frameOf ProtocolMessageId.csHello.value (helloOf i).serialize

/-- Packet `i` in the pool before its reply. -/
def Setting.sentPacket (E : Setting) (i : Nat) : StPacket :=
  { E.memory i with
    iPacketNo := Int32.ofNat i
    iProtoNo := 1
    iClientSendTime := E.sendTime i
    sendData := sendDataOf i }

/-- Packet `i` as the server unpacks it. -/
def Setting.requestPacket (E : Setting) (i : Nat) : NetPacketBuffer :=
  ⟨E.ulClientSeq, E.iClientFd, ProtocolMessageId.csHello.value,
    (helloOf i).serialize.length, E.unpackTime i, (helloOf i).serialize⟩

/-- The reply to packet `i`. -/
def Setting.replyOf (E : Setting) (i : Nat) : CSHelloRsp :=
  ⟨Int32.ofNat i, helloText i (sendSize i), E.unpackTime i, E.logicTime i⟩

theorem sendData_sentPacket (E : Setting) (i : Nat) : (E.sentPacket i).sendData = sendDataOf i := by
  simp only [Setting.sentPacket]

theorem content_replyOf (E : Setting) (i : Nat) :
    (E.replyOf i).content = helloText i (sendSize i) := rfl

/-- The packet that holds the reply. -/
def Setting.replyPacket (E : Setting) (i : Nat) : NetPacketBuffer :=
  ⟨E.ulClientSeq, E.iClientFd, ProtocolMessageId.csHello.value,
    (E.replyOf i).serialize.length, E.produceTime i, (E.replyOf i).serialize⟩

/-- The bytes of the reply. -/
def Setting.replyFrame (E : Setting) (i : Nat) : List Byte :=
  replyBytes (E.replyOf i) (E.tailTime i)

/-- Packet `i` in the pool behind its reply. -/
def Setting.answeredPacket (E : Setting) (i : Nat) : StPacket :=
  (E.sentPacket i).answered (E.replyOf i) (E.tailTime i) (E.recvTime i)

/-- The frames with the numbers from `i` on, `n` of them. -/
def frames (f : Nat → List Byte) (i n : Nat) : List Byte :=
  ((List.range' i n).map f).flatten

@[simp] theorem frames_zero (f : Nat → List Byte) (i : Nat) : frames f i 0 = [] := rfl

theorem frames_succ (f : Nat → List Byte) (i n : Nat) :
    frames f i (n + 1) = f i ++ frames f (i + 1) n := rfl

theorem frames_concat (f : Nat → List Byte) (i n : Nat) :
    frames f i (n + 1) = frames f i n ++ f (i + n) := by
  rw [frames, List.range'_concat, List.map_append, List.flatten_append,
    Nat.one_mul, List.map_singleton, List.flatten_singleton]
  rfl

variable {i : Nat}

/-- If there are bytes under way, there are frames under way. -/
theorem lt_of_frames_ne_nil {f : Nat → List Byte} {j : Nat}
    (h : frames f i (j - i) ≠ []) : i < j := by
  by_contra hle
  rw [Nat.sub_eq_zero_of_le (Nat.not_lt.mp hle), frames_zero] at h
  exact h rfl

/-! ### Sizes -/

theorem int32Varint_ofNat (h : InTest i) : int32Varint (Int32.ofNat i) = i := by
  have hsmall : i < 200 := h
  have hvalue : (Int32.ofNat i).toInt = i :=
    Int32.toInt_ofNat_of_lt (by omega)
  rw [int32Varint, hvalue, ofSigned_natCast (by omega)]

theorem ofNat_inj_of_inTest {j : Nat} (hi : InTest i) (hj : InTest j) :
    Int32.ofNat i = Int32.ofNat j ↔ i = j := by
  constructor
  · intro h
    rw [← int32Varint_ofNat hi, h, int32Varint_ofNat hj]
  · rintro rfl
    rfl

theorem varintFieldSize_mono {m n : Nat} (h : m ≤ n) : varintFieldSize m ≤ varintFieldSize n := by
  have hlog := Nat.log_mono_right (b := 128) h
  unfold varintFieldSize
  split_ifs <;> omega

theorem le_length_helloText (i : Nat) : 240 ≤ (helloText i (sendSize i)).length := by
  rw [length_helloText]
  rcases sendSize_cases i with hsize | hsize <;> omega

theorem length_helloText_mono {j : Nat} (h : i ≤ j) :
    (helloText i (sendSize i)).length ≤ (helloText j (sendSize j)).length := by
  have hlog := Nat.log_mono_right (b := 10) h
  have hsize : sendSize i ≤ sendSize j := by
    unfold sendSize
    split_ifs <;> omega
  rw [length_helloText, length_helloText]
  omega

/-- The length of a text takes two bytes. -/
theorem bytesFieldSize_helloText (h : InTest i) :
    bytesFieldSize (helloText i (sendSize i)).length =
      3 + (helloText i (sendSize i)).length := by
  have hlow := le_length_helloText i
  have hhigh := length_helloText_lt h
  have hlog : Nat.log 128 (helloText i (sendSize i)).length = 1 :=
    Nat.log_eq_of_pow_le_of_lt_pow (by omega) (by omega)
  rw [bytesFieldSize, if_neg (by omega), hlog]

theorem length_requestBytes_lt {i : Nat} (h : InTest i) : (requestBytes i).length < 600 := by
  have hid := varintFieldSize_le (int32Varint_lt (Int32.ofNat i))
  have htext := length_helloText_lt h
  have hheader : networkPacketHeaderSize = 4 := rfl
  rw [requestBytes, length_frameOf, CSHello.length_serialize, helloOf, bytesFieldSize_helloText h]
  dsimp only
  omega

variable (E : Setting)

theorem length_replyFrame (h : InTest i) :
    (E.replyFrame i).length = 15 + varintFieldSize i +
      (helloText i (sendSize i)).length +
      varintFieldSize (E.unpackTime i).toNat +
      varintFieldSize (E.logicTime i).toNat := by
  have hheader : protoHeaderSize = 4 := rfl
  have htail : protoTailSize = 8 := rfl
  rw [Setting.replyFrame, length_replyBytes, CSHelloRsp.length_serialize,
    Setting.replyOf, int32Varint_ofNat h, bytesFieldSize_helloText h]
  dsimp only
  omega

/-- A reply has at least 256 bytes, because its clock has left zero. -/
theorem replyFrame_bounds (h : InTest i) :
    256 ≤ (E.replyFrame i).length ∧ (E.replyFrame i).length < 560 := by
  have hlow := le_length_helloText i
  have hhigh := length_helloText_lt h
  have hsmall : i < 200 := h
  have hid := varintFieldSize_le (show i < 2 ^ 64 by omega)
  have hunpack := varintFieldSize_le (E.unpackTime i).toNat_lt
  have hlogic := varintFieldSize_le (E.logicTime i).toNat_lt
  have hpos := E.unpackTime_pos i
  rw [UInt64.lt_iff_toNat_lt, UInt64.toNat_zero] at hpos
  have htwo := two_le_varintFieldSize hpos.ne'
  rw [length_replyFrame E h]
  omega

/-- **Replies do not become shorter.** -/
theorem length_replyFrame_mono {j : Nat} (hj : InTest j) (h : i ≤ j) :
    (E.replyFrame i).length ≤ (E.replyFrame j).length := by
  have hid := varintFieldSize_mono h
  have htext := length_helloText_mono h
  have hunpack := varintFieldSize_mono (UInt64.le_iff_toNat_le.mp (E.unpackTime_mono h))
  have hlogic := varintFieldSize_mono (UInt64.le_iff_toNat_le.mp (E.logicTime_mono h))
  rw [length_replyFrame E (lt_of_le_of_lt h hj), length_replyFrame E hj]
  omega

/-! ### The server -/

theorem length_serialize_helloOf (h : InTest i) :
    0 < (helloOf i).serialize.length ∧
      (helloOf i).serialize.length ≤ networkPacketBufferMaxSize := by
  have hlength := length_requestBytes_lt h
  have hlow := le_length_helloText i
  have hmax : networkPacketBufferMaxSize = 10240 := rfl
  refine ⟨?_, ?_⟩
  · rw [CSHello.length_serialize, helloOf, bytesFieldSize_helloText h]
    omega
  · rw [requestBytes, length_frameOf] at hlength
    omega

/-- The server finds a request where the client put it. -/
theorem scanFrame_requestBytes (h : InTest i) (rest : List Byte) :
    scanFrame (requestBytes i ++ rest) =
      .frame (ProtocolMessageId.csHello.value, (helloOf i).serialize) rest := by
  obtain ⟨hpos, hmax⟩ := length_serialize_helloOf h
  exact scanFrame_frameOf_append hpos hmax (by decide) (by decide) rest

/-- The server answers a request with its reply. -/
theorem handleCSProto_requestPacket (h : InTest i) :
    (handleCSProto E.parser .construct (E.requestPacket i) (E.logicTime i) (E.produceTime i)).map
      (fun ctx => ctx.netPacketSendPrepareQueue.vecPacketPool) = some [E.replyPacket i] := by
  have hparse : E.parser.parseFromArray (helloOf i).serialize = helloOf i :=
    E.parser.parse_serialize _ fun c hc => (mem_helloText hc).2
  have hbody : (E.requestPacket i).buffer.take (E.requestPacket i).iBufferSize =
      (helloOf i).serialize := List.take_length
  have hmax : (E.replyOf i).serialize.length ≤ networkPacketBufferMaxSize := by
    have hlength := (replyFrame_bounds E h).2
    have hlimit : networkPacketBufferMaxSize = 10240 := rfl
    rw [Setting.replyFrame, length_replyBytes] at hlength
    omega
  have hadd : (NetworkContext.construct.netPacketSendPrepareQueue).addPacket
      E.ulClientSeq E.iClientFd ProtocolMessageId.csHello.value
      (E.replyOf i).serialize.length (E.replyOf i).serialize
      (E.produceTime i) = some ⟨1, [E.replyPacket i]⟩ := by
    rw [NetPacketQueue.addPacket_eq_some_iff, List.take_length]
    exact ⟨hmax, rfl⟩
  have hhello : (E.requestPacket i).iProtoNo =
      ProtocolMessageId.csHello.value := rfl
  have hproduce : handleCSProtoHello E.parser .construct (E.requestPacket i)
      (E.logicTime i) (E.produceTime i) =
        NetworkContext.construct.packetProduceProtobufPacket E.ulClientSeq
          E.iClientFd ProtocolMessageId.csHello.value (E.replyOf i).serialize
          (E.produceTime i) := by
    rw [handleCSProtoHello, hbody, hparse]
    rfl
  rw [handleCSProto, if_pos hhello, hproduce, NetworkContext.packetProduceProtobufPacket, hadd]
  rfl

theorem packetBufferSend_replyPacket (i : Nat) :
    (E.replyPacket i).packetBufferSend (E.tailTime i) = E.replyFrame i :=
  (E.replyPacket i).packetBufferSend_eq_frameOf rfl (E.tailTime i)

/-! ## The invariant -/

/-- Packet `i` in the pool when `total` replies have been handled. -/
def Setting.poolPacket (total i : Nat) : StPacket :=
  if i < total then E.answeredPacket i else E.sentPacket i

theorem iPacketNo_poolPacket (total i : Nat) :
    (E.poolPacket total i).iPacketNo = Int32.ofNat i := by
  unfold Setting.poolPacket
  split_ifs
  · unfold Setting.answeredPacket StPacket.answered StPacket.calcTTL
    split_ifs <;> rfl
  · rfl

/-- What `recv_msg` has found out about a packet behind its reply: the text came
back, and the time on the way is made up of its parts. -/
theorem answeredPacket_verified (i : Nat) :
    (E.answeredPacket i).bRecvTTLSucc = true ∧
      (E.answeredPacket i).recvData = (E.answeredPacket i).sendData ∧
      (E.answeredPacket i).statistics.iTotalPacketNum = 1 ∧
      (E.answeredPacket i).statistics.iTotalTTL =
        (E.answeredPacket i).statistics.iTotalSrvRecvTime +
          (E.answeredPacket i).statistics.iTotalSvrTTL +
          (E.answeredPacket i).statistics.iTotalClientRecvTime ∧
      (E.answeredPacket i).statistics.iTotalSvrTTL =
        (E.answeredPacket i).statistics.iTotalSrvLogicInternalCost +
          (E.answeredPacket i).statistics.iTotalSrvNetInternalCost := by
  have hpos : ¬ E.recvTime i ≤ 0 := by
    have hrecv := E.recvTime_pos i
    rw [UInt64.lt_iff_toNat_lt] at hrecv
    rw [UInt64.le_iff_toNat_le]
    omega
  rw [Setting.answeredPacket, StPacket.answered, StPacket.calcTTL, if_neg hpos]
  refine ⟨rfl, rfl, rfl, ?_, ?_⟩
  · dsimp only
    grind
  · dsimp only
    grind

namespace Exchange

/-- The number of packets sent. -/
def sent (s : Exchange) : Nat :=
  match s.sending with
  | none => s.added
  | some _ => s.added - 1

/-- Everything that is under way has its number, and nothing is missing. -/
structure Inv (s : Exchange) : Prop where
  added_le : s.added ≤ maxTestPacketNumber * 2
  sending : ∀ buffer, s.sending = some buffer →
    0 < s.added ∧ buffer = requestBytes (s.added - 1)
  unpacked_le : s.unpacked ≤ s.sent
  requests : s.content ++ s.requests =
    frames requestBytes s.unpacked (s.sent - s.unpacked)
  handled_le : s.handled ≤ s.unpacked
  received : s.received =
    (List.range' s.handled (s.unpacked - s.handled)).map E.requestPacket
  written_le : s.written ≤ s.handled
  produced : s.produced =
    (List.range' s.written (s.handled - s.written)).map E.replyPacket
  total_le : s.total ≤ s.written
  replies : s.client.held ++ s.replies =
    frames E.replyFrame s.total (s.written - s.total)
  pool : s.client.packetPool =
    (List.range s.added).map (E.poolPacket s.total)
  /-- A thread that waits has no complete reply. -/
  reading : s.pc = .reading → s.total < s.written →
    s.client.recvedSize < (E.replyFrame s.total).length
  parsing : s.pc = .parsing → 0 < s.client.recvedSize
  running : s.pc ≠ .done → s.printed = []
  done : s.pc = .done → s.total = maxTestPacketNumber * 2 ∧ s.printed =
    (List.range (maxTestPacketNumber * 2)).map fun i =>
      (E.answeredPacket i).statistics

/-- What is left to be done.  A packet that has not been sent weighs more than
its bytes, a reply that has not been written more than twice its bytes. -/
def potential (s : Exchange) : Nat :=
  (maxTestPacketNumber * 2 - s.added) +
    600 * (maxTestPacketNumber * 2 - s.sent) + s.requests.length +
    (maxTestPacketNumber * 2 - s.unpacked) +
    (maxTestPacketNumber * 2 - s.handled) +
    1200 * (maxTestPacketNumber * 2 - s.written) + 2 * s.replies.length +
    (maxTestPacketNumber * 2 - s.total) + s.pc.rank

/-- A step keeps the invariant and leaves less to be done. -/
def Advances (E : Setting) (s s' : Exchange) : Prop :=
  Inv E s' ∧ s'.potential < s.potential

variable {E} {s s' : Exchange}

theorem sent_le (s : Exchange) : s.sent ≤ s.added := by
  unfold sent
  split <;> omega

theorem inv_start : Inv E start where
  added_le := Nat.zero_le _
  sending := fun _ h => by cases h
  unpacked_le := Nat.zero_le _
  requests := rfl
  handled_le := Nat.zero_le _
  received := rfl
  written_le := Nat.zero_le _
  produced := rfl
  total_le := Nat.zero_le _
  replies := rfl
  pool := rfl
  reading := fun _ h => absurd h (Nat.lt_irrefl _)
  parsing := fun h => by cases h
  running := fun _ => rfl
  done := fun h => by cases h

namespace Inv

theorem total_le_added (h : Inv E s) : s.total ≤ s.added := by
  have hsent := s.sent_le
  have hunpacked := h.unpacked_le
  have hhandled := h.handled_le
  have hwritten := h.written_le
  have htotal := h.total_le
  omega

/-- A number below a count of the server is one of the test. -/
theorem inTest_of_lt_sent (h : Inv E s) {i : Nat} (hi : i < s.sent) : InTest i := by
  have hsent := s.sent_le
  have hadded := h.added_le
  show i < maxTestPacketNumber * 2
  omega

theorem written_le_sent (h : Inv E s) : s.written ≤ s.sent :=
  h.written_le.trans (h.handled_le.trans h.unpacked_le)

theorem inTest_of_lt_written (h : Inv E s) {i : Nat} (hi : i < s.written) : InTest i :=
  h.inTest_of_lt_sent (lt_of_lt_of_le hi h.written_le_sent)

theorem addPacket (h : Inv E s) (hstep : s.step E .addPacket = some s') : Advances E s s' := by
  obtain ⟨⟨hnone, hlt⟩, hsome⟩ := Option.ite_none_right_eq_some.mp hstep
  rw [doSendMsg_eq hlt] at hsome
  cases hsome
  have hsent : s.sent = s.added := by rw [sent, hnone]
  have hinserted : poolInsert (E.sentPacket s.added) s.client.packetPool =
      (List.range (s.added + 1)).map (E.poolPacket s.total) := by
    have htotal := h.total_le_added
    have hnew : E.poolPacket s.total s.added = E.sentPacket s.added :=
      if_neg (by omega)
    rw [List.range_succ, List.map_append, List.map_singleton, hnew, ← h.pool]
    apply poolInsert_of_forall_lt
    intro entry hentry
    rw [h.pool] at hentry
    obtain ⟨i, hi, rfl⟩ := List.mem_map.mp hentry
    rw [List.mem_range] at hi
    show (E.poolPacket s.total i).iPacketNo < Int32.ofNat s.added
    have hsmall : s.added < 200 := hlt
    rw [iPacketNo_poolPacket, Int32.lt_iff_toInt_lt,
      Int32.toInt_ofNat_of_lt (by omega), Int32.toInt_ofNat_of_lt (by omega)]
    omega
  refine ⟨{ h with
    added_le := hlt
    sending := by
      intro buffer hbuffer
      cases hbuffer
      exact ⟨Nat.succ_pos _, rfl⟩
    unpacked_le := hsent ▸ h.unpacked_le
    requests := hsent ▸ h.requests
    pool := hinserted }, ?_⟩
  simp only [potential, sent, hnone]
  omega

theorem send (h : Inv E s) (hstep : s.step E .send = some s') : Advances E s s' := by
  obtain ⟨buffer, hsending, rfl⟩ := Option.map_eq_some_iff.mp hstep
  obtain ⟨hpos, rfl⟩ := h.sending buffer hsending
  have hsent : s.sent = s.added - 1 := by rw [sent, hsending]
  have hle := h.unpacked_le
  have hnext : s.added - s.unpacked = s.sent - s.unpacked + 1 := by omega
  have hlast : s.unpacked + (s.sent - s.unpacked) = s.added - 1 := by omega
  refine ⟨{ h with
    sending := fun _ hnone => by cases hnone
    unpacked_le := by
      show s.unpacked ≤ s.added
      omega
    requests := by
      show s.content ++ (s.requests ++ requestBytes (s.added - 1)) =
        frames requestBytes s.unpacked (s.added - s.unpacked)
      rw [hnext, frames_concat, hlast, ← h.requests, List.append_assoc] }, ?_⟩
  have hadded := h.added_le
  have hlength := @length_requestBytes_lt (s.added - 1) (by
    show s.added - 1 < maxTestPacketNumber * 2
    omega)
  simp only [potential, sent, hsending, List.length_append]
  omega

theorem serverRead (h : Inv E s) {n : Nat}
    (hstep : s.step E (.serverRead n) = some s') : Advances E s s' := by
  obtain ⟨⟨hpos, hle, -⟩, hsome⟩ := Option.ite_none_right_eq_some.mp hstep
  cases hsome
  refine ⟨{ h with
    requests := by
      show s.content ++ s.requests.take n ++ s.requests.drop n = _
      rw [List.append_assoc, List.take_append_drop]
      exact h.requests }, ?_⟩
  simp only [potential, sent, List.length_drop]
  omega

theorem serverUnpack (h : Inv E s)
    (hstep : s.step E .serverUnpack = some s') : Advances E s s' := by
  have hrequests := h.requests
  simp only [step] at hstep
  split at hstep
  · rename_i p rest hscan
    cases hstep
    have hnonempty : s.content ≠ [] := by
      intro hnil
      have hlength := length_lt_of_scanFrame hscan
      rw [hnil, List.length_nil] at hlength
      exact Nat.not_lt_zero _ hlength
    -- what the server has read begins with the first request it has not unpacked
    have hpos : s.unpacked < s.sent := by
      apply lt_of_frames_ne_nil
      rw [← hrequests]
      exact List.append_ne_nil_of_left_ne_nil hnonempty _
    have hnext : s.sent - s.unpacked = s.sent - (s.unpacked + 1) + 1 := by omega
    have hfound := scanFrame_append_of_frame s.requests hscan
    rw [hrequests, hnext, frames_succ, scanFrame_requestBytes (h.inTest_of_lt_sent hpos)] at hfound
    obtain ⟨rfl, hrest⟩ := Scan.frame.inj hfound
    have hhandled := h.handled_le
    have hcount : s.unpacked + 1 - s.handled = s.unpacked - s.handled + 1 := by
      omega
    have hlast : s.handled + 1 * (s.unpacked - s.handled) = s.unpacked := by
      omega
    refine ⟨{ h with
      unpacked_le := hpos
      requests := hrest.symm
      handled_le := hhandled.trans (Nat.le_succ _)
      received := by
        show s.received ++ [E.requestPacket s.unpacked] = List.map _
          (List.range' s.handled (s.unpacked + 1 - s.handled))
        rw [hcount, List.range'_concat, List.map_append, List.map_singleton,
          hlast, ← h.received] }, ?_⟩
    have htest : s.unpacked < maxTestPacketNumber * 2 :=
      h.inTest_of_lt_sent hpos
    simp only [potential, sent]
    omega
  · cases hstep

theorem serverHandle (h : Inv E s)
    (hstep : s.step E .serverHandle = some s') : Advances E s s' := by
  have hreceived := h.received
  simp only [step] at hstep
  split at hstep
  · cases hstep
  · rename_i packet rest hcons
    obtain ⟨ctx, hhandle, rfl⟩ := Option.map_eq_some_iff.mp hstep
    have hpos : s.handled < s.unpacked := by
      by_contra hle
      rw [hcons, Nat.sub_eq_zero_of_le (Nat.not_lt.mp hle)] at hreceived
      cases hreceived
    have hnext : s.unpacked - s.handled = s.unpacked - (s.handled + 1) + 1 := by omega
    rw [hcons, hnext, List.range'_succ, List.map_cons] at hreceived
    obtain ⟨rfl, hrest⟩ := List.cons.inj hreceived
    have htest := h.inTest_of_lt_sent (lt_of_lt_of_le hpos h.unpacked_le)
    have hreply := handleCSProto_requestPacket E htest
    rw [hhandle, Option.map_some, Option.some.injEq] at hreply
    have hwritten := h.written_le
    have hcount : s.handled + 1 - s.written = s.handled - s.written + 1 := by
      omega
    have hlast : s.written + 1 * (s.handled - s.written) = s.handled := by
      omega
    refine ⟨{ h with
      handled_le := hpos
      received := hrest
      written_le := hwritten.trans (Nat.le_succ _)
      produced := by
        show s.produced ++ ctx.netPacketSendPrepareQueue.vecPacketPool =
          List.map _ (List.range' s.written (s.handled + 1 - s.written))
        rw [hcount, List.range'_concat, List.map_append, List.map_singleton,
          hlast, ← h.produced, hreply] }, ?_⟩
    have hsmall : s.handled < maxTestPacketNumber * 2 := htest
    simp only [potential, sent]
    omega

theorem serverSend (h : Inv E s) (hstep : s.step E .serverSend = some s') : Advances E s s' := by
  have hproduced := h.produced
  simp only [step] at hstep
  split at hstep
  · cases hstep
  · rename_i packet rest hcons
    cases hstep
    have hpos : s.written < s.handled := by
      by_contra hle
      rw [hcons, Nat.sub_eq_zero_of_le (Nat.not_lt.mp hle)] at hproduced
      cases hproduced
    have hnext : s.handled - s.written = s.handled - (s.written + 1) + 1 := by
      omega
    rw [hcons, hnext, List.range'_succ, List.map_cons] at hproduced
    obtain ⟨rfl, hrest⟩ := List.cons.inj hproduced
    have htotal := h.total_le
    have hcount : s.written + 1 - s.total = s.written - s.total + 1 := by omega
    have hlast : s.total + (s.written - s.total) = s.written := by omega
    refine ⟨{ h with
      written_le := hpos
      produced := hrest
      total_le := htotal.trans (Nat.le_succ _)
      replies := by
        show s.client.held ++ (s.replies ++
          (E.replyPacket s.written).packetBufferSend (E.tailTime s.written)) =
            frames E.replyFrame s.total (s.written + 1 - s.total)
        rw [hcount, frames_concat, hlast, packetBufferSend_replyPacket,
          ← h.replies, List.append_assoc]
      reading := by
        intro hpc _
        show s.client.recvedSize < (E.replyFrame s.total).length
        by_cases hlt : s.total < s.written
        · exact h.reading hpc hlt
        · -- everything has been handled, so the array is empty
          have hempty := h.replies
          rw [Nat.sub_eq_zero_of_le (Nat.not_lt.mp hlt), frames_zero,
            List.append_eq_nil_iff] at hempty
          have htest : InTest s.total := h.inTest_of_lt_sent
            (lt_of_le_of_lt htotal (lt_of_lt_of_le hpos (h.handled_le.trans h.unpacked_le)))
          have hlength := (replyFrame_bounds E htest).1
          rw [← s.client.length_held, hempty.1, List.length_nil]
          omega }, ?_⟩
    have htest : s.written < maxTestPacketNumber * 2 := h.inTest_of_lt_sent
      (lt_of_lt_of_le hpos (h.handled_le.trans h.unpacked_le))
    have hlength := (replyFrame_bounds E htest).2
    simp only [potential, sent, packetBufferSend_replyPacket, List.length_append]
    omega

theorem read (h : Inv E s) {n : Nat} (hstep : s.step E (.read n) = some s') : Advances E s s' := by
  obtain ⟨⟨hpc, -, hpos, hle⟩, hdite⟩ := Option.ite_none_right_eq_some.mp hstep
  split at hdite
  · rename_i hroom
    cases hdite
    refine ⟨{ h with
      replies := by
        show (s.client.read (s.replies.take n) hroom).held ++ s.replies.drop n = _
        rw [StClient.held_read, List.append_assoc, List.take_append_drop]
        exact h.replies
      reading := fun hreading => by cases hreading
      parsing := by
        intro _
        show 0 < s.client.recvedSize + (s.replies.take n).length
        rw [List.length_take]
        omega
      running := fun _ => h.running (by rw [hpc]; decide)
      done := fun hdone => by cases hdone }, ?_⟩
    simp only [potential, sent, hpc, RecvPc.rank, List.length_drop]
    omega
  · cases hdite

theorem finish (h : Inv E s) (hstep : s.step E .finish = some s') : Advances E s s' := by
  obtain ⟨⟨hpc, hall⟩, hmap⟩ := Option.ite_none_right_eq_some.mp hstep
  obtain ⟨lines, hprint, rfl⟩ := Option.map_eq_some_iff.mp hmap
  obtain ⟨-, hlines⟩ := Option.ite_none_right_eq_some.mp hprint
  have htotal := h.total_le_added
  have hadded := h.added_le
  have hcount : s.added = maxTestPacketNumber * 2 := by omega
  refine ⟨{ h with
    reading := fun hreading => by cases hreading
    parsing := fun hparsing => by cases hparsing
    running := fun hne => absurd rfl hne
    done := by
      intro _
      show s.total = _ ∧ s.printed ++ lines = _
      refine ⟨by omega, ?_⟩
      rw [h.running (by rw [hpc]; decide), List.nil_append,
        ← Option.some.inj hlines, h.pool, List.map_map, hcount]
      apply List.map_congr_left
      intro i hi
      have hlt : i < s.total := by
        rw [List.mem_range] at hi
        omega
      rw [Function.comp_apply, Setting.poolPacket, if_pos hlt] }, ?_⟩
  simp only [potential, sent, hpc, RecvPc.rank]
  omega

/-- The packet of the next reply is in the pool. -/
theorem find?_pool (h : Inv E s) (hlt : s.total < s.written) :
    s.client.packetPool.find? (fun packet =>
      packet.iPacketNo = (E.replyOf s.total).id) = some (E.sentPacket s.total) := by
  have hadded : s.total < s.added :=
    lt_of_lt_of_le hlt (h.written_le_sent.trans s.sent_le)
  have hthis : E.poolPacket s.total s.total = E.sentPacket s.total :=
    if_neg (Nat.lt_irrefl _)
  rw [h.pool, List.find?_eq_some_iff_getElem]
  refine ⟨by simp [Setting.sentPacket, Setting.replyOf], s.total,
    by simpa using hadded, by simpa using hthis, ?_⟩
  intro i hi
  have hne : Int32.ofNat i ≠ Int32.ofNat s.total := by
    rw [Ne, ofNat_inj_of_inTest (h.inTest_of_lt_written (hi.trans hlt))
      (h.inTest_of_lt_written hlt)]
    exact Nat.ne_of_lt hi
  simpa [iPacketNo_poolPacket, Setting.replyOf] using hne

/-- The pool behind the next reply. -/
theorem poolUpdate_pool (h : Inv E s) (hlt : s.total < s.written) :
    poolUpdate (E.answeredPacket s.total) s.client.packetPool =
      (List.range s.added).map (E.poolPacket (s.total + 1)) := by
  have hadded := h.added_le
  rw [poolUpdate, h.pool, List.map_map]
  apply List.map_congr_left
  intro i hi
  rw [List.mem_range] at hi
  have hnumber : (E.answeredPacket s.total).iPacketNo = Int32.ofNat s.total := by
    have hpacket := iPacketNo_poolPacket E (s.total + 1) s.total
    rwa [Setting.poolPacket, if_pos (Nat.lt_succ_self _)] at hpacket
  have htest : InTest i := by
    show i < maxTestPacketNumber * 2
    omega
  simp only [Function.comp_apply, iPacketNo_poolPacket, hnumber,
    ofNat_inj_of_inTest htest (h.inTest_of_lt_written hlt)]
  unfold Setting.poolPacket
  split_ifs with heq hsucc hbefore
  · rw [heq]
  · omega
  · rfl
  · omega
  · omega
  · rfl

/-- What a round of the loop finds. -/
theorem recvBody_cases (h : Inv E s) (hpc : s.pc = .parsing) :
    s.total < s.written ∧
      ((s.client.recvedSize < (E.replyFrame s.total).length ∧
          s.client.recvBody E.rspParser (E.recvTime s.total) = some .incomplete) ∨
        ∃ client', (E.replyFrame s.total).length ≤ s.client.recvedSize ∧
          s.client.recvBody E.rspParser (E.recvTime s.total) =
            some (.handled client' (decide (client'.recvedSize ≥ (E.replyFrame s.total).length))) ∧
          client'.held ++ s.replies =
            frames E.replyFrame (s.total + 1) (s.written - (s.total + 1)) ∧
          client'.packetPool = (List.range s.added).map (E.poolPacket (s.total + 1))) := by
  have hreplies := h.replies
  have hpos := h.parsing hpc
  have hheld := s.client.length_held
  have hlt : s.total < s.written := by
    apply lt_of_frames_ne_nil
    rw [← hreplies]
    exact List.append_ne_nil_of_left_ne_nil (List.length_pos_iff.mp (hheld ▸ hpos)) _
  have htest := h.inTest_of_lt_written hlt
  obtain ⟨hlow, hhigh⟩ := replyFrame_bounds E htest
  have hnext : s.written - s.total = s.written - (s.total + 1) + 1 := by omega
  rw [hnext, frames_succ] at hreplies
  refine ⟨hlt, ?_⟩
  by_cases hshort : s.client.recvedSize < (E.replyFrame s.total).length
  · exact .inl ⟨hshort, StClient.recvBody_of_incomplete E.rspParser hreplies hpos
      hshort hlow (hhigh.trans (by decide)) (E.recvTime s.total)⟩
  · -- the array begins with the whole reply
    obtain ⟨rest, hrest⟩ : ∃ rest, s.client.held = E.replyFrame s.total ++ rest := by
      have hfront := congrArg (List.take (E.replyFrame s.total).length) hreplies
      rw [List.take_append_of_le_length (by omega), List.take_left] at hfront
      refine ⟨s.client.held.drop (E.replyFrame s.total).length, ?_⟩
      conv_lhs => rw [← List.take_append_drop (E.replyFrame s.total).length s.client.held, hfront]
    rw [hrest, List.append_assoc, List.append_cancel_left_eq] at hreplies
    have hsentData : (E.sentPacket s.total).sendData = memcpy
        (List.replicate arraySize 0) 0 (E.replyOf s.total).content := by
      rw [sendData_sentPacket, content_replyOf, sendDataOf]
    obtain ⟨client', hbody, hheld', hpool⟩ := StClient.recvBody_of_reply
      E.rspParser hrest (fun c hc => (mem_helloText hc).2)
      (zero_not_mem_helloText _ _)
      ((length_helloText_lt htest).trans (by decide)) (h.find?_pool hlt)
      hsentData (E.recvTime s.total)
    refine .inr ⟨client', Nat.not_lt.mp hshort, ?_, ?_, ?_⟩
    · rw [hbody, ← client'.length_held, hheld']
      rfl
    · rw [hheld']
      exact hreplies
    · rw [hpool]
      exact h.poolUpdate_pool hlt

theorem parse (h : Inv E s) (hstep : s.step E .parse = some s') : Advances E s s' := by
  obtain ⟨hpc, hmap⟩ := Option.ite_none_right_eq_some.mp hstep
  obtain ⟨hlt, ⟨hshort, hbody⟩ | ⟨client', hwhole, hbody, hreplies, hpool⟩⟩ :=
    h.recvBody_cases hpc
  · rw [hbody] at hmap
    cases hmap
    refine ⟨{ h with
      reading := fun _ _ => hshort
      parsing := fun hparsing => by cases hparsing
      running := fun _ => h.running (by rw [hpc]; decide)
      done := fun hdone => by cases hdone }, ?_⟩
    simp only [potential, sent, hpc, RecvPc.rank]
    omega
  · rw [hbody] at hmap
    cases hmap
    refine ⟨{ h with
      total_le := hlt
      replies := hreplies
      pool := hpool
      reading := by
        -- the next reply is at least as long as the one just handled
        intro hreading hlt'
        have hless : client'.recvedSize < (E.replyFrame s.total).length := by
          by_contra hge
          dsimp only at hreading
          rw [decide_eq_true (Nat.not_lt.mp hge), if_pos rfl] at hreading
          cases hreading
        exact lt_of_lt_of_le hless (length_replyFrame_mono E
          (h.inTest_of_lt_written hlt') (Nat.le_succ _))
      parsing := by
        intro hparsing
        have hge : client'.recvedSize ≥ (E.replyFrame s.total).length := by
          by_contra hless
          dsimp only at hparsing
          rw [decide_eq_false hless, if_neg Bool.false_ne_true] at hparsing
          cases hparsing
        have hlow := (replyFrame_bounds E (h.inTest_of_lt_written hlt)).1
        show 0 < client'.recvedSize
        omega
      running := fun _ => h.running (by rw [hpc]; decide)
      done := by
        intro hdone
        dsimp only at hdone
        split at hdone <;> cases hdone }, ?_⟩
    have htest : s.total < maxTestPacketNumber * 2 :=
      h.inTest_of_lt_written hlt
    have hrank : ∀ again : Bool, (if again = true then RecvPc.parsing else .reading).rank ≤ 2 := by
      decide
    have hle := hrank (decide (client'.recvedSize ≥ (E.replyFrame s.total).length))
    have htwo : s.pc.rank = 2 := by rw [hpc]; rfl
    simp only [potential, sent, htwo]
    omega

theorem advances (h : Inv E s) {a : ExchangeAction}
    (hstep : s.step E a = some s') : Advances E s s' := by
  cases a with
  | addPacket => exact h.addPacket hstep
  | send => exact h.send hstep
  | serverRead n => exact h.serverRead hstep
  | serverUnpack => exact h.serverUnpack hstep
  | serverHandle => exact h.serverHandle hstep
  | serverSend => exact h.serverSend hstep
  | read n => exact h.read hstep
  | parse => exact h.parse hstep
  | finish => exact h.finish hstep

/-! ### No thread is stuck -/

/-- No assertion of `recv_msg` fails. -/
theorem isSome_parse (h : Inv E s) (hpc : s.pc = .parsing) : (s.step E .parse).isSome := by
  rw [step, if_pos hpc, Option.isSome_map]
  obtain ⟨-, ⟨-, hbody⟩ | ⟨client', -, hbody, -⟩⟩ := h.recvBody_cases hpc
  · rw [hbody]
    rfl
  · rw [hbody]
    rfl

/-- The assertion of `PrintTTL` does not fail. -/
theorem isSome_finish (h : Inv E s) (hpc : s.pc = .reading)
    (hall : ¬ s.total < maxTestPacketNumber * 2) :
    (s.step E .finish).isSome := by
  have htotal := h.total_le_added
  have hadded := h.added_le
  have hsucc : s.client.packetPool.all StPacket.bRecvTTLSucc := by
    rw [List.all_eq_true, h.pool]
    intro packet hpacket
    obtain ⟨i, hi, rfl⟩ := List.mem_map.mp hpacket
    rw [List.mem_range] at hi
    rw [Setting.poolPacket, if_pos (by omega)]
    exact (answeredPacket_verified E i).1
  rw [step, if_pos ⟨hpc, hall⟩, Option.isSome_map, StClient.printStatistics, if_pos hsucc]
  rfl

/-- There is room for the next reply. -/
theorem isSome_read (h : Inv E s) (hpc : s.pc = .reading)
    (hmore : s.total < maxTestPacketNumber * 2) (hreplies : s.replies ≠ []) :
    (s.step E (.read 1)).isSome := by
  have hlt : s.total < s.written := by
    apply lt_of_frames_ne_nil
    rw [← h.replies]
    exact List.append_ne_nil_of_right_ne_nil _ hreplies
  have hreading := h.reading hpc hlt
  have hlength := (replyFrame_bounds E hmore).2
  have hpos := List.length_pos_iff.mpr hreplies
  have hroom : (s.replies.take 1).length ≤ s.client.iReadLen := by
    have harray : arraySize = 1024 := rfl
    rw [StClient.iReadLen_eq, List.length_take]
    omega
  rw [step, if_pos ⟨hpc, hmore, Nat.one_pos, hpos⟩, dif_pos hroom]
  rfl

/-- Before everything has been sent the sender can go on. -/
theorem exists_sender_action (hmore : s.sent < maxTestPacketNumber * 2) :
    ∃ a, (s.step E a).isSome := by
  cases hsending : s.sending with
  | none =>
    have hadded : s.added < maxTestPacketNumber * 2 := by
      rwa [sent, hsending] at hmore
    refine ⟨.addPacket, ?_⟩
    rw [step, if_pos ⟨hsending, hadded⟩]
    rfl
  | some buffer =>
    refine ⟨.send, ?_⟩
    rw [step, hsending]
    rfl

/-- Before everything has been unpacked the server can go on. -/
theorem exists_unpack_action (h : Inv E s) (hmore : s.unpacked < s.sent) :
    ∃ a, (s.step E a).isSome := by
  have hrequests := h.requests
  have htest := h.inTest_of_lt_sent hmore
  have hlength := length_requestBytes_lt htest
  have hnext : s.sent - s.unpacked = s.sent - (s.unpacked + 1) + 1 := by omega
  rw [hnext, frames_succ] at hrequests
  by_cases hwhole : (requestBytes s.unpacked).length ≤ s.content.length
  · -- a whole request has been read
    have hfront := congrArg (List.take (requestBytes s.unpacked).length) hrequests
    rw [List.take_append_of_le_length hwhole, List.take_left] at hfront
    have hcontent : s.content = requestBytes s.unpacked ++
        s.content.drop (requestBytes s.unpacked).length := by
      conv_lhs => rw [← List.take_append_drop (requestBytes s.unpacked).length s.content, hfront]
    have hscan := scanFrame_requestBytes htest (s.content.drop (requestBytes s.unpacked).length)
    rw [← hcontent] at hscan
    refine ⟨.serverUnpack, ?_⟩
    simp only [step, hscan]
    rfl
  · have hpos : 0 < s.requests.length := by
      have htotal := congrArg List.length hrequests
      rw [List.length_append, List.length_append] at htotal
      omega
    have hcapacity : contextBufferCapacity = 102400 := rfl
    refine ⟨.serverRead 1, ?_⟩
    rw [step, if_pos ⟨Nat.one_pos, hpos, by omega⟩]
    rfl

/-- Before everything has been handled and written the server can go on. -/
theorem exists_server_action (h : Inv E s) (hmore : s.written < s.unpacked) :
    ∃ a, (s.step E a).isSome := by
  by_cases hwritten : s.written < s.handled
  · have hnext : s.handled - s.written = s.handled - (s.written + 1) + 1 := by
      omega
    have hproduced := h.produced
    rw [hnext, List.range'_succ, List.map_cons] at hproduced
    refine ⟨.serverSend, ?_⟩
    simp only [step, hproduced]
    rfl
  · have hnext : s.unpacked - s.handled = s.unpacked - (s.handled + 1) + 1 := by omega
    have hreceived := h.received
    rw [hnext, List.range'_succ, List.map_cons] at hreceived
    have hunpacked := h.unpacked_le
    have hreply := handleCSProto_requestPacket E
      (h.inTest_of_lt_sent (show s.handled < s.sent by omega))
    obtain ⟨ctx, hhandle, -⟩ := Option.map_eq_some_iff.mp hreply
    refine ⟨.serverHandle, ?_⟩
    simp only [step, hreceived, hhandle]
    rfl

/-- When nothing is on its way to a client that waits, a reply has still to be
written. -/
theorem written_eq_total (h : Inv E s) (hpc : s.pc = .reading)
    (hreplies : s.replies = []) : s.written = s.total := by
  by_contra hne
  have htotal := h.total_le
  have hreading := h.reading hpc (by omega)
  have hheld := h.replies
  have hnext : s.written - s.total = s.written - (s.total + 1) + 1 := by omega
  rw [hreplies, List.append_nil, hnext, frames_succ] at hheld
  rw [← s.client.length_held, hheld, List.length_append] at hreading
  omega

/-- **The exchange is never stuck.** -/
theorem exists_action (h : Inv E s) (hpc : s.pc ≠ .done) : ∃ a, (s.step E a).isSome := by
  cases hthread : s.pc with
  | done => exact absurd hthread hpc
  | parsing => exact ⟨.parse, h.isSome_parse hthread⟩
  | reading =>
    by_cases hmore : s.total < maxTestPacketNumber * 2
    · by_cases hreplies : s.replies = []
      · -- nothing is on its way to the client: somebody else can move
        have hwritten := h.written_eq_total hthread hreplies
        by_cases hserver : s.written < s.unpacked
        · exact h.exists_server_action hserver
        by_cases hunpack : s.unpacked < s.sent
        · exact h.exists_unpack_action hunpack
        exact exists_sender_action (by omega)
      · exact ⟨.read 1, h.isSome_read hthread hmore hreplies⟩
    · exact ⟨.finish, h.isSome_finish hthread hmore⟩

end Inv

/-- A run keeps the invariant, and every one of its steps leaves less to be
done. -/
theorem inv_of_run {actions : List ExchangeAction}
    (hrun : runSteps (step E) start actions = some s) : Inv E s := by
  have hkeep : ∀ (s : Exchange) (a : ExchangeAction) (s' : Exchange),
      Inv E s → s.step E a = some s' → Inv E s' :=
    fun _ _ _ hinv hstep => (hinv.advances hstep).1
  exact runSteps_invariant hkeep inv_start hrun

theorem length_le_of_run {actions : List ExchangeAction}
    (hrun : runSteps (step E) start actions = some s) :
    actions.length ≤ 360801 := by
  have hlower : ∀ (s : Exchange) (a : ExchangeAction) (s' : Exchange),
      Inv E s → s.step E a = some s' → s'.potential < s.potential :=
    fun _ _ _ hinv hstep => (hinv.advances hstep).2
  have hlength := length_add_potential_le
    (fun _ _ _ hinv hstep => (hinv.advances hstep).1) hlower inv_start hrun
  have hstart : start.potential = 360801 := by decide
  omega

theorem exists_run_to_done (E : Setting) :
    ∃ actions s, runSteps (step E) start actions = some s ∧ s.pc = .done := by
  have hlower : ∀ (s : Exchange) (a : ExchangeAction) (s' : Exchange),
      Inv E s → s.step E a = some s' → s'.potential < s.potential :=
    fun _ _ _ hinv hstep => (hinv.advances hstep).2
  exact exists_final_run (fun _ _ _ hinv hstep => (hinv.advances hstep).1)
    hlower (fun _ hinv hpc => hinv.exists_action hpc) inv_start

/-- **The exchange ends.**  However the threads of the client and the server are
scheduled and however the streams are cut: no run has more than 360801 steps,
before the client is done something can happen, no assertion of `recv_msg`
fails, and a client that waits in `read` has no complete reply. -/
theorem exchange_ends (E : Setting) {actions : List ExchangeAction}
    (hrun : runSteps (step E) start actions = some s) :
    actions.length ≤ 360801 ∧ (s.pc ≠ .done → ∃ a, (s.step E a).isSome) ∧
      (s.pc = .parsing → (s.step E .parse).isSome) ∧
      (s.pc = .reading → s.total < s.written →
        s.client.recvedSize < (E.replyFrame s.total).length) :=
  have hinv := inv_of_run hrun
  ⟨length_le_of_run hrun, hinv.exists_action, hinv.isSome_parse, hinv.reading⟩

/-- The decoders, and clocks that stand still. -/
def sampleSetting : Setting where
  parser := .decoder
  rspParser := .decoder
  memory := fun _ => ⟨0, 0, 0, 0, false, [], [], ⟨0, 0, 0, 0, 0, 0, 0, 0, 0⟩⟩
  sendTime := fun _ => 1
  unpackTime := fun _ => 1
  logicTime := fun _ => 1
  produceTime := fun _ => 1
  tailTime := fun _ => 1
  recvTime := fun _ => 1
  ulClientSeq := 1
  iClientFd := 7
  unpackTime_pos := fun _ => by decide
  unpackTime_mono := fun _ => UInt64.le_refl _
  logicTime_mono := fun _ => UInt64.le_refl _
  recvTime_pos := fun _ => by decide

/-- A run to the end. -/
theorem exchange_ends_done :
    ∃ actions s, runSteps (step sampleSetting) start actions = some s ∧
      s.pc = .done ∧ actions.length ≤ 360801 := by
  obtain ⟨actions, s, hrun, hdone⟩ := exists_run_to_done sampleSetting
  exact ⟨actions, s, hrun, hdone, (exchange_ends sampleSetting hrun).1⟩

/-- **What the client has found out when it is done.**  Two hundred packets are
in the pool, each with the text that was sent as the text received; two hundred
lines have been written, and in each of them the time on the way is the sum of
its parts. -/
theorem exchange_verified (E : Setting) {actions : List ExchangeAction}
    (hrun : runSteps (step E) start actions = some s) (hdone : s.pc = .done) :
    s.client.packetPool.length = 200 ∧ s.printed.length = 200 ∧
      (∀ packet ∈ s.client.packetPool, packet.bRecvTTLSucc = true ∧
        packet.recvData = packet.sendData) ∧
      ∀ line ∈ s.printed, line.iTotalPacketNum = 1 ∧
        line.iTotalTTL = line.iTotalSrvRecvTime + line.iTotalSvrTTL + line.iTotalClientRecvTime ∧
        line.iTotalSvrTTL = line.iTotalSrvLogicInternalCost +
          line.iTotalSrvNetInternalCost := by
  have hinv := inv_of_run hrun
  obtain ⟨htotal, hprinted⟩ := hinv.done hdone
  have hcount : maxTestPacketNumber * 2 = 200 := rfl
  have hadded : s.added = 200 := by
    have hle := hinv.total_le_added
    have hmax := hinv.added_le
    omega
  refine ⟨?_, ?_, ?_, ?_⟩
  · rw [hinv.pool, List.length_map, List.length_range, hadded]
  · rw [hprinted, List.length_map, List.length_range, hcount]
  · intro packet hpacket
    rw [hinv.pool] at hpacket
    obtain ⟨i, hi, rfl⟩ := List.mem_map.mp hpacket
    rw [List.mem_range] at hi
    obtain ⟨hsucc, hdata, -⟩ := answeredPacket_verified E i
    rw [Setting.poolPacket, if_pos (by omega)]
    exact ⟨hsucc, hdata⟩
  · intro line hline
    rw [hprinted] at hline
    obtain ⟨i, -, rfl⟩ := List.mem_map.mp hline
    obtain ⟨-, -, hnumber, htime, hserver⟩ := answeredPacket_verified E i
    exact ⟨hnumber, htime, hserver⟩

theorem exchange_verified_done :
    ∃ actions s, runSteps (step sampleSetting) start actions = some s ∧
      s.pc = .done ∧ s.printed.length = 200 := by
  obtain ⟨actions, s, hrun, hdone⟩ := exists_run_to_done sampleSetting
  exact ⟨actions, s, hrun, hdone, (exchange_verified sampleSetting hrun hdone).2.1⟩

end Exchange

end SocketClient
end GameServer
