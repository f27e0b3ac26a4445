import GameServer.Lib.Framer
import GameServer.Network.LibeventCtx

/-!
# Framing does not depend on how the stream is cut

The wire format as a framing function on byte lists (`scanFrame`), and the
connection of `UnpackPacketToRecvQueue` to it: one call delivers what one parse
of the buffer's content delivers.  The chunking theorem of the framing library
then says that a client's byte stream is decoded independently of the pieces in
which it arrives.

`scanFrame` states the format for a whole stream; it knows nothing of buffers,
offsets or queues.  A size field below the header size, negative ones included,
asks for more input that can never help, exactly as the code does.
-/

namespace GameServer
namespace Network

open Lib

/-- The frame at the front of a byte stream: a big-endian signed 16-bit total
size, a big-endian 16-bit protocol number, and a body of the remaining size.
Bodies are neither empty nor longer than the limit. -/
def scanFrame (bytes : List Byte) : Scan Byte (Int × List Byte) Int :=
  if bytes.length < networkPacketHeaderSize then
    .more
  else
    let size := unpackInt 2 bytes
    if size < networkPacketHeaderSize ∨ bytes.length < size then
      .more
    else if size = networkPacketHeaderSize then
      .fail (-2)
    else if networkPacketHeaderSize + networkPacketBufferMaxSize < size then
      .fail (-3)
    else
      .frame
        (unpackInt 2 (bytes.drop 2),
          (bytes.take size.toNat).drop networkPacketHeaderSize)
        (bytes.drop size.toNat)

variable {p : Int × List Byte} {bytes rest : List Byte} {ctx : NetworkContext}
  {client : ClientContextBuffer}

/-- Everything a complete frame says about the bytes it was found in. -/
theorem scanFrame_eq_frame_iff :
    scanFrame bytes = .frame p rest ↔
      0 < p.2.length ∧ p.2.length ≤ networkPacketBufferMaxSize ∧
        networkPacketHeaderSize + p.2.length ≤ bytes.length ∧
        unpackInt 2 bytes = networkPacketHeaderSize + p.2.length ∧
        p.1 = unpackInt 2 (bytes.drop 2) ∧
        p.2 = (bytes.drop networkPacketHeaderSize).take p.2.length ∧
        rest = bytes.drop (networkPacketHeaderSize + p.2.length) := by
  obtain ⟨proto, body⟩ := p
  dsimp only
  constructor
  · intro h
    unfold scanFrame at h
    dsimp only at h
    split_ifs at h with hshort hmore hempty hlarge
    obtain ⟨hpacket, hrest⟩ := Scan.frame.inj h
    obtain ⟨hproto, hbody⟩ := Prod.mk.inj hpacket
    have hlength : body.length = (unpackInt 2 bytes).toNat - networkPacketHeaderSize := by
      rw [← hbody]
      simp only [List.length_drop, List.length_take]
      omega
    have hsize : (unpackInt 2 bytes).toNat = networkPacketHeaderSize + body.length := by omega
    refine ⟨by omega, by omega, by omega, by omega, hproto.symm, ?_, ?_⟩
    · rw [← hbody, hsize, List.drop_take, List.length_take, List.length_drop,
        List.take_eq_take_iff, List.length_drop]
      omega
    · rw [← hrest, hsize]
  · rintro ⟨hpos, hmax, hfits, hsize, rfl, hbody, rfl⟩
    have hnat : (unpackInt 2 bytes).toNat = networkPacketHeaderSize + body.length := by omega
    unfold scanFrame
    dsimp only
    rw [if_neg (by omega), if_neg (by omega), if_neg (by omega),
      if_neg (by omega), hnat, List.drop_take, Nat.add_sub_cancel_left,
      ← hbody]

/-- The two errors of the format, and when they are raised. -/
theorem scanFrame_eq_fail_iff {e : Int} :
    scanFrame bytes = .fail e ↔
      networkPacketHeaderSize ≤ bytes.length ∧ unpackInt 2 bytes ≤ bytes.length ∧
        (unpackInt 2 bytes = networkPacketHeaderSize ∧ e = -2 ∨
          networkPacketHeaderSize + networkPacketBufferMaxSize < unpackInt 2 bytes ∧ e = -3) := by
  unfold scanFrame
  dsimp only
  constructor
  · intro h
    split_ifs at h with hshort hmore hempty hlarge
    · exact ⟨by omega, by omega, Or.inl ⟨hempty, (Scan.fail.inj h).symm⟩⟩
    · exact ⟨by omega, by omega, Or.inr ⟨hlarge, (Scan.fail.inj h).symm⟩⟩
  · rintro ⟨hheader, hcomplete, ⟨hempty, rfl⟩ | ⟨hlarge, rfl⟩⟩
    · rw [if_neg (by omega), if_neg (by omega), if_pos hempty]
    · rw [if_neg (by omega), if_neg (by omega), if_neg (by omega), if_pos hlarge]

/-- The format needs more input when the size field is incomplete or below the
header size, or when the frame is. -/
theorem scanFrame_eq_more_iff :
    scanFrame bytes = .more ↔ bytes.length < networkPacketHeaderSize ∨
        unpackInt 2 bytes < networkPacketHeaderSize ∨
        bytes.length < unpackInt 2 bytes := by
  unfold scanFrame
  dsimp only
  split_ifs with hshort hmore hempty hlarge
  · simp [hshort]
  · exact ⟨fun _ => Or.inr hmore, fun _ => rfl⟩
  all_goals
    constructor
    · intro h
      cases h
    · intro h
      rcases h with h | h
      · exact (hshort h).elim
      · exact (hmore h).elim

/-- The size field does not change when bytes are appended. -/
theorem unpackInt_two_append_of_header
    (h : networkPacketHeaderSize ≤ bytes.length) (tail : List Byte) :
    unpackInt 2 (bytes ++ tail) = unpackInt 2 bytes :=
  unpackInt_two_append (by simp only [networkPacketHeaderSize] at h; omega) tail

/-- A frame takes at least its header off the stream. -/
theorem length_lt_of_scanFrame (h : scanFrame bytes = .frame p rest) :
    rest.length < bytes.length := by
  obtain ⟨-, -, hfits, -, -, -, rfl⟩ := scanFrame_eq_frame_iff.mp h
  simp only [networkPacketHeaderSize, List.length_drop] at *
  omega

/-- A frame is recognised whatever follows. -/
theorem scanFrame_append_of_frame (tail : List Byte) (h : scanFrame bytes = .frame p rest) :
    scanFrame (bytes ++ tail) = .frame p (rest ++ tail) := by
  obtain ⟨hpos, hmax, hfits, hsize, hproto, hbody, rfl⟩ :=
    scanFrame_eq_frame_iff.mp h
  have hheader : networkPacketHeaderSize ≤ bytes.length := by omega
  rw [scanFrame_eq_frame_iff]
  refine ⟨hpos, hmax, by rw [List.length_append]; omega,
    by rw [unpackInt_two_append_of_header hheader, hsize], ?_, ?_, ?_⟩
  · have hdrop : 2 ≤ (bytes.drop 2).length := by
      simp only [networkPacketHeaderSize, List.length_drop] at *
      omega
    rw [List.drop_append_of_le_length (by simp only [networkPacketHeaderSize] at hheader; omega),
      unpackInt_two_append hdrop]
    exact hproto
  · rw [List.drop_append_of_le_length hheader, List.take_append_of_le_length
      (by rw [List.length_drop]; omega)]
    exact hbody
  · rw [List.drop_append_of_le_length hfits]

/-- An invalid frame is rejected whatever follows. -/
theorem scanFrame_append_of_fail {e : Int} (tail : List Byte)
    (h : scanFrame bytes = .fail e) : scanFrame (bytes ++ tail) = .fail e := by
  obtain ⟨hheader, hcomplete, hcase⟩ := scanFrame_eq_fail_iff.mp h
  rw [scanFrame_eq_fail_iff, unpackInt_two_append_of_header hheader]
  refine ⟨by rw [List.length_append]; omega, by rw [List.length_append]; omega, hcase⟩

/-- The wire format as a framer: decisions do not depend on what follows. -/
def wireFramer : Framer Byte (Int × List Byte) Int where
  next := scanFrame
  frame_shorter := length_lt_of_scanFrame
  frame_append := scanFrame_append_of_frame
  fail_append := scanFrame_append_of_fail

/-- One parse of a whole byte stream. -/
def referenceParse (stream : List Byte) : Parse Byte (Int × List Byte) Int :=
  wireFramer.parse stream

theorem referenceParse_of_more (h : scanFrame bytes = .more) :
    referenceParse bytes = ⟨[], none, bytes⟩ :=
  wireFramer.parse_of_more h

theorem referenceParse_of_fail {e : Int} (h : scanFrame bytes = .fail e) :
    referenceParse bytes = ⟨[], some e, bytes⟩ :=
  wireFramer.parse_of_fail h

theorem referenceParse_of_frame (h : scanFrame bytes = .frame p rest) :
    referenceParse bytes =
      ⟨p :: (referenceParse rest).packets, (referenceParse rest).error,
        (referenceParse rest).rest⟩ :=
  wireFramer.parse_of_frame h

/-- The bytes one frame takes on the wire. -/
def frameSize (p : Int × List Byte) : Nat :=
  networkPacketHeaderSize + p.2.length

/-- What is left after a parse is the stream behind the frames found. -/
theorem referenceParse_rest (stream : List Byte) :
    (referenceParse stream).rest =
      stream.drop (((referenceParse stream).packets.map frameSize).sum) := by
  unfold referenceParse
  induction stream using wireFramer.parse_induction with
  | more bytes hmore => rw [wireFramer.parse_of_more hmore]; rfl
  | fail bytes e hfail => rw [wireFramer.parse_of_fail hfail]; rfl
  | frame bytes p rest hframe ih =>
    obtain ⟨-, -, -, -, -, -, hrest⟩ := scanFrame_eq_frame_iff.mp hframe
    rw [wireFramer.parse_of_frame hframe]
    show (wireFramer.parse rest).rest = _
    rw [ih, hrest, List.drop_drop, List.map_cons, List.sum_cons]
    rfl

/-- The errors of a parse are the codes `-2` and `-3`. -/
theorem referenceParse_error_ne_zero {stream : List Byte} {e : Int}
    (h : (referenceParse stream).error = some e) : e ≠ 0 := by
  unfold referenceParse at h
  induction stream using wireFramer.parse_induction with
  | more bytes hmore => rw [wireFramer.parse_of_more hmore] at h; cases h
  | fail bytes e' hfail =>
    rw [wireFramer.parse_of_fail hfail] at h
    cases h
    obtain ⟨-, -, ⟨-, rfl⟩ | ⟨-, rfl⟩⟩ := scanFrame_eq_fail_iff.mp hfail
    · decide
    · decide
  | frame bytes p rest hframe ih =>
    rw [wireFramer.parse_of_frame hframe] at h
    exact ih h

/-- Every packet of a parse has a body within the limits and a 16-bit protocol
number. -/
theorem referenceParse_packets_bounds {stream : List Byte}
    (h : p ∈ (referenceParse stream).packets) :
    0 < p.2.length ∧ p.2.length ≤ networkPacketBufferMaxSize ∧ -2 ^ 15 ≤ p.1 ∧ p.1 < 2 ^ 15 := by
  unfold referenceParse at h
  induction stream using wireFramer.parse_induction with
  | more bytes hmore => rw [wireFramer.parse_of_more hmore] at h; cases h
  | fail bytes e hfail => rw [wireFramer.parse_of_fail hfail] at h; cases h
  | frame bytes q rest hframe ih =>
    rw [wireFramer.parse_of_frame hframe] at h
    rcases List.mem_cons.mp h with rfl | hrest
    · obtain ⟨hpos, hmax, -, -, hproto, -, -⟩ :=
        scanFrame_eq_frame_iff.mp hframe
      rw [hproto]
      exact ⟨hpos, hmax, unpackInt_two_bounds _⟩
    · exact ih hrest

/-- The frame with the given protocol number and body. -/
def frameOf (iProtoNo : Int) (body : List Byte) : List Byte :=
  packInt 2 (networkPacketHeaderSize + body.length) ++
    (packInt 2 iProtoNo ++ body)

theorem length_frameOf (iProtoNo : Int) (body : List Byte) :
    (frameOf iProtoNo body).length =
      networkPacketHeaderSize + body.length := by
  simp only [frameOf, List.length_append, length_packInt, networkPacketHeaderSize]
  omega

/-- A frame within the limits is recognised wherever it stands at the front. -/
theorem scanFrame_frameOf_append {iProtoNo : Int} {body : List Byte} (hpos : 0 < body.length)
    (hmax : body.length ≤ networkPacketBufferMaxSize)
    (hlow : -2 ^ 15 ≤ iProtoNo) (hhigh : iProtoNo < 2 ^ 15)
    (rest : List Byte) :
    scanFrame (frameOf iProtoNo body ++ rest) = .frame (iProtoNo, body) rest := by
  have hlimit : networkPacketBufferMaxSize = 10240 := rfl
  have hfour : networkPacketHeaderSize = 4 := rfl
  have hlength := length_frameOf iProtoNo body
  have hframe : frameOf iProtoNo body ++ rest = packInt 2 (networkPacketHeaderSize + body.length) ++
        (packInt 2 iProtoNo ++ (body ++ rest)) := by
    simp only [frameOf, List.append_assoc]
  have hbody : (frameOf iProtoNo body ++ rest).drop networkPacketHeaderSize = body ++ rest := by
    have hheader : (packInt 2 (networkPacketHeaderSize + body.length) ++
        packInt 2 iProtoNo).length = networkPacketHeaderSize := by
      rw [List.length_append, length_packInt, length_packInt]
      rfl
    rw [hframe, ← List.append_assoc, List.drop_left' hheader]
  rw [scanFrame_eq_frame_iff]
  dsimp only
  refine ⟨hpos, hmax, ?_, ?_, ?_, ?_, ?_⟩
  · rw [List.length_append, hlength]
    exact Nat.le_add_right _ _
  · rw [hframe, unpackInt_packInt_append (by omega) (by omega)]
  · rw [hframe, List.drop_left' (length_packInt 2 _), unpackInt_packInt_append hlow hhigh]
  · rw [hbody, List.take_left]
  · rw [← List.drop_drop, hbody, List.drop_left]

/-- What is found at the front of a stream is a frame, and the stream goes on
behind it. -/
theorem eq_frameOf_append_of_scanFrame (h : scanFrame bytes = .frame p rest) :
    bytes = frameOf p.1 p.2 ++ rest := by
  obtain ⟨-, -, hfits, hsize, hproto, hbody, hrest⟩ :=
    scanFrame_eq_frame_iff.mp h
  have hheader : networkPacketHeaderSize = 2 + 2 := rfl
  have hsizeField : packInt 2 (networkPacketHeaderSize + p.2.length) = bytes.take 2 := by
    rw [← hsize, packInt_unpackInt (by omega)]
  have hprotoField : packInt 2 p.1 = (bytes.drop 2).take 2 := by
    rw [hproto, packInt_unpackInt (by rw [List.length_drop]; omega)]
  calc bytes = bytes.take (2 + 2 + p.2.length) ++ bytes.drop (2 + 2 + p.2.length) :=
        (List.take_append_drop _ _).symm
    _ = bytes.take 2 ++ ((bytes.drop 2).take 2 ++
          (bytes.drop (2 + 2)).take p.2.length) ++ rest := by
        rw [List.take_add, List.take_add, List.append_assoc (bytes.take 2), hrest, hheader]
    _ = frameOf p.1 p.2 ++ rest := by
        rw [frameOf, hsizeField, hprotoField, ← hheader, ← hbody]

/-- The frames of a parse and what it leaves over make up the stream. -/
theorem referenceParse_frames (stream : List Byte) :
    ((referenceParse stream).packets.map fun p => frameOf p.1 p.2).flatten ++
      (referenceParse stream).rest = stream := by
  unfold referenceParse
  induction stream using wireFramer.parse_induction with
  | more bytes hmore => rw [wireFramer.parse_of_more hmore]; rfl
  | fail bytes e hfail => rw [wireFramer.parse_of_fail hfail]; rfl
  | frame bytes p rest hframe ih =>
    rw [wireFramer.parse_of_frame hframe, List.map_cons, List.flatten_cons, List.append_assoc]
    show frameOf p.1 p.2 ++ (_ ++ (wireFramer.parse rest).rest) = bytes
    rw [ih]
    exact (eq_frameOf_append_of_scanFrame hframe).symm

/-! ## One call of `UnpackPacketToRecvQueue` -/

/-- The bytes of the array from `offset` on, `iLeftSize` of them. -/
def window (chBuffer : List Byte) (offset : Nat) (iLeftSize : Int) :
    List Byte :=
  (chBuffer.drop offset).take iLeftSize.toNat

section Window

variable {chBuffer : List Byte} {offset : Nat} {iLeftSize : Int}

theorem length_window (hin : offset + iLeftSize.toNat ≤ chBuffer.length) :
    (window chBuffer offset iLeftSize).length = iLeftSize.toNat := by
  simp only [window, List.length_take, List.length_drop]
  omega

/-- A 16-bit integer inside the window is read as from the array. -/
theorem unpackInt_drop_window {n : Nat} (h : n + 2 ≤ iLeftSize) :
    unpackInt 2 ((window chBuffer offset iLeftSize).drop n) =
      unpackInt 2 ((chBuffer.drop offset).drop n) := by
  have htake : ((window chBuffer offset iLeftSize).drop n).take 2 =
      ((chBuffer.drop offset).drop n).take 2 := by
    rw [window, List.drop_take, List.take_take, List.take_eq_take_iff]
    omega
  rw [unpackInt, unpackInt, htake]

/-- One round of the loop takes the decision of the wire format on the bytes
not yet consumed. -/
theorem unpackStep_eq_scanFrame (hnonneg : 0 ≤ iLeftSize)
    (hin : offset + iLeftSize.toNat ≤ chBuffer.length) :
    unpackStep chBuffer offset iLeftSize =
      match scanFrame (window chBuffer offset iLeftSize) with
      | .more => .incomplete
      | .fail e => .error e
      | .frame p _ =>
        .packet p.1 p.2.length (chBuffer.drop (offset + 4)) (frameSize p) := by
  have hlength := length_window hin
  have hfour : networkPacketHeaderSize = 4 := rfl
  -- inside a window that holds a header, both sides read the same integers
  have hread : 4 ≤ iLeftSize → unpackInt 2 (window chBuffer offset iLeftSize) =
          unpackInt 2 (chBuffer.drop offset) ∧
        unpackInt 2 ((window chBuffer offset iLeftSize).drop 2) =
          unpackInt 2 ((chBuffer.drop offset).drop 2) := fun hheader =>
    ⟨unpackInt_drop_window (n := 0) (by omega), unpackInt_drop_window (n := 2) (by omega)⟩
  unfold unpackStep
  cases hscan : scanFrame (window chBuffer offset iLeftSize) with
  | more =>
    rw [scanFrame_eq_more_iff, hlength] at hscan
    by_cases hheader : iLeftSize ≥ networkPacketHeaderSize
    · rw [(hread (by omega)).1] at hscan
      rw [if_pos hheader, if_pos (by omega)]
    · rw [if_neg hheader]
  | fail e =>
    obtain ⟨hheader, hcomplete, hcase⟩ := scanFrame_eq_fail_iff.mp hscan
    rw [hlength] at hheader hcomplete
    rw [(hread (by omega)).1] at hcomplete hcase
    rw [if_pos (by omega), if_neg (by omega)]
    rcases hcase with ⟨hempty, rfl⟩ | ⟨hlarge, rfl⟩
    · rw [if_pos (by omega)]
    · rw [if_neg (by omega), if_pos (by omega)]
  | frame p rest =>
    obtain ⟨hpos, hmax, hfits, hsize, hproto, -, -⟩ :=
      scanFrame_eq_frame_iff.mp hscan
    rw [hlength] at hfits
    rw [(hread (by omega)).1] at hsize
    rw [(hread (by omega)).2] at hproto
    rw [if_pos (by omega), if_neg (by omega), if_neg (by omega),
      if_neg (by omega), hsize, ← hproto, List.drop_drop, List.drop_drop]
    show UnpackStep.packet _ _ _ _ = .packet _ _ _ (frameSize p)
    unfold frameSize
    congr 1
    omega

/-- The body at the pointer handed to `AddPacket` is the body of the frame. -/
theorem take_body_of_scanFrame {p : Int × List Byte} {rest : List Byte}
    (h : scanFrame (window chBuffer offset iLeftSize) = .frame p rest) :
    (chBuffer.drop (offset + 4)).take p.2.length = p.2 := by
  obtain ⟨-, -, hfits, -, -, hbody, -⟩ := scanFrame_eq_frame_iff.mp h
  have hwindow : (window chBuffer offset iLeftSize).length ≤
      iLeftSize.toNat := List.length_take_le _ _
  nth_rewrite 2 [hbody]
  simp only [networkPacketHeaderSize] at *
  rw [window, List.drop_take, List.drop_drop, List.take_take, List.take_eq_take_iff]
  omega

/-- Behind the frame the window starts later and is shorter. -/
theorem window_of_scanFrame {p : Int × List Byte} {rest : List Byte}
    (h : scanFrame (window chBuffer offset iLeftSize) = .frame p rest) :
    window chBuffer (offset + frameSize p) (iLeftSize - frameSize p) =
      rest := by
  obtain ⟨-, -, -, -, -, -, rfl⟩ := scanFrame_eq_frame_iff.mp h
  rw [window, window, List.drop_take, List.drop_drop, frameSize]
  congr 1
  omega

end Window

/-- A packet stamped with a connection's ids, whose size is that of its
body. -/
def CameFrom (ulClientSeq : UInt64) (iClientFd : Int)
    (packet : NetPacketBuffer) : Prop :=
  packet.ulClientSeq = ulClientSeq ∧ packet.iSockFd = iClientFd ∧
    packet.iBufferSize = packet.buffer.length

/-- **The loop of `UnpackPacketToRecvQueue`.**  It always ends, appends the
packets of one parse of the window to the queue, counts them, returns the
verdict of the parse, and leaves the window at the remainder. -/
theorem unpackLoop_spec (client : ClientContextBuffer) (clock : Nat → UInt64)
    (queue : NetPacketQueue) (offset : Nat) (iLeftSize : Int)
    (iTotalPackets : Nat) (hnonneg : 0 ≤ iLeftSize)
    (hin : offset + iLeftSize.toNat ≤ client.chBuffer.length) :
    ∃ loop added, unpackLoop client clock queue offset iLeftSize iTotalPackets = some loop ∧
        loop.queue = ⟨queue.iPacketNum + added.length, queue.vecPacketPool ++ added⟩ ∧
        added.map NetPacketBuffer.wire =
          (referenceParse (window client.chBuffer offset iLeftSize)).packets ∧
        (∀ packet ∈ added, CameFrom client.ulClientSeq client.iClientFd packet) ∧
        loop.iTotalPackets = iTotalPackets + added.length ∧
        loop.iRet = ((referenceParse (window client.chBuffer offset iLeftSize)).error.getD 0) ∧
        0 ≤ loop.iLeftSize ∧
        loop.offset + loop.iLeftSize = offset + iLeftSize ∧
        window client.chBuffer loop.offset loop.iLeftSize =
          (referenceParse (window client.chBuffer offset iLeftSize)).rest := by
  -- the bytes left shrink with every frame
  induction hn : iLeftSize.toNat using Nat.strong_induction_on
    generalizing queue offset iLeftSize iTotalPackets with
  | _ n ih =>
    have hstep := unpackStep_eq_scanFrame hnonneg hin
    cases hscan : scanFrame (window client.chBuffer offset iLeftSize) with
    | more =>
      rw [hscan] at hstep
      have hparse := referenceParse_of_more hscan
      refine ⟨_, [], unpackLoop_of_incomplete clock iTotalPackets hstep, ?_⟩
      simp [hparse, hnonneg]
    | fail e =>
      rw [hscan] at hstep
      have hparse := referenceParse_of_fail hscan
      refine ⟨_, [], unpackLoop_of_error clock iTotalPackets hstep, ?_⟩
      simp [hparse, hnonneg]
    | frame p rest =>
      rw [hscan] at hstep
      obtain ⟨hpos, hmax, hfits, -, -, -, -⟩ :=
        scanFrame_eq_frame_iff.mp hscan
      rw [length_window hin] at hfits
      have hframe : frameSize p = networkPacketHeaderSize + p.2.length :=
        rfl
      have hparse := referenceParse_of_frame hscan
      have hbody := take_body_of_scanFrame hscan
      have hwindow := window_of_scanFrame hscan
      -- the packet the source constructs for this frame
      let packet : NetPacketBuffer :=
        ⟨client.ulClientSeq, client.iClientFd, p.1, p.2.length, clock iTotalPackets, p.2⟩
      have hadd : queue.addPacket client.ulClientSeq client.iClientFd p.1
          p.2.length (client.chBuffer.drop (offset + 4))
          (clock iTotalPackets) = some ⟨queue.iPacketNum + 1, queue.vecPacketPool ++ [packet]⟩ := by
        rw [NetPacketQueue.addPacket_eq_some_iff, hbody]
        exact ⟨hmax, rfl⟩
      obtain ⟨loop, added, hloop, hqueue, hwire, hcame, htotal, hret, hleft, hsum, hrest⟩ :=
        ih (iLeftSize - frameSize p).toNat (by omega)
          ⟨queue.iPacketNum + 1, queue.vecPacketPool ++ [packet]⟩
          (offset + frameSize p) (iLeftSize - frameSize p)
          (iTotalPackets + 1) (by omega) (by omega) rfl
      rw [hwindow] at hwire hret hrest
      rw [hparse]
      refine ⟨loop, packet :: added,
        (unpackLoop_of_packet hstep hadd).trans hloop, ?_, ?_, ?_, ?_, hret,
        hleft, ?_, hrest⟩
      · rw [hqueue, List.length_cons, List.append_assoc, List.singleton_append]
        congr 1
        show queue.iPacketNum + 1 + added.length = _
        omega
      · rw [List.map_cons, hwire]
        rfl
      · intro q hq
        rcases List.mem_cons.mp hq with rfl | hq
        · exact ⟨rfl, rfl, rfl⟩
        · exact hcame q hq
      · rw [htotal, List.length_cons]
        omega
      · rw [hsum]
        push_cast
        ring

/-- Publishing neither loses nor reorders a packet. -/
theorem enqueued_packetRecvPrepare (h : ctx.netPacketRecvQueue.NoneHidden) :
    ctx.packetRecvPrepare.enqueued = ctx.enqueued := by
  unfold NetworkContext.packetRecvPrepare NetworkContext.enqueued
  dsimp only
  rw [NetPacketQueue.vecPacketPool_copyFrom h, NetPacketQueue.copyFrom_snd,
    NetPacketQueue.vecPacketPool_init, List.append_nil]

/-- **One call of `UnpackPacketToRecvQueue`.**  It returns, and enqueues behind
everything enqueued before the packets of one parse of the buffer's content.
It returns the verdict of the parse; without an error the buffer then holds the
remainder, with one it is left as it was. -/
theorem unpackPacketToRecvQueue_spec (hctx : ctx.netPacketRecvQueue.NoneHidden)
    (hclient : client.InBounds) (clock : Nat → UInt64) :
    ∃ result added, unpackPacketToRecvQueue ctx client clock = some result ∧
        result.ctx.enqueued = ctx.enqueued ++ added ∧
        added.map NetPacketBuffer.wire = (referenceParse client.content).packets ∧
        (∀ packet ∈ added, CameFrom client.ulClientSeq client.iClientFd packet) ∧
        result.iRet = (referenceParse client.content).error.getD 0 ∧
        (result.iRet = 0 → result.client.content = (referenceParse client.content).rest) ∧
        (result.iRet ≠ 0 → result.client = client) ∧
        result.client.InBounds ∧
        result.client.OwnedBy client.ulClientSeq client.iClientFd ∧
        result.ctx.netPacketRecvQueue.NoneHidden := by
  have hin : 0 + client.iBufferSize.toNat ≤ client.chBuffer.length := by
    obtain ⟨hlow, hhigh⟩ := hclient
    rw [client.length_chBuffer]
    omega
  obtain ⟨loop, added, hloop, hqueue, hwire, hcame, -, hret, hleft, hsum, hrest⟩ :=
    unpackLoop_spec client clock ctx.netPacketRecvPrepareQueue 0 client.iBufferSize 0 hclient.1 hin
  have hwindow : window client.chBuffer 0 client.iBufferSize =
      client.content := rfl
  rw [hwindow] at hwire hret hrest
  let ctx' : NetworkContext :=
    { ctx with netPacketRecvPrepareQueue := loop.queue }
  have henqueued : ctx'.enqueued = ctx.enqueued ++ added := by
    show _ ++ loop.queue.vecPacketPool = _
    rw [hqueue, NetworkContext.enqueued, List.append_assoc]
  by_cases herror : loop.iRet = 0
  · have hmoved : loop.offset + loop.iLeftSize = client.iBufferSize := by
      simpa using hsum
    have hcontent := ClientContextBuffer.content_moveBufferPtr hclient hleft hmoved
    have hbounds := ClientContextBuffer.inBounds_moveBufferPtr hclient hmoved
    refine ⟨⟨if loop.iTotalPackets > 0 then ctx'.packetRecvPrepare.emit
        else ctx'.packetRecvPrepare,
      client.moveBufferPtr loop.offset loop.iLeftSize, 0⟩, added, ?_, ?_,
      hwire, hcame, herror ▸ hret, ?_, fun h => (h rfl).elim, hbounds,
      ClientContextBuffer.ownedBy_moveBufferPtr ⟨rfl, rfl⟩ _ _, ?_⟩
    · rw [unpackPacketToRecvQueue, hloop, Option.map_some]
      simp only [herror, ne_eq, not_true_eq_false, if_false]
      rfl
    · have hpublished : ctx'.packetRecvPrepare.enqueued = ctx'.enqueued :=
        enqueued_packetRecvPrepare hctx
      rw [← henqueued, ← hpublished]
      dsimp only
      split <;> rfl
    · intro _
      show (client.moveBufferPtr loop.offset loop.iLeftSize).content = _
      rw [hcontent, ← hrest, window, ClientContextBuffer.content, List.drop_take]
      congr 1
      omega
    · have hcounted := NetPacketQueue.counted_copyFrom ctx.netPacketRecvQueue loop.queue
      dsimp only
      split
      · exact hcounted.noneHidden
      · exact hcounted.noneHidden
  · refine ⟨⟨ctx', client, loop.iRet⟩, added, ?_, henqueued, hwire, hcame, hret,
      fun h => (herror h).elim, fun _ => rfl, hclient, ⟨rfl, rfl⟩, hctx⟩
    rw [unpackPacketToRecvQueue, hloop, Option.map_some]
    simp only [ne_eq, herror, not_false_eq_true, if_true]
    rfl

/-- A packet that some call of `UnpackPacketToRecvQueue` enqueues. -/
def AcceptedPacket (packet : NetPacketBuffer) : Prop :=
  ∃ (ctx : NetworkContext) (client : ClientContextBuffer)
    (clock : Nat → UInt64) (result : UnpackResult)
    (added : List NetPacketBuffer),
    ctx.netPacketRecvQueue.NoneHidden ∧ client.InBounds ∧
      unpackPacketToRecvQueue ctx client clock = some result ∧
      result.ctx.enqueued = ctx.enqueued ++ added ∧ packet ∈ added

/-- An accepted packet has a body within the limits, and its size is that of
the body. -/
theorem AcceptedPacket.bounds {packet : NetPacketBuffer} (h : AcceptedPacket packet) :
    0 < packet.buffer.length ∧ packet.buffer.length ≤ networkPacketBufferMaxSize ∧
      packet.iBufferSize = packet.buffer.length := by
  obtain ⟨ctx, client, clock, result, added, hctx, hclient, hcall, henqueued, hmem⟩ := h
  obtain ⟨result', added', hcall', henqueued', hwire, hcame, -⟩ :=
    unpackPacketToRecvQueue_spec hctx hclient clock
  rw [hcall, Option.some.injEq] at hcall'
  subst hcall'
  have hadded : added = added' :=
    List.append_cancel_left (henqueued.symm.trans henqueued')
  subst hadded
  have hparsed : packet.wire ∈ (referenceParse client.content).packets := by
    rw [← hwire]
    exact List.mem_map_of_mem hmem
  obtain ⟨hpos, hmax, -, -⟩ := referenceParse_packets_bounds hparsed
  exact ⟨hpos, hmax, (hcame packet hmem).2.2⟩

/-- Every body within the limits is accepted under every 16-bit protocol
number: the client sends it as one frame. -/
theorem exists_acceptedPacket {iProtoNo : Int} {body : List Byte} (hpos : 0 < body.length)
    (hmax : body.length ≤ networkPacketBufferMaxSize)
    (hlow : -2 ^ 15 ≤ iProtoNo) (hhigh : iProtoNo < 2 ^ 15) :
    ∃ packet, AcceptedPacket packet ∧ packet.iProtoNo = iProtoNo ∧ packet.buffer = body := by
  have hroom : (frameOf iProtoNo body).length ≤ contextBufferCapacity := by
    rw [length_frameOf]
    exact le_trans (Nat.add_le_add_left hmax _) (by decide)
  have hctx : NetworkContext.construct.netPacketRecvQueue.NoneHidden :=
    NetPacketQueue.counted_init.noneHidden
  obtain ⟨result, added, hcall, henqueued, hwire, -⟩ :=
    unpackPacketToRecvQueue_spec hctx
      (ClientContextBuffer.inBounds_ofContent 1 7 _ hroom) (fun _ => 0)
  have hframe := scanFrame_frameOf_append hpos hmax hlow hhigh []
  rw [List.append_nil] at hframe
  have hempty : referenceParse [] = ⟨[], none, []⟩ :=
    referenceParse_of_more rfl
  rw [ClientContextBuffer.content_ofContent, referenceParse_of_frame hframe, hempty] at hwire
  obtain ⟨packet, hpacket⟩ : ∃ packet, added = [packet] := by
    apply List.length_eq_one_iff.mp
    rw [← List.length_map, hwire]
    rfl
  subst hpacket
  exact ⟨packet, ⟨_, _, _, result, _, hctx,
    ClientContextBuffer.inBounds_ofContent 1 7 _ hroom, hcall, henqueued,
    List.mem_singleton_self _⟩,
    Prod.mk.inj (List.head_eq_of_cons_eq hwire)⟩

/-! ## Feeding a stream in chunks -/

/-- The outcome of feeding chunks to a client: the state, the first non-zero
return or zero, and the client's buffer after every read and every call. -/
structure FeedResult where
  ctx : NetworkContext
  client : ClientContextBuffer
  iRet : Int
  trace : List ClientContextBuffer

/-- Append chunks to the client's buffer with `PacketBufferRead`, one by one,
each followed by a call of `UnpackPacketToRecvQueue`, up to the first non-zero
return.  `clock i j` is the time of packet `j` of call `i`. -/
def feedChunks (api : BuffereventRead) (clock : Nat → Nat → UInt64)
    (ctx : NetworkContext) (client : ClientContextBuffer) :
    List (List Byte) → Option FeedResult
  | [] => some ⟨ctx, client, 0, []⟩
  | chunk :: chunks =>
    let read := packetBufferRead api client chunk
    (unpackPacketToRecvQueue ctx read.client (clock 0)).bind fun result =>
      if result.iRet ≠ 0 then
        some ⟨result.ctx, result.client, result.iRet,
          [read.client, result.client]⟩
      else
        (feedChunks api (fun i => clock (i + 1)) result.ctx result.client
          chunks).map fun later =>
            { later with trace :=
                read.client :: result.client :: later.trace }

/-- Every chunk fits the free space of the buffer when it arrives. -/
def ChunksFit (api : BuffereventRead) (clock : Nat → Nat → UInt64)
    (ctx : NetworkContext) (client : ClientContextBuffer) :
    List (List Byte) → Prop
  | [] => True
  | chunk :: chunks =>
    chunk.length ≤ client.freeSpace ∧
      ∀ result, unpackPacketToRecvQueue ctx
          (packetBufferRead api client chunk).client (clock 0) =
            some result → result.iRet = 0 →
        ChunksFit api (fun i => clock (i + 1)) result.ctx result.client chunks

/-- Feeding chunks to a client is feeding them to the wire format, starting
from the bytes the buffer holds. -/
theorem feedChunks_spec (api : BuffereventRead) (clock : Nat → Nat → UInt64)
    {ulClientSeq : UInt64} {iClientFd : Int}
    (hctx : ctx.netPacketRecvQueue.NoneHidden) (hclient : client.InBounds)
    (howner : client.OwnedBy ulClientSeq iClientFd) (chunks : List (List Byte))
    (hfit : ChunksFit api clock ctx client chunks) :
    ∃ result added, feedChunks api clock ctx client chunks = some result ∧
        result.ctx.enqueued = ctx.enqueued ++ added ∧
        added.map NetPacketBuffer.wire = (wireFramer.feed client.content chunks).packets ∧
        (∀ packet ∈ added, CameFrom ulClientSeq iClientFd packet) ∧
        result.iRet = (wireFramer.feed client.content chunks).error.getD 0 ∧
        (result.iRet = 0 → result.client.content = (wireFramer.feed client.content chunks).rest) ∧
        (∀ buffer ∈ result.trace, buffer.InBounds) := by
  induction chunks generalizing clock ctx client with
  | nil =>
    exact ⟨⟨ctx, client, 0, []⟩, [], rfl, by simp, rfl, by simp, rfl, fun _ => rfl, by simp⟩
  | cons chunk chunks ih =>
    obtain ⟨hroom, hlater⟩ := hfit
    have hcontent : (packetBufferRead api client chunk).client.content =
        client.content ++ chunk := by
      rw [content_packetBufferRead api hclient, List.take_of_length_le hroom]
    have hread := inBounds_packetBufferRead api hclient chunk
    obtain ⟨hseq, hfd⟩ := ownedBy_packetBufferRead api howner chunk
    obtain ⟨result, added, hunpack, henqueued, hwire, hcame, hret, hrest,
        -, hbounds, howner', hhidden⟩ :=
      unpackPacketToRecvQueue_spec hctx hread (clock 0)
    rw [hcontent] at hwire hret hrest
    rw [hseq, hfd] at hcame howner'
    have hparse : wireFramer.parse (client.content ++ chunk) =
        referenceParse (client.content ++ chunk) := rfl
    cases herror : (referenceParse (client.content ++ chunk)).error with
    | some e =>
      have hne := referenceParse_error_ne_zero herror
      rw [herror, Option.getD_some] at hret
      refine ⟨⟨result.ctx, result.client, result.iRet,
          [(packetBufferRead api client chunk).client, result.client]⟩,
        added, ?_, henqueued, ?_, hcame, ?_, ?_, ?_⟩
      · rw [feedChunks, hunpack, Option.bind_some, if_pos (by omega)]
      · rw [wireFramer.feed_cons_of_error_some chunks herror]
        exact hwire
      · rw [wireFramer.feed_cons_of_error_some chunks herror]
        exact hret
      · intro hzero
        exact (hne (hret.symm.trans hzero)).elim
      · intro buffer hbuffer
        rcases List.mem_pair.mp hbuffer with rfl | rfl
        · exact hread
        · exact hbounds
    | none =>
      rw [herror, Option.getD_none] at hret
      obtain ⟨later, more, hfeed, hqueued, hwires, hcames, hrets, hrests, htrace⟩ :=
        ih (fun i => clock (i + 1)) hhidden hbounds howner' (hlater result hunpack hret)
      rw [hrest hret] at hwires hrets hrests
      rw [wireFramer.feed_cons_of_error_none chunks herror]
      refine ⟨{ later with trace :=
          (packetBufferRead api client chunk).client :: result.client ::
            later.trace }, added ++ more, ?_, ?_, ?_, ?_, hrets, hrests, ?_⟩
      · rw [feedChunks, hunpack, Option.bind_some, if_neg (by omega), hfeed, Option.map_some]
      · rw [← List.append_assoc, ← henqueued]
        exact hqueued
      · rw [List.map_append, hwire, hwires]
        rfl
      · intro packet hpacket
        rcases List.mem_append.mp hpacket with h | h
        · exact hcame packet h
        · exact hcames packet h
      · intro buffer hbuffer
        rcases List.mem_cons.mp hbuffer with rfl | hbuffer
        · exact hread
        · rcases List.mem_cons.mp hbuffer with rfl | hbuffer
          · exact hbounds
          · exact htrace buffer hbuffer

/-- A parse leaves at most its input over. -/
theorem length_referenceParse_rest_le (stream : List Byte) :
    (referenceParse stream).rest.length ≤ stream.length := by
  rw [referenceParse_rest, List.length_drop]
  omega

/-- A stream that fits the free space as a whole fits in every cut. -/
theorem chunksFit_of_length_le (api : BuffereventRead)
    (clock : Nat → Nat → UInt64) (hctx : ctx.netPacketRecvQueue.NoneHidden)
    (hclient : client.InBounds) (chunks : List (List Byte))
    (hlength : chunks.flatten.length ≤ client.freeSpace) :
    ChunksFit api clock ctx client chunks := by
  induction chunks generalizing clock ctx client with
  | nil => trivial
  | cons chunk chunks ih =>
    rw [List.flatten_cons, List.length_append] at hlength
    have hroom : chunk.length ≤ client.freeSpace := by omega
    refine ⟨hroom, ?_⟩
    intro result hunpack hzero
    have hread := inBounds_packetBufferRead api hclient chunk
    obtain ⟨result', -, hunpack', -, -, -, -, hrest, -, hbounds, -,
        hhidden⟩ := unpackPacketToRecvQueue_spec hctx hread (clock 0)
    obtain rfl : result' = result :=
      Option.some.inj (hunpack'.symm.trans hunpack)
    apply ih (fun i => clock (i + 1)) hhidden hbounds
    -- what is left of the content is no longer than the content
    have hshort := length_referenceParse_rest_le (packetBufferRead api client chunk).client.content
    have hcontent := congrArg List.length (content_packetBufferRead api hclient chunk)
    rw [← hrest hzero] at hshort
    rw [List.length_append, List.take_of_length_le hroom] at hcontent
    have hbefore := hclient.length_add_freeSpace
    have hafter := hbounds.length_add_freeSpace
    omega

/-- Feeding the chunks of a stream to a fresh client is one parse of the
stream. -/
theorem feedChunks_construct (api : BuffereventRead)
    (clock : Nat → Nat → UInt64) (hctx : ctx.netPacketRecvQueue.NoneHidden)
    (ulClientSeq : UInt64) (iClientFd : Int) {stream : List Byte}
    {chunks : List (List Byte)} (hcut : chunks.flatten = stream)
    (hfit : ChunksFit api clock ctx (.construct ulClientSeq iClientFd) chunks) :
    ∃ result added, feedChunks api clock ctx (.construct ulClientSeq iClientFd) chunks =
          some result ∧
        result.ctx.enqueued = ctx.enqueued ++ added ∧
        added.map NetPacketBuffer.wire = (referenceParse stream).packets ∧
        (∀ packet ∈ added, CameFrom ulClientSeq iClientFd packet) ∧
        result.iRet = (referenceParse stream).error.getD 0 ∧
        (result.iRet = 0 → result.client.content = (referenceParse stream).rest) ∧
        (∀ buffer ∈ result.trace, buffer.InBounds) := by
  obtain ⟨result, added, hfeed, henqueued, hwire, hcame, hret, hrest, htrace⟩ :=
    feedChunks_spec api clock hctx (ClientContextBuffer.inBounds_construct ulClientSeq iClientFd)
      ⟨rfl, rfl⟩ chunks hfit
  have hstart : wireFramer.next [] = .more := rfl
  rw [ClientContextBuffer.content_construct] at hwire hret hrest
  obtain ⟨hpackets, herror, hremainder⟩ := wireFramer.feed_eq_parse hstart chunks
  rw [List.nil_append, hcut] at hpackets herror hremainder
  refine ⟨result, added, hfeed, henqueued, hwire.trans hpackets, hcame, ?_, ?_, htrace⟩
  · rw [hret, herror]
    rfl
  · intro hzero
    rw [hrest hzero]
    apply hremainder
    cases hverdict : (wireFramer.feed [] chunks).error with
    | none => rfl
    | some e =>
      -- an error would have been returned as a non-zero code
      rw [hverdict, Option.getD_some] at hret
      rw [hverdict] at herror
      exact (referenceParse_error_ne_zero herror.symm (hret.symm.trans hzero)).elim

/-- **Framing does not depend on how TCP cuts the stream.**  Whatever the cut
of a byte stream into chunks that fit the buffer when they arrive, feeding them
to a fresh client enqueues the packets that one parse of the whole stream
yields and returns the same error at the same frame, if there is one.  As long
as no error was returned, the buffer holds what the parse left over, and the
buffer's size stays within the array at every point. -/
theorem feedChunks_eq_referenceParse (api : BuffereventRead)
    (clock : Nat → Nat → UInt64) (ctx : NetworkContext)
    (hctx : ctx.netPacketRecvQueue.Counted) (ulClientSeq : UInt64)
    (iClientFd : Int) (stream : List Byte) (chunks : List (List Byte))
    (hcut : chunks.flatten = stream)
    (hfit : ChunksFit api clock ctx (.construct ulClientSeq iClientFd) chunks) :
    ∃ result added, feedChunks api clock ctx (.construct ulClientSeq iClientFd) chunks =
          some result ∧
        result.ctx.enqueued = ctx.enqueued ++ added ∧
        added.map NetPacketBuffer.wire = (referenceParse stream).packets ∧
        result.iRet = (referenceParse stream).error.getD 0 ∧
        (result.iRet = 0 → result.client.content = (referenceParse stream).rest ∧
            (referenceParse stream).rest = stream.drop
              (((referenceParse stream).packets.map frameSize).sum)) ∧
        (∀ buffer ∈ result.trace, 0 ≤ buffer.iBufferSize ∧
            buffer.iBufferSize ≤ contextBufferCapacity) := by
  obtain ⟨result, added, hfeed, henqueued, hwire, -, hret, hrest, htrace⟩ :=
    feedChunks_construct api clock hctx.noneHidden ulClientSeq iClientFd hcut hfit
  exact ⟨result, added, hfeed, henqueued, hwire, hret,
    fun hzero => ⟨hrest hzero, referenceParse_rest stream⟩, htrace⟩

/-- A frame cut after its first and its fourth byte, followed by the beginning
of a second frame. -/
theorem feedChunks_eq_referenceParse_three_chunks :
    ∃ result added,
      feedChunks .ofList (fun _ _ => 0) .construct (.construct 1 7)
          [[0], [5, 0, 2], [9, 0, 5]] = some result ∧
        result.ctx.enqueued = NetworkContext.construct.enqueued ++ added ∧
        added.map NetPacketBuffer.wire = [(2, [9])] ∧ result.iRet = 0 ∧
        result.client.content = [0, 5] := by
  have hparse : referenceParse [0, 5, 0, 2, 9, 0, 5] = ⟨[(2, [9])], none, [0, 5]⟩ := by
    have hfirst : scanFrame [0, 5, 0, 2, 9, 0, 5] = .frame (2, [9]) [0, 5] := by
      rw [scanFrame_eq_frame_iff]
      decide
    have hsecond : scanFrame [0, 5] = .more := by
      rw [scanFrame_eq_more_iff]
      decide
    rw [referenceParse_of_frame hfirst, referenceParse_of_more hsecond]
  obtain ⟨result, added, hfeed, henqueued, hwire, hret, hrest, -⟩ :=
    feedChunks_eq_referenceParse .ofList (fun _ _ => 0) .construct
      NetPacketQueue.counted_init 1 7 [0, 5, 0, 2, 9, 0, 5]
      [[0], [5, 0, 2], [9, 0, 5]] rfl
      (chunksFit_of_length_le _ _ NetPacketQueue.counted_init.noneHidden
        (ClientContextBuffer.inBounds_construct 1 7) _
        (by rw [ClientContextBuffer.freeSpace_construct]; decide))
  rw [hparse] at hwire hret hrest
  exact ⟨result, added, hfeed, henqueued, hwire, hret, (hrest hret).1⟩

end Network
end GameServer
