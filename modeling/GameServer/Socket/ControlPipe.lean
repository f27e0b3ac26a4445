import GameServer.Lib.Layout
import GameServer.Socket.UdpAddress
import GameServer.Lib.Outbox

/-!
# The control pipe

Other threads talk to the thread of the socket server by a pipe.  A request is
one byte for its type, one for the length, and a structure of that length as it
lies in memory, with whatever was there before in its gaps.  Each request is
written by one call of `write`, so the pipe holds whole requests.

The length of a request to open is `sizeof(struct request_open)` and the length
of the host name, and `open_request` lets it be 256, for which there is no byte.
Such a request is read as one of length 0, and then its own bytes are taken for
requests.  All other requests are read as they were written.
-/

namespace GameServer
namespace Socket

open Lib Network

/-- The requests, with the fields of their structures. -/
inductive Request where
  | start (id : Int32) (owner : UInt64)
  | bind (id fd : Int32) (owner : UInt64)
  | listen (id fd : Int32) (owner : UInt64)
  | close (id : Int32) (owner : UInt64)
  | openHost (id port : Int32) (owner : UInt64) (host : List Byte)
  | exit
  | send (priority : Priority) (id sz : Int32) (buffer : UInt64)
  | sendUdp (id sz : Int32) (buffer : UInt64) (address : List Byte)
  | setopt (id what value : Int32)
  | udp (id fd family : Int32) (owner : UInt64)
  | setUdp (id : Int32) (address : List Byte)
deriving DecidableEq

/-- `sizeof(struct request_open)`. -/
def sizeofRequestOpen : Nat := 24

namespace Request

/-- The byte for the type. -/
def type : Request → Byte
  | start .. => 'S'.toUInt8
  | bind .. => 'B'.toUInt8
  | listen .. => 'L'.toUInt8
  | close .. => 'K'.toUInt8
  | openHost .. => 'O'.toUInt8
  | exit => 'X'.toUInt8
  | send .high .. => 'D'.toUInt8
  | send .low .. => 'P'.toUInt8
  | sendUdp .. => 'A'.toUInt8
  | setopt .. => 'T'.toUInt8
  | udp .. => 'U'.toUInt8
  | setUdp .. => 'C'.toUInt8

/-- The fields that are stored, at their offsets. -/
def fields : Request → List (Nat × List Byte)
  | start id owner | close id owner =>
    [(0, int32Bytes id), (8, uint64Bytes owner)]
  | bind id fd owner | listen id fd owner =>
    [(0, int32Bytes id), (4, int32Bytes fd), (8, uint64Bytes owner)]
  | openHost id port owner host =>
    [(0, int32Bytes id), (4, int32Bytes port), (8, uint64Bytes owner),
      (16, host ++ [0])]
  | exit => []
  | send _ id sz buffer =>
    [(0, int32Bytes id), (4, int32Bytes sz), (8, uint64Bytes buffer)]
  | sendUdp id sz buffer address =>
    [(0, int32Bytes id), (4, int32Bytes sz), (8, uint64Bytes buffer),
      (16, address)]
  | setopt id what value =>
    [(0, int32Bytes id), (4, int32Bytes what), (8, int32Bytes value)]
  | udp id fd family owner =>
    [(0, int32Bytes id), (4, int32Bytes fd), (8, int32Bytes family),
      (16, uint64Bytes owner)]
  | setUdp id address => [(0, int32Bytes id), (4, address)]

/-- The length that is passed to `send_request`. -/
def len : Request → Nat
  | start .. | close .. | bind .. | send .. => 16
  | listen .. | udp .. => 24
  | openHost _ _ _ host => sizeofRequestOpen + host.length
  | exit => 0
  | sendUdp _ _ _ address => 16 + address.length
  | setopt .. => 12
  | setUdp _ address => 24 - udpAddressSize + address.length

/-- What the functions that send requests make sure of: `open_request` refuses
long names, and addresses have the length of their kind. -/
def WellFormed : Request → Prop
  | openHost _ _ _ host => host.length + sizeofRequestOpen ≤ 256 ∧ 0 ∉ host
  | sendUdp _ _ _ address | setUdp _ address =>
    addrsz address = some address.length
  | _ => True

/-- `send_request`: the bytes that are written, with what the structure on the
stack held before. -/
def packet (r : Request) (stack : List Byte) : List Byte :=
  r.type :: UInt8.ofNat r.len :: (storeAll stack r.fields).take r.len

/-- `ctrl_cmd` for a request of the type in the buffer. -/
def decode (type : Byte) (buffer : List Byte) : Option Request :=
  let int (offset : Nat) := int32Of (field buffer offset 4)
  let word (offset : Nat) := uint64Of (field buffer offset 8)
  if type = 'S'.toUInt8 then some (.start (int 0) (word 8))
  else if type = 'B'.toUInt8 then some (.bind (int 0) (int 4) (word 8))
  else if type = 'L'.toUInt8 then some (.listen (int 0) (int 4) (word 8))
  else if type = 'K'.toUInt8 then some (.close (int 0) (word 8))
  else if type = 'O'.toUInt8 then
    some (.openHost (int 0) (int 4) (word 8)
      ((buffer.drop 16).takeWhile (· ≠ 0)))
  else if type = 'X'.toUInt8 then some .exit
  else if type = 'D'.toUInt8 then some (.send .high (int 0) (int 4) (word 8))
  else if type = 'P'.toUInt8 then some (.send .low (int 0) (int 4) (word 8))
  else if type = 'A'.toUInt8 then
    some (.sendUdp (int 0) (int 4) (word 8) (field buffer 16 udpAddressSize))
  else if type = 'C'.toUInt8 then
    some (.setUdp (int 0) (field buffer 4 udpAddressSize))
  else if type = 'T'.toUInt8 then some (.setopt (int 0) (int 4) (int 8))
  else if type = 'U'.toUInt8 then
    some (.udp (int 0) (int 4) (int 8) (word 16))
  else none

/-- A request with bytes behind its address: the array of the structure is read
as a whole. -/
def pad (behind : List Byte) : Request → Request
  | sendUdp id sz buffer address => .sendUdp id sz buffer (address ++ behind)
  | setUdp id address => .setUdp id (address ++ behind)
  | r => r

end Request

/-- `block_readpipe` and `ctrl_cmd`: the request that is read from the pipe, into
a buffer with what the stack held before.  `none` inside is a request of unknown
type.  It fails if the pipe does not hold what is read. -/
def readRequest (stack : List Byte) : List Byte →
    Option (Option Request × List Byte)
  | type :: len :: rest =>
    if rest.length < len.toNat then
      none
    else
      some (Request.decode type (memcpy stack 0 (rest.take len.toNat)),
        rest.drop len.toNat)
  | _ => none

/-- Read requests, one after the other. -/
def readRequests : List (List Byte) → List Byte →
    Option (List (Option Request) × List Byte)
  | [], pipe => some ([], pipe)
  | stack :: later, pipe =>
    (readRequest stack pipe).bind fun first =>
      (readRequests later first.2).map fun rest =>
        (first.1 :: rest.1, rest.2)

namespace Request

/-- The length of an address is 7 or 19. -/
theorem length_of_addrsz {address : List Byte} (h : addrsz address = some address.length) :
    address.length ≤ udpAddressSize := by
  unfold addrsz at h
  split_ifs at h
  · rw [← Option.some.inj h]
    decide
  · rw [← Option.some.inj h]
    decide

/-- The fields lie one behind the other within the length. -/
theorem laidOut_fields {r : Request} (h : r.WellFormed) : LaidOut 0 r.len r.fields := by
  cases r with
  | openHost id port owner host =>
    simp only [fields, LaidOut, len, sizeofRequestOpen, length_int32Bytes,
      length_uint64Bytes, List.length_append, List.length_singleton]
    refine ⟨?_, ?_, ?_, ?_, ?_, ?_, ?_, ?_, trivial⟩ <;> omega
  | exit => trivial
  | sendUdp id sz buffer address =>
    simp only [fields, LaidOut, len, length_int32Bytes, length_uint64Bytes]
    refine ⟨?_, ?_, ?_, ?_, ?_, ?_, ?_, ?_, trivial⟩ <;> omega
  | setUdp id address =>
    simp only [fields, LaidOut, len, udpAddressSize, length_int32Bytes]
    refine ⟨?_, ?_, ?_, ?_, trivial⟩ <;> omega
  | start | bind | listen | close | send | setopt | udp =>
    simp [fields, LaidOut, len]

theorem len_le {r : Request} (h : r.WellFormed) : r.len ≤ 256 := by
  cases r with
  | openHost id port owner host =>
    have := h.1
    simp only [len]
    omega
  | sendUdp id sz buffer address =>
    have := length_of_addrsz h
    simp only [len, udpAddressSize] at this ⊢
    omega
  | setUdp id address =>
    have := length_of_addrsz h
    simp only [len, udpAddressSize] at this ⊢
    omega
  | start | bind | listen | close | exit | send | setopt | udp =>
    simp [len]

/-- What `ctrl_cmd` finds in a buffer that has the fields of a request. -/
theorem decode_eq {r : Request} (h : r.WellFormed) {buffer : List Byte}
    (hfields : ∀ offset bytes, (offset, bytes) ∈ r.fields →
      field buffer offset bytes.length = bytes) :
    ∃ behind, decode r.type buffer = some (r.pad behind) := by
  have hint : ∀ offset x, (offset, int32Bytes x) ∈ r.fields →
      int32Of (field buffer offset 4) = x := by
    intro offset x hmem
    have hfield := hfields offset _ hmem
    rw [length_int32Bytes] at hfield
    rw [hfield, int32Of_int32Bytes]
  have hword : ∀ offset x, (offset, uint64Bytes x) ∈ r.fields →
      uint64Of (field buffer offset 8) = x := by
    intro offset x hmem
    have hfield := hfields offset _ hmem
    rw [length_uint64Bytes] at hfield
    rw [hfield, uint64Of_uint64Bytes]
  -- an address is the front of the array it is stored in
  have haddress : ∀ offset address, (offset, address) ∈ r.fields →
      addrsz address = some address.length →
      ∃ behind, field buffer offset udpAddressSize = address ++ behind := by
    intro offset address hmem hsize
    have hle := length_of_addrsz hsize
    refine ⟨field buffer (offset + address.length) (udpAddressSize - address.length), ?_⟩
    have hsplit := field_add buffer offset address.length (udpAddressSize - address.length)
    rw [hfields offset address hmem, Nat.add_sub_cancel' hle] at hsplit
    exact hsplit
  cases r with
  | start id owner =>
    refine ⟨[], ?_⟩
    show some (Request.start (int32Of (field buffer 0 4)) (uint64Of (field buffer 8 8))) = _
    rw [hint 0 id (by simp [fields]), hword 8 owner (by simp [fields])]
    rfl
  | close id owner =>
    refine ⟨[], ?_⟩
    show some (Request.close (int32Of (field buffer 0 4)) (uint64Of (field buffer 8 8))) = _
    rw [hint 0 id (by simp [fields]), hword 8 owner (by simp [fields])]
    rfl
  | bind id fd owner =>
    refine ⟨[], ?_⟩
    show some (Request.bind (int32Of (field buffer 0 4))
      (int32Of (field buffer 4 4)) (uint64Of (field buffer 8 8))) = _
    rw [hint 0 id (by simp [fields]), hint 4 fd (by simp [fields]),
      hword 8 owner (by simp [fields])]
    rfl
  | listen id fd owner =>
    refine ⟨[], ?_⟩
    show some (Request.listen (int32Of (field buffer 0 4))
      (int32Of (field buffer 4 4)) (uint64Of (field buffer 8 8))) = _
    rw [hint 0 id (by simp [fields]), hint 4 fd (by simp [fields]),
      hword 8 owner (by simp [fields])]
    rfl
  | send priority id sz place =>
    refine ⟨[], ?_⟩
    have hdecode : decode (Request.send priority id sz place).type buffer =
        some (.send priority (int32Of (field buffer 0 4))
          (int32Of (field buffer 4 4)) (uint64Of (field buffer 8 8))) := by
      cases priority <;> rfl
    rw [hdecode, hint 0 id (by simp [fields]),
      hint 4 sz (by simp [fields]), hword 8 place (by simp [fields])]
    rfl
  | exit => exact ⟨[], rfl⟩
  | setopt id what value =>
    refine ⟨[], ?_⟩
    show some (Request.setopt (int32Of (field buffer 0 4))
      (int32Of (field buffer 4 4)) (int32Of (field buffer 8 4))) = _
    rw [hint 0 id (by simp [fields]), hint 4 what (by simp [fields]),
      hint 8 value (by simp [fields])]
    rfl
  | udp id fd family owner =>
    refine ⟨[], ?_⟩
    show some (Request.udp (int32Of (field buffer 0 4))
      (int32Of (field buffer 4 4)) (int32Of (field buffer 8 4))
      (uint64Of (field buffer 16 8))) = _
    rw [hint 0 id (by simp [fields]), hint 4 fd (by simp [fields]),
      hint 8 family (by simp [fields]),
      hword 16 owner (by simp [fields])]
    rfl
  | sendUdp id sz place address =>
    obtain ⟨behind, hbehind⟩ := haddress 16 address (by simp [fields]) h
    refine ⟨behind, ?_⟩
    show some (Request.sendUdp (int32Of (field buffer 0 4))
      (int32Of (field buffer 4 4)) (uint64Of (field buffer 8 8))
      (field buffer 16 udpAddressSize)) = _
    rw [hint 0 id (by simp [fields]), hint 4 sz (by simp [fields]),
      hword 8 place (by simp [fields]), hbehind]
    rfl
  | setUdp id address =>
    obtain ⟨behind, hbehind⟩ := haddress 4 address (by simp [fields]) h
    refine ⟨behind, ?_⟩
    show some (Request.setUdp (int32Of (field buffer 0 4)) (field buffer 4 udpAddressSize)) = _
    rw [hint 0 id (by simp [fields]), hbehind]
    rfl
  | openHost id port owner host =>
    refine ⟨[], ?_⟩
    show some (Request.openHost (int32Of (field buffer 0 4))
      (int32Of (field buffer 4 4)) (uint64Of (field buffer 8 8))
      ((buffer.drop 16).takeWhile (· ≠ 0))) = _
    -- the name ends at the zero that was stored behind it
    have hhost : (buffer.drop 16).takeWhile (· ≠ 0) = host := by
      have hfield := hfields 16 (host ++ [0]) (by simp [fields])
      have hsplit : buffer.drop 16 = host ++ 0 :: (buffer.drop 16).drop (host ++ [0]).length := by
        conv_lhs => rw [← List.take_append_drop (host ++ [0]).length (buffer.drop 16)]
        rw [field] at hfield
        rw [hfield, List.append_assoc, List.singleton_append]
      rw [hsplit, List.takeWhile_append_of_pos, List.takeWhile_cons_of_neg]
      · simp
      · simp
      · intro c hc
        have : c ≠ 0 := fun hzero => h.2 (hzero ▸ hc)
        simpa using this
    rw [hint 0 id (by simp [fields]), hint 4 port (by simp [fields]),
      hword 8 owner (by simp [fields]), hhost]
    rfl

end Request

/-- Reading a request whose length fits into a byte. -/
theorem readRequest_packet {r : Request} (h : r.WellFormed)
    (hlen : r.len ≠ 256) {stack buffer : List Byte}
    (hstack : stack.length = 512) (hbuffer : buffer.length = 256)
    (rest : List Byte) :
    ∃ behind, readRequest buffer (r.packet stack ++ rest) = some (some (r.pad behind), rest) := by
  have hle := r.len_le h
  have hbyte : (UInt8.ofNat r.len).toNat = r.len := by
    rw [UInt8.toNat_ofNat']
    exact Nat.mod_eq_of_lt (by omega)
  have hbody : ((storeAll stack r.fields).take r.len).length = r.len := by
    rw [List.length_take, length_storeAll]
    omega
  -- what is read has the fields of the request
  have hfields : ∀ offset bytes, (offset, bytes) ∈ r.fields →
      field (memcpy buffer 0 ((storeAll stack r.fields).take r.len)) offset
        bytes.length = bytes := by
    intro offset bytes hmem
    have hlaid := r.laidOut_fields h
    rw [field_memcpy_take (by rw [length_storeAll]; omega) (by omega)
      (hlaid.end_le hmem), field_storeAll hlaid (by omega) hmem]
  obtain ⟨behind, hdecode⟩ := r.decode_eq h hfields
  refine ⟨behind, ?_⟩
  rw [Request.packet, List.cons_append, List.cons_append, readRequest, hbyte,
    if_neg (by rw [List.length_append]; omega), List.take_left' hbody,
    List.drop_left' hbody, hdecode]

/-- The one request whose length does not fit. -/
theorem Request.len_eq_iff {r : Request} (h : r.WellFormed) :
    r.len = 256 ↔ ∃ id port owner host,
      r = .openHost id port owner host ∧ host.length = 232 := by
  constructor
  · intro hlen
    cases r with
    | openHost id port owner host =>
      refine ⟨id, port, owner, host, rfl, ?_⟩
      simp only [len, sizeofRequestOpen] at hlen
      omega
    | sendUdp id sz buffer address =>
      have := length_of_addrsz h
      simp only [len, udpAddressSize] at hlen this
      omega
    | setUdp id address =>
      have := length_of_addrsz h
      simp only [len, udpAddressSize] at hlen this
      omega
    | start | bind | listen | close | exit | send | setopt | udp =>
      simp [len] at hlen
  · rintro ⟨id, port, owner, host, rfl, hhost⟩
    rw [len, hhost]
    rfl

/-- **One request is not read as it was written.**  A request to open with a
name of 232 bytes passes the check of `open_request`.  It is read as a request
to open what the buffer of the reader happens to hold, and all of its own bytes
are left in the pipe, to be read as requests.  Behind every other request the
pipe goes on with the next one. -/
theorem in_step_iff_short_host {r : Request} (h : r.WellFormed)
    {stack buffer : List Byte} (hstack : stack.length = 512)
    (hbuffer : buffer.length = 256) (rest : List Byte) :
    (r.len ≠ 256 → ∃ behind, readRequest buffer (r.packet stack ++ rest) =
        some (some (r.pad behind), rest)) ∧
      (r.len = 256 → readRequest buffer (r.packet stack ++ rest) =
        some (Request.decode 'O'.toUInt8 buffer, (storeAll stack r.fields).take 256 ++ rest)) ∧
      (r.len = 256 ↔ ∃ id port owner host,
        r = .openHost id port owner host ∧ host.length = 232) := by
  refine ⟨fun hlen => readRequest_packet h hlen hstack hbuffer rest, ?_, r.len_eq_iff h⟩
  intro hlen
  obtain ⟨id, port, owner, host, rfl, -⟩ := (r.len_eq_iff h).mp hlen
  -- the byte for the length is 0
  rw [Request.packet, hlen]
  show some (Request.decode _ (memcpy buffer 0 []), _) = _
  rw [memcpy_eq (Nat.zero_le _)]
  rfl

/-- The longest name that `open_request` lets pass. -/
theorem in_step_iff_short_host_longest :
    ∃ (r : Request) (stack buffer : List Byte), r.WellFormed ∧
      ∃ left, readRequest buffer (r.packet stack) = some (Request.decode 'O'.toUInt8 buffer, left) ∧
        left.length = 256 := by
  obtain ⟨host, hhost, hzero⟩ : ∃ host : List Byte, host.length = 232 ∧ 0 ∉ host := by
    refine ⟨List.replicate 232 97, List.length_replicate, fun hmem => ?_⟩
    exact absurd (List.eq_of_mem_replicate hmem) (by decide)
  obtain ⟨stack, hstack⟩ : ∃ stack : List Byte, stack.length = 512 :=
    ⟨List.replicate 512 0, List.length_replicate⟩
  obtain ⟨buffer, hbuffer⟩ : ∃ buffer : List Byte, buffer.length = 256 :=
    ⟨List.replicate 256 0, List.length_replicate⟩
  have hform : (Request.openHost 7 80 1 host).WellFormed :=
    ⟨by rw [hhost]; decide, hzero⟩
  obtain ⟨-, hlong, hiff⟩ := in_step_iff_short_host hform hstack hbuffer []
  have hread := hlong (hiff.mpr ⟨7, 80, 1, host, rfl, hhost⟩)
  rw [List.append_nil] at hread
  refine ⟨.openHost 7 80 1 host, stack, buffer, hform, _, hread, ?_⟩
  rw [List.append_nil, List.length_take, length_storeAll, hstack]
  rfl

/-- **What is read are the requests that were written.**  Whatever the stacks of
the writers and of the reader held, a pipe with requests that fit is read as
those requests, in their order, and nothing is left. -/
theorem requests_read_back {messages : List (Request × List Byte)}
    {buffers : List (List Byte)}
    (hmessages : ∀ m ∈ messages, m.1.WellFormed ∧ m.1.len ≠ 256 ∧ m.2.length = 512)
    (hbuffers : ∀ buffer ∈ buffers, buffer.length = 256)
    (hlength : buffers.length = messages.length) :
    ∃ answers, readRequests buffers
        (messages.flatMap fun m => m.1.packet m.2) = some (answers, []) ∧
      List.Forall₂ (fun m answer => ∃ behind, answer = some (m.1.pad behind)) messages answers := by
  induction messages generalizing buffers with
  | nil =>
    obtain rfl := List.length_eq_zero_iff.mp hlength
    exact ⟨[], rfl, .nil⟩
  | cons m later ih =>
    match buffers, hlength with
    | buffer :: rest, hlength =>
      obtain ⟨hform, hlen, hstack⟩ := hmessages m List.mem_cons_self
      obtain ⟨behind, hread⟩ := readRequest_packet hform hlen hstack
        (hbuffers buffer List.mem_cons_self)
        (later.flatMap fun m => m.1.packet m.2)
      obtain ⟨answers, hanswers, hall⟩ := ih (fun m hm => hmessages m (List.mem_cons_of_mem _ hm))
        (fun b hb => hbuffers b (List.mem_cons_of_mem _ hb))
        (Nat.succ.inj hlength)
      refine ⟨some (m.1.pad behind) :: answers, ?_, .cons ⟨behind, rfl⟩ hall⟩
      rw [List.flatMap_cons, readRequests, hread, Option.bind_some, hanswers]
      rfl

/-- A request to open and one to send to an address for datagrams. -/
theorem requests_read_back_two :
    ∃ stack buffer : List Byte, ∃ answers,
      readRequests [buffer, buffer] ((Request.openHost 7 80 1 [104, 105]).packet stack ++
          (Request.sendUdp 8 5 100 [1, 0, 80, 10, 0, 0, 7]).packet stack) = some (answers, []) ∧
      answers.length = 2 := by
  obtain ⟨stack, hstack⟩ : ∃ stack : List Byte, stack.length = 512 :=
    ⟨List.replicate 512 0, List.length_replicate⟩
  obtain ⟨buffer, hbuffer⟩ : ∃ buffer : List Byte, buffer.length = 256 :=
    ⟨List.replicate 256 0, List.length_replicate⟩
  have hopen : (Request.openHost 7 80 1 [104, 105]).WellFormed :=
    ⟨by decide, by decide⟩
  have hsend : (Request.sendUdp 8 5 100 [1, 0, 80, 10, 0, 0, 7]).WellFormed :=
    rfl
  have hmessages : ∀ m ∈ [(Request.openHost 7 80 1 [104, 105], stack),
      (Request.sendUdp 8 5 100 [1, 0, 80, 10, 0, 0, 7], stack)],
      m.1.WellFormed ∧ m.1.len ≠ 256 ∧ m.2.length = 512 := by
    rintro m hm
    rcases List.mem_pair.mp hm with rfl | rfl
    · exact ⟨hopen, by simp [Request.len, sizeofRequestOpen], hstack⟩
    · exact ⟨hsend, by simp [Request.len], hstack⟩
  have hbuffers : ∀ b ∈ [buffer, buffer], b.length = 256 := by
    simp [hbuffer]
  obtain ⟨answers, hread, hall⟩ := requests_read_back hmessages hbuffers rfl
  refine ⟨stack, buffer, answers, ?_, hall.length_eq.symm⟩
  rw [← hread, List.flatMap_cons, List.flatMap_cons, List.flatMap_nil, List.append_nil]

end Socket
end GameServer
