import GameServer.Network.Context

/-!
# Reading from a libevent connection

`LibeventClientCtx::PacketBufferRead` of `libevent_ctx.h`.  The library's
`bufferevent_read` is a parameter of the model: it hands out the oldest bytes
of the connection's input buffer, as many as are asked for or as there are, and
drains what it hands out.
-/

namespace GameServer
namespace Network

/-- `bufferevent_read`, with the behaviour its documentation promises.  `read
input size` are the bytes stored at the destination and the input left. -/
structure BuffereventRead where
  read : List Byte → Nat → List Byte × List Byte
  read_append : ∀ input size, (read input size).1 ++ (read input size).2 = input
  read_length : ∀ input size,
    (read input size).1.length = min size input.length

namespace BuffereventRead

/-- The two laws leave no choice. -/
theorem read_eq (api : BuffereventRead) (input : List Byte) (size : Nat) :
    api.read input size = (input.take size, input.drop size) := by
  have happend := api.read_append input size
  have hlength := api.read_length input size
  have hfst : (api.read input size).1 = input.take size := by
    calc (api.read input size).1 = ((api.read input size).1 ++ (api.read input size).2).take
            (api.read input size).1.length := List.take_left.symm
      _ = input.take (min size input.length) := by rw [happend, hlength]
      _ = input.take size := by rw [List.take_eq_take_iff]; omega
  have hsnd : (api.read input size).2 = input.drop size := by
    have hsplit : input.take size ++ (api.read input size).2 =
        input.take size ++ input.drop size := by
      rw [List.take_append_drop, ← hfst]
      exact happend
    exact List.append_cancel_left hsplit
  exact Prod.ext hfst hsnd

/-- A list buffer behaves as documented. -/
def ofList : BuffereventRead where
  read := fun input size => (input.take size, input.drop size)
  read_append := fun input size => List.take_append_drop size input
  read_length := fun _ _ => List.length_take

end BuffereventRead

/-- The outcome of `PacketBufferRead`: the client's buffer, the input left in
the bufferevent and the value returned. -/
structure PacketBufferReadResult where
  client : ClientContextBuffer
  input : List Byte
  iReadLen : Int

/-- `LibeventClientCtx::PacketBufferRead`. -/
def packetBufferRead (api : BuffereventRead) (client : ClientContextBuffer)
    (input : List Byte) : PacketBufferReadResult :=
  let iBufferRecv : Int := contextBufferCapacity - client.iBufferSize
  if iBufferRecv ≤ 0 then
    ⟨client, input, -1⟩
  else
    let read := api.read input iBufferRecv.toNat
    ⟨client.append read.1, read.2, read.1.length⟩

section PacketBufferRead

variable (api : BuffereventRead) {client : ClientContextBuffer}

/-- A full buffer refuses to read. -/
theorem packetBufferRead_of_full (h : client.freeSpace = 0) (input : List Byte) :
    packetBufferRead api client input = ⟨client, input, -1⟩ := by
  unfold ClientContextBuffer.freeSpace at h
  unfold packetBufferRead
  rw [if_pos (by omega)]

/-- Otherwise as much of the input as fits is moved behind the content. -/
theorem packetBufferRead_of_free (h : client.freeSpace ≠ 0) (input : List Byte) :
    packetBufferRead api client input = ⟨client.append (input.take client.freeSpace),
        input.drop client.freeSpace,
        (input.take client.freeSpace).length⟩ := by
  have hfree : ¬ (contextBufferCapacity : Int) - client.iBufferSize ≤ 0 := by
    unfold ClientContextBuffer.freeSpace at h
    omega
  unfold packetBufferRead
  rw [if_neg hfree]
  dsimp only
  rw [api.read_eq]
  rfl

/-- A new client takes over the whole input. -/
theorem packetBufferRead_construct (ulClientSeq : UInt64) (iClientFd : Int)
    {input : List Byte} (h : input.length ≤ contextBufferCapacity) :
    packetBufferRead api (.construct ulClientSeq iClientFd) input =
      ⟨.ofContent ulClientSeq iClientFd input h, [], input.length⟩ := by
  have hspace :=
    ClientContextBuffer.freeSpace_construct ulClientSeq iClientFd
  have hfree : (ClientContextBuffer.construct ulClientSeq iClientFd).freeSpace ≠ 0 := by
    rw [hspace]
    decide
  rw [packetBufferRead_of_free api hfree, hspace, List.take_of_length_le h,
    List.drop_of_length_le h, ClientContextBuffer.append_construct]

theorem content_packetBufferRead (h : client.InBounds) (input : List Byte) :
    (packetBufferRead api client input).client.content =
      client.content ++ input.take client.freeSpace := by
  by_cases hfull : client.freeSpace = 0
  · rw [packetBufferRead_of_full api hfull, hfull, List.take_zero, List.append_nil]
  · rw [packetBufferRead_of_free api hfull]
    exact ClientContextBuffer.content_append h (List.length_take_le _ _)

theorem inBounds_packetBufferRead (h : client.InBounds) (input : List Byte) :
    (packetBufferRead api client input).client.InBounds := by
  by_cases hfull : client.freeSpace = 0
  · rw [packetBufferRead_of_full api hfull]
    exact h
  · rw [packetBufferRead_of_free api hfull]
    exact ClientContextBuffer.inBounds_append h (List.length_take_le _ _)

theorem input_packetBufferRead (input : List Byte) :
    (packetBufferRead api client input).input =
      input.drop client.freeSpace := by
  by_cases hfull : client.freeSpace = 0
  · rw [packetBufferRead_of_full api hfull, hfull, List.drop_zero]
  · rw [packetBufferRead_of_free api hfull]

/-- The value returned is positive exactly when bytes were moved. -/
theorem iReadLen_packetBufferRead_pos_iff (input : List Byte) :
    0 < (packetBufferRead api client input).iReadLen ↔ input.take client.freeSpace ≠ [] := by
  by_cases hfull : client.freeSpace = 0
  · rw [packetBufferRead_of_full api hfull, hfull]
    simp
  · rw [packetBufferRead_of_free api hfull, ← List.length_pos_iff_ne_nil]
    exact Int.natCast_pos

theorem ownedBy_packetBufferRead {ulClientSeq : UInt64} {iClientFd : Int}
    (h : client.OwnedBy ulClientSeq iClientFd) (input : List Byte) :
    (packetBufferRead api client input).client.OwnedBy ulClientSeq
      iClientFd := by
  unfold packetBufferRead
  dsimp only
  split
  · exact h
  · exact h

end PacketBufferRead

end Network
end GameServer
