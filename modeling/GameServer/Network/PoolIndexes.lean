import GameServer.Network.LibeventServer

/-!
# The two indexes of the client pool

`ClientContextPool` finds a client by its sequence id when a reply is sent, and
by its descriptor when a callback runs.  `AddClient` writes both maps without
replacing an entry, and `RemoveClient` goes from the id to the client, asks it
for its descriptor and erases that.  The callbacks of the libevent server are
the only users.

After every callback, and after every further call of `CloseClient`, the two
maps hold the same clients, which are the live ones.
-/

namespace GameServer
namespace Network

open Lib

/-- A callback runs, or somebody calls `CloseClient`. -/
inductive ServerCall where
  | callback (a : LibeventAction)
  | closeClient (pstClientCtx : Nat)

namespace LibeventState

variable (api : BuffereventRead)

/-- One call.  `none` means that it is not possible, or that a deleted object
is used. -/
def callStep (s : LibeventState) : ServerCall → Option LibeventState
  | .callback a => s.step api a
  | .closeClient pstClientCtx => s.closeClient pstClientCtx

/-- A connection is accepted under a sequence id that is not in the pool. -/
def FreshSeq (s : LibeventState) : ServerCall → Prop
  | .callback a => s.DistinctSeq a
  | .closeClient _ => True

/-- A pointer is stored in the map of sequence ids. -/
def InSeqPool (s : LibeventState) (p : Nat) : Prop :=
  ∃ seq, s.clientPool.clientSeqPool seq = some p

/-- A pointer is stored in the map of descriptors. -/
def InFdPool (s : LibeventState) (p : Nat) : Prop :=
  ∃ fd, s.clientPool.clientFdPool fd = some p

/-- The two maps agree with each other and with the heap. -/
structure IndexesAgree (s : LibeventState) : Prop where
  /-- Both contain exactly the live clients. -/
  seqPool : ∀ p, s.InSeqPool p ↔ (s.clients p).isSome
  fdPool : ∀ p, s.InFdPool p ↔ (s.clients p).isSome
  /-- A client is found under its own keys. -/
  found : ∀ p client, s.clients p = some client →
    s.clientPool.getClient client.ulClientSeq = some p ∧
      s.clientPool.getClientByFd client.iClientFd = some p
  /-- It is found under no other key. -/
  ownSeq : ∀ seq p, s.clientPool.getClient seq = some p →
    ∃ client, s.clients p = some client ∧ client.ulClientSeq = seq
  ownFd : ∀ fd p, s.clientPool.getClientByFd fd = some p →
    ∃ client, s.clients p = some client ∧ client.iClientFd = fd
  /-- No two clients share a key. -/
  distinct : ∀ p q client other, s.clients p = some client →
    s.clients q = some other →
    client.ulClientSeq = other.ulClientSeq ∨
      client.iClientFd = other.iClientFd → p = q

/-- A consistent server has agreeing indexes. -/
theorem Inv.indexesAgree {s : LibeventState} (h : s.Inv) : s.IndexesAgree where
  seqPool := by
    intro p
    constructor
    · rintro ⟨seq, hseq⟩
      obtain ⟨client, hp, -⟩ := h.bySeq hseq
      exact Option.isSome_iff_exists.mpr ⟨client, hp⟩
    · intro hlive
      obtain ⟨client, hp⟩ := Option.isSome_iff_exists.mp hlive
      exact ⟨client.ulClientSeq, (h.registered hp).2⟩
  fdPool := by
    intro p
    constructor
    · rintro ⟨fd, hfd⟩
      obtain ⟨client, hp, -⟩ := h.byFd hfd
      exact Option.isSome_iff_exists.mpr ⟨client, hp⟩
    · intro hlive
      obtain ⟨client, hp⟩ := Option.isSome_iff_exists.mp hlive
      exact ⟨client.iClientFd, (h.registered hp).1⟩
  found := fun _ _ hp => (h.registered hp).symm
  ownSeq := fun _ _ hseq => h.bySeq hseq
  ownFd := fun _ _ hfd => h.byFd hfd
  distinct := by
    rintro p q client other hp hq (hseq | hfd)
    · exact h.eq_of_seq hp hq hseq
    · exact h.eq_of_fd hp hq hfd

theorem inv_callStep (s : LibeventState) (a : ServerCall) (s' : LibeventState)
    (h : s.Inv) (hfresh : s.FreshSeq a) (hstep : s.callStep api a = some s') :
    s'.Inv := by
  cases a with
  | callback a => exact inv_step api s a s' h hfresh hstep
  | closeClient p => exact inv_closeClient h hstep

/-- **The indexes agree.**  After every run of callbacks and of calls of
`CloseClient` in which connections are accepted under sequence ids that are not
in the pool, the two maps hold exactly the live clients, each under its own
keys. -/
theorem indexes_agree (actions : List ServerCall) (s : LibeventState)
    (hmeets : RunMeets (callStep api) FreshSeq fresh actions)
    (hrun : runSteps (callStep api) fresh actions = some s) :
    s.IndexesAgree :=
  (runSteps_invariant_of_meets (inv_callStep api) inv_fresh hmeets hrun).indexesAgree

/-- A connection is accepted on a descriptor that is still in the pool, then
both a new and an old client are closed. -/
theorem indexes_agree_same_fd :
    ∃ s, runSteps (callStep .ofList) fresh
        [.callback (.accept ⟨7, some 0, 0, 0, 1⟩), .callback (.accept ⟨8, some 1, 0, 1, 2⟩),
          .callback (.accept ⟨7, some 2, 0, 2, 3⟩), .closeClient 1] = some s ∧
      s.clientPool.getClientByFd 7 = some 2 ∧
      s.clientPool.getClient 1 = none ∧ s.IndexesAgree := by
  obtain ⟨s, hrun⟩ : ∃ s, runSteps (callStep .ofList) fresh
      [.callback (.accept ⟨7, some 0, 0, 0, 1⟩), .callback (.accept ⟨8, some 1, 0, 1, 2⟩),
        .callback (.accept ⟨7, some 2, 0, 2, 3⟩), .closeClient 1] = some s :=
    ⟨_, rfl⟩
  refine ⟨s, hrun, by cases hrun; rfl, by cases hrun; rfl, indexes_agree .ofList _ s ?_ hrun⟩
  refine ⟨rfl, fun s₁ h₁ => ⟨?_, fun s₂ h₂ => ⟨?_, fun s₃ _ =>
    ⟨trivial, fun _ _ => trivial⟩⟩⟩⟩
  · cases h₁
    rfl
  · cases h₁
    cases h₂
    rfl

end LibeventState

end Network
end GameServer
