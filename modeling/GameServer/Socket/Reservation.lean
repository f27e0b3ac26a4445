import GameServer.Lib.Ownership
import GameServer.Lib.Transition
import GameServer.Network.SocketTypes

/-!
# Reserving a slot

`reserve_id` is called by every thread that asks for a socket, and by the thread
of the socket server when it accepts a connection.  There is no lock: a thread
counts `alloc_id` up, looks at the slot of the id it got, and takes the slot by a
compare-and-swap of its type.  The id is stored afterwards.

`Reserving.step` performs one atomic access of one thread at a time, among
them the accesses of the thread that serves the sockets.  A slot that is reserved
is a block of memory in the sense of `Ownership`: it is held by the thread that
swapped its type until that is passed on in a request, and by the request until
the slot is made a socket.

When `sp_add` fails, `open_socket` and `add_udp_socket` free the slot twice: once
in `new_fd`, and once more behind it.  Another thread can take the slot between
the two stores, and then loses it.  `Reserving.slot_held_once_iff` says that
nothing else goes wrong.
-/

namespace GameServer
namespace Socket

open Lib Network

/-- The next access of a thread in `reserve_id`, with its variables `i` and
`id`. -/
inductive ReserveAt where
  | outside
  /-- `__sync_add_and_fetch`. -/
  | add (i : Nat)
  /-- `__sync_and_and_fetch`. -/
  | mask (i : Nat)
  /-- The first look at the type. -/
  | check (i : Nat) (id : Int)
  /-- `__sync_bool_compare_and_swap`. -/
  | swap (i : Nat) (id : Int)
  | storeId (id : Int)
  | storeFd (id : Int)
  | returned (result : Option Int)
deriving Repr, DecidableEq

/-- The memory that the threads share, where each of them is, the ids of the
requests for a new socket in the pipe, and the id whose slot the thread of the
sockets is about to free once more. -/
structure Reserving (τ : Type*) where
  allocId : Int
  type : Nat → SocketType
  id : Nat → Int
  fd : Nat → Int
  pc : τ → ReserveAt
  pipe : List Int
  again : Option Int

/-- `__sync_add_and_fetch(&alloc_id, 1)` on an `int`. -/
def addAndFetch (x : Int) : Int := if x + 1 < 2 ^ 31 then x + 1 else -2 ^ 31

/-- `__sync_and_and_fetch(&alloc_id, 0x7fffffff)`. -/
def andAndFetch (x : Int) : Int := x % 2 ^ 31

/-- The end of a round of the loop. -/
def nextRound (i : Nat) : ReserveAt :=
  if i + 1 < maxSocket then .add (i + 1) else .returned none

/-- What becomes of a request for a new socket. -/
inductive TakeOutcome where
  /-- `new_fd` succeeds, and the slot gets the type. -/
  | made (type : SocketType)
  /-- `open_socket` has nothing to connect to. -/
  | refused
  /-- `sp_add` fails in `new_fd`, called by a function that frees the slot once
  more or by `bind_socket`. -/
  | notAdded (twice : Bool)
deriving Repr, DecidableEq

/-- What the threads do. -/
inductive ReserveAction (τ : Type*) where
  /-- A call of `reserve_id`. -/
  | call (t : τ)
  /-- The next access of a thread. -/
  | run (t : τ)
  /-- The id is written to the pipe in a request. -/
  | request (t : τ)
  /-- The caller gives up. -/
  | giveUp (t : τ)
  /-- `report_accept` makes the slot a socket at once. -/
  | accept (t : τ) (fd : Int)
  /-- The request for a new socket is read. -/
  | take (fd : Int) (outcome : TakeOutcome)
  /-- The slot is freed once more. -/
  | freeAgain
  /-- A socket is closed. -/
  | close (i : Nat)

namespace Reserving

variable {τ : Type*} [DecidableEq τ] {s s' : Reserving τ} {t : τ}
  {next : ReserveAt} {id : Int} {a : ReserveAction τ}

/-- The state after `socket_server_create`; ids and descriptors are what happens
to be in memory. -/
def create (τ : Type*) (id fd : Nat → Int) : Reserving τ where
  allocId := 0
  type := fun _ => .invalid
  id := id
  fd := fd
  pc := fun _ => .outside
  pipe := []
  again := none

def goto (s : Reserving τ) (t : τ) (next : ReserveAt) : Reserving τ :=
  { s with pc := Function.update s.pc t next }

/-- `new_fd` for a descriptor, and the type that is set afterwards. -/
def newFd (s : Reserving τ) (id fd : Int) (type : SocketType) :
    Option (Reserving τ) :=
  if s.type (hashId id) = .reserve then
    some { s with
      type := Function.update s.type (hashId id) type
      id := Function.update s.id (hashId id) id
      fd := Function.update s.fd (hashId id) fd }
  else
    none

/-- The slot of an id is free. -/
def free (s : Reserving τ) (id : Int) : Reserving τ :=
  { s with type := Function.update s.type (hashId id) .invalid }

/-- A request for a new socket on the slot of its id. -/
def takeRequest (s : Reserving τ) (id fd : Int) :
    TakeOutcome → Option (Reserving τ)
  | .made type =>
    if type = .invalid ∨ type = .reserve then none else s.newFd id fd type
  | .refused => some (s.free id)
  | .notAdded twice =>
    if s.type (hashId id) = .reserve then
      some { s.free id with again := if twice then some id else none }
    else
      none

/-- The next access of a thread in `reserve_id`. -/
def access (s : Reserving τ) (t : τ) : Option (Reserving τ) :=
  match s.pc t with
  | .add i =>
    let id := addAndFetch s.allocId
    some ({ s with allocId := id }.goto t
      (if id < 0 then .mask i else .check i id))
  | .mask i =>
    let id := andAndFetch s.allocId
    some ({ s with allocId := id }.goto t (.check i id))
  | .check i id =>
    some (s.goto t
      (if s.type (hashId id) = .invalid then .swap i id else nextRound i))
  | .swap i id =>
    if s.type (hashId id) = .invalid then
      some ({ s with type := Function.update s.type (hashId id) .reserve }.goto
        t (.storeId id))
    else
      -- retry
      some (s.goto t (.add i))
  | .storeId id =>
    some ({ s with id := Function.update s.id (hashId id) id }.goto t
      (.storeFd id))
  | .storeFd id =>
    some ({ s with fd := Function.update s.fd (hashId id) (-1) }.goto t
      (.returned (some id)))
  | .outside | .returned _ => none

def step (s : Reserving τ) : ReserveAction τ → Option (Reserving τ)
  | .call t => if s.pc t = .outside then some (s.goto t (.add 0)) else none
  | .run t => s.access t
  | .request t =>
    match s.pc t with
    | .returned (some id) =>
      some ({ s with pipe := s.pipe ++ [id] }.goto t .outside)
    | _ => none
  | .giveUp t =>
    if s.pc t = .returned none then some (s.goto t .outside) else none
  | .accept t fd =>
    match s.pc t with
    -- the thread of the sockets
    | .returned (some id) =>
      if s.again = none then
        (s.newFd id fd .paccept).map (·.goto t .outside)
      else
        none
    | _ => none
  | .take fd outcome =>
    match s.pipe with
    | id :: rest =>
      if s.again = none then
        { s with pipe := rest }.takeRequest id fd outcome
      else
        none
    | [] => none
  | .freeAgain => s.again.map fun id => { s.free id with again := none }
  | .close i =>
    if s.type i = .invalid ∨ s.type i = .reserve ∨ s.again ≠ none then none
    else some { s with type := Function.update s.type i .invalid }

/-! ## Holders of slots -/

/-- The id that a thread has taken the slot of. -/
def taken : ReserveAt → Option Int
  | .storeId id | .storeFd id | .returned (some id) => some id
  | _ => none

/-- The slot that a thread, or a request at a place in the pipe, holds. -/
def holds (s : Reserving τ) : τ ⊕ Nat → Option Nat
  | .inl t => (taken (s.pc t)).map hashId
  | .inr k => s.pipe[k]?.map hashId

/-- A slot that is reserved, with what is stored in it. -/
def store (s : Reserving τ) (i : Nat) : Option (Int × Int) :=
  if s.type i = .reserve then some (s.id i, s.fd i) else none

/-- What a thread has stored in its slot. -/
def stored : ReserveAt → Int × Int → Prop
  | .storeFd id, block => block.1 = id
  | .returned (some id), block => block = (id, -1)
  | _, _ => True

/-- What a holder relies on. -/
def fits (s : Reserving τ) : τ ⊕ Nat → Nat → Int × Int → Prop
  | .inl t, _, block => stored (s.pc t) block
  | .inr k, _, block => s.pipe[k]? = some block.1 ∧ block.2 = -1

/-- The id that a thread works with. -/
def known : ReserveAt → Option Int
  | .check _ id | .swap _ id => some id
  | pc => taken pc

/-- The ids that threads work with are not negative. -/
def InRange (s : Reserving τ) : Prop :=
  (-2 ^ 31 ≤ s.allocId ∧ s.allocId < 2 ^ 31) ∧
    ∀ t id, known (s.pc t) = some id → 0 ≤ id ∧ id < 2 ^ 31

/-- No slot has two holders, and every holder finds it reserved.  A slot that is
about to be freed once more is free, or somebody has taken it. -/
structure Inv (s : Reserving τ) : Prop where
  sound : Sound s.holds s.store s.fits
  range : s.InRange
  again : ∀ id, s.again = some id → s.type (hashId id) ≠ .invalid →
    ∃ o, s.holds o = some (hashId id)

@[simp] theorem taken_nextRound (i : Nat) : taken (nextRound i) = none := by
  unfold nextRound
  split_ifs <;> rfl

@[simp] theorem known_nextRound (i : Nat) : known (nextRound i) = none := by
  unfold nextRound
  split_ifs <;> rfl

/-- A thread goes on from where it has no slot to where it has none. -/
theorem sound_of_pc (h : Sound s.holds s.store s.fits)
    (hstore : s'.store = s.store) (hpipe : s'.pipe = s.pipe)
    (hpc : s'.pc = Function.update s.pc t next) (hnext : taken next = none) :
    Sound s'.holds s'.store s'.fits := by
  refine h.keep ?_
  rintro (t' | k) i ho
  · rw [holds, hpc] at ho
    by_cases ht : t' = t
    · rw [ht, Function.update_self, hnext] at ho
      cases ho
    · rw [Function.update_of_ne ht] at ho
      refine ⟨ho, by rw [hstore], fun block hb => ?_⟩
      rw [fits, hpc, Function.update_of_ne ht]
      exact hb
  · rw [holds, hpipe] at ho
    refine ⟨ho, by rw [hstore], fun block hb => ?_⟩
    rw [fits, hpipe]
    exact hb

/-- A thread that has a slot, or gets one that was free, writes it. -/
theorem sound_of_write (h : Sound s.holds s.store s.fits)
    (hpipe : s'.pipe = s.pipe) (hpc : s'.pc = Function.update s.pc t next)
    (id : Int) (hnext : taken next = some id)
    (hbefore : s.store (hashId id) = none ∨ taken (s.pc t) = some id)
    (block : Int × Int) (hblock : s'.store (hashId id) = some block)
    (hstored : stored next block)
    (hother : ∀ i, i ≠ hashId id → s'.store i = s.store i) :
    Sound s'.holds s'.store s'.fits := by
  have hb : ∀ i, s'.holds (.inl t) = some i →
      i = hashId id ∧ ∃ block, s'.store (hashId id) = some block ∧
        s'.fits (.inl t) (hashId id) block := by
    intro i ho
    rw [holds, hpc, Function.update_self, hnext] at ho
    cases ho
    refine ⟨rfl, block, hblock, ?_⟩
    rw [fits, hpc, Function.update_self]
    exact hstored
  have hothers : ∀ o i, o ≠ .inl t → s'.holds o = some i →
      s.holds o = some i ∧ ∀ block, s.fits o i block → s'.fits o i block := by
    rintro (t' | k) i ho hi
    · have ht : t' ≠ t := fun ht => ho (ht ▸ rfl)
      rw [holds, hpc, Function.update_of_ne ht] at hi
      refine ⟨hi, fun block hb => ?_⟩
      rw [fits, hpc, Function.update_of_ne ht]
      exact hb
    · rw [holds, hpipe] at hi
      refine ⟨hi, fun block hb => ?_⟩
      rw [fits, hpipe]
      exact hb
  rcases hbefore with hfree | htaken
  · exact h.fresh hfree hb hothers hother
  · have ha : s.holds (.inl t) = some (hashId id) := by
      rw [holds, htaken]
      rfl
    exact h.move ha hb (fun o i ho hi => ⟨ho, hothers o i ho hi⟩) hother

omit [DecidableEq τ] in
/-- Slots that are not held may change. -/
theorem sound_of_free (h : Sound s.holds s.store s.fits)
    (hpipe : s'.pipe = s.pipe) (hpc : s'.pc = s.pc)
    (hstore : ∀ i, s.store i ≠ none → s'.store i = s.store i) :
    Sound s'.holds s'.store s'.fits := by
  refine h.keep ?_
  intro o i ho
  have hholds : s'.holds = s.holds := by
    funext o
    cases o <;> simp only [holds, hpc, hpipe]
  rw [hholds] at ho
  obtain ⟨block, hblock, -⟩ := h.content o i ho
  refine ⟨ho, hstore i (by simp [hblock]), fun block hb => ?_⟩
  cases o <;> simpa only [fits, hpc, hpipe] using hb

omit [DecidableEq τ] in
/-- A slot that is held is reserved. -/
theorem type_of_holds (h : Sound s.holds s.store s.fits) {o : τ ⊕ Nat} {i : Nat}
    (ho : s.holds o = some i) : s.type i = .reserve := by
  obtain ⟨block, hblock, -⟩ := h.content o i ho
  rw [store] at hblock
  split_ifs at hblock with hreserve
  exact hreserve

omit [DecidableEq τ] in
theorem type_of_taken (h : Sound s.holds s.store s.fits)
    (htaken : taken (s.pc t) = some id) : s.type (hashId id) = .reserve := by
  refine type_of_holds (o := .inl t) h ?_
  rw [holds, htaken]
  rfl

/-- One access of a thread. -/
theorem sound_access (h : Sound s.holds s.store s.fits)
    (hstep : s.access t = some s') : Sound s'.holds s'.store s'.fits := by
  unfold access at hstep
  split at hstep
  · next i hpc =>
    cases hstep
    refine sound_of_pc (s := s) (t := t) h rfl rfl rfl ?_
    split_ifs <;> rfl
  · cases hstep
    exact sound_of_pc (s := s) (t := t) h rfl rfl rfl rfl
  · cases hstep
    refine sound_of_pc (s := s) (t := t) h rfl rfl rfl ?_
    split_ifs
    · rfl
    · exact taken_nextRound _
  · next i id hpc =>
    split_ifs at hstep with hfree
    · -- the slot was free, so nobody held it
      cases hstep
      refine sound_of_write (s := s) (t := t) h rfl rfl id rfl (.inl ?_)
        (s.id (hashId id), s.fd (hashId id)) ?_ trivial ?_
      · simp [store, hfree]
      · simp [store, goto]
      · intro i hi
        simp [store, goto, Function.update_of_ne hi]
    · cases hstep
      exact sound_of_pc (s := s) (t := t) h rfl rfl rfl rfl
  · next id hpc =>
    have htaken : taken (s.pc t) = some id := by rw [hpc, taken]
    have hreserve := type_of_taken h htaken
    cases hstep
    refine sound_of_write (s := s) (t := t) h rfl rfl id rfl (.inr htaken)
      (id, s.fd (hashId id)) ?_ rfl ?_
    · simp [store, goto, hreserve]
    · intro i hi
      simp [store, goto, Function.update_of_ne hi]
  · next id hpc =>
    have htaken : taken (s.pc t) = some id := by rw [hpc, taken]
    have hreserve := type_of_taken h htaken
    -- the id was stored by the access before
    have hid : s.id (hashId id) = id := by
      have hfits := h.fits_of_store (o := .inl t) (by rw [holds, htaken]; rfl)
        (by rw [store, if_pos hreserve])
      rw [fits, hpc] at hfits
      exact hfits
    cases hstep
    refine sound_of_write (s := s) (t := t) h rfl rfl id rfl (.inr htaken) (id, -1) ?_ rfl ?_
    · simp [store, goto, hreserve, hid]
    · intro i hi
      simp [store, goto, Function.update_of_ne hi]
  · cases hstep
  · cases hstep

/-- The id goes from the thread to the end of the pipe. -/
theorem sound_request (h : Sound s.holds s.store s.fits) (hpc : s.pc t = .returned (some id)) :
    let s' := { s with pipe := s.pipe ++ [id] }.goto t .outside
    Sound s'.holds s'.store s'.fits := by
  intro s'
  have hholds : ∀ t', s'.holds (.inl t') =
      if t' = t then none else s.holds (.inl t') := by
    intro t'
    simp only [s', holds, goto, Function.update_apply]
    split_ifs <;> rfl
  have hholdsPipe : ∀ k, s'.holds (.inr k) =
      if k = s.pipe.length then some (hashId id) else s.holds (.inr k) := by
    intro k
    simp only [s', holds, goto]
    split_ifs with hk
    · simp [hk]
    · rw [List.getElem?_append]
      split_ifs
      · rfl
      · rw [List.getElem?_eq_none (by simp; omega), List.getElem?_eq_none (by omega)]
  let f : τ ⊕ Nat → τ ⊕ Nat := fun o =>
    if o = .inr s.pipe.length then .inl t else o
  refine h.reindex f ?_ ?_
  · rintro (t' | k) i ho
    · rw [hholds] at ho
      split_ifs at ho with ht
      refine ⟨by simpa [f] using ho, rfl, fun block hb => ?_⟩
      simp only [f, reduceCtorEq, if_false] at hb
      simp only [s', fits, goto, Function.update_of_ne ht]
      exact hb
    · rw [hholdsPipe] at ho
      split_ifs at ho with hk
      · cases ho
        subst hk
        refine ⟨?_, rfl, fun block hb => ?_⟩
        · simp only [f, if_true, holds, hpc, taken]
          rfl
        · simp only [f, if_true, fits, hpc, stored] at hb
          simp only [s', fits, goto, hb]
          simp
      · have hne : (Sum.inr k : τ ⊕ Nat) ≠ .inr s.pipe.length := by
          simpa using hk
        simp only [f, if_neg hne]
        refine ⟨ho, rfl, fun block hb => ?_⟩
        refine ⟨?_, hb.2⟩
        have hlt : k < s.pipe.length := by
          by_contra hge
          have hnone := hb.1
          rw [List.getElem?_eq_none (by omega)] at hnone
          cases hnone
        show (s.pipe ++ [id])[k]? = _
        rw [List.getElem?_append_left hlt]
        exact hb.1
  · intro o o' i ho ho' heq
    have hne : ∀ o i, s'.holds o = some i → o ≠ .inl t := by
      rintro o i ho rfl
      rw [hholds, if_pos rfl] at ho
      cases ho
    simp only [f] at heq
    split_ifs at heq with hlast hlast'
    · rw [hlast, hlast']
    · exact (hne o' i ho' heq.symm).elim
    · exact (hne o i ho heq).elim
    · exact heq

omit [DecidableEq τ] in
/-- `new_fd` writes one slot. -/
theorem newFd_eq_some {fd : Int} {type : SocketType}
    (h : s.newFd id fd type = some s') :
    s'.pc = s.pc ∧ s'.pipe = s.pipe ∧ s'.allocId = s.allocId ∧
      s'.again = s.again ∧ ∀ i, i ≠ hashId id → s'.store i = s.store i := by
  rw [newFd] at h
  split_ifs at h
  cases h
  refine ⟨rfl, rfl, rfl, rfl, fun i hi => ?_⟩
  simp only [store, Function.update_of_ne hi]

omit [DecidableEq τ] in
/-- So does a request for a new socket. -/
theorem takeRequest_eq_some {fd : Int} {outcome : TakeOutcome}
    (h : s.takeRequest id fd outcome = some s') :
    s'.pc = s.pc ∧ s'.pipe = s.pipe ∧ s'.allocId = s.allocId ∧
      (∀ i, i ≠ hashId id → s'.store i = s.store i) ∧
      (s'.again = s.again ∨ s'.type (hashId id) = .invalid ∧
        (s'.again = some id ∨ s'.again = none)) := by
  have hfree : ∀ i, i ≠ hashId id → (s.free id).store i = s.store i := by
    intro i hi
    simp only [store, free, Function.update_of_ne hi]
  cases outcome with
  | made type =>
    rw [takeRequest] at h
    split_ifs at h
    obtain ⟨hpc, hpipe, halloc, hagain, hstore⟩ := newFd_eq_some h
    exact ⟨hpc, hpipe, halloc, hstore, .inl hagain⟩
  | refused =>
    cases h
    exact ⟨rfl, rfl, rfl, hfree, .inl rfl⟩
  | notAdded twice =>
    rw [takeRequest] at h
    split_ifs at h
    · cases h
      exact ⟨rfl, rfl, rfl, hfree, .inr ⟨Function.update_self .., .inl rfl⟩⟩
    · cases h
      exact ⟨rfl, rfl, rfl, hfree, .inr ⟨Function.update_self .., .inr rfl⟩⟩

/-- The thread makes its slot a socket. -/
theorem sound_accept {fd : Int} {type : SocketType}
    (h : Sound s.holds s.store s.fits) (hpc : s.pc t = .returned (some id))
    (hnew : s.newFd id fd type = some s') :
    Sound (s'.goto t .outside).holds (s'.goto t .outside).store (s'.goto t .outside).fits := by
  obtain ⟨hsame, hpipe, -, -, hstore⟩ := newFd_eq_some hnew
  have hmine : s.holds (.inl t) = some (hashId id) := by
    rw [holds, hpc]
    rfl
  -- another holder has another slot
  have hkeep : ∀ o i, o ≠ .inl t → s.holds o = some i → s'.store i = s.store i := by
    intro o i ho hi
    refine hstore i ?_
    rintro rfl
    exact ho (h.exclusive hi hmine)
  refine h.keep ?_
  rintro (t' | k) i ho
  · have ht : t' ≠ t := by
      rintro rfl
      simp [holds, goto, taken] at ho
    simp only [holds, goto, Function.update_of_ne ht, hsame] at ho
    refine ⟨ho, hkeep (.inl t') i (by simpa using ht) ho, fun block hb => ?_⟩
    simp only [fits, goto, Function.update_of_ne ht, hsame]
    exact hb
  · simp only [holds, goto, hpipe] at ho
    refine ⟨ho, hkeep (.inr k) i (by simp) ho, fun block hb => ?_⟩
    simp only [fits, goto, hpipe]
    exact hb

omit [DecidableEq τ] in
/-- The first request of the pipe gives up its slot. -/
theorem sound_take {fd : Int} {rest : List Int} {outcome : TakeOutcome}
    (h : Sound s.holds s.store s.fits) (hpipe : s.pipe = id :: rest)
    (htake : { s with pipe := rest }.takeRequest id fd outcome = some s') :
    Sound s'.holds s'.store s'.fits := by
  obtain ⟨hpc, hrest, -, hstore, -⟩ := takeRequest_eq_some htake
  have hfirst : s.holds (.inr 0) = some (hashId id) := by
    rw [holds, hpipe]
    rfl
  let f : τ ⊕ Nat → τ ⊕ Nat := Sum.map (fun t => t) (· + 1)
  have hholds : ∀ o, s'.holds o = s.holds (f o) := by
    rintro (t | k)
    · simp only [f, holds, hpc, Sum.map_inl]
    · simp only [f, holds, hrest, hpipe, Sum.map_inr, List.getElem?_cons_succ]
  refine h.reindex f ?_ ?_
  · intro o i ho
    rw [hholds] at ho
    refine ⟨ho, hstore i ?_, ?_⟩
    · rintro rfl
      have heq := h.exclusive ho hfirst
      cases o <;> simp [f] at heq
    · intro block hb
      cases o with
      | inl t => simpa only [f, fits, hpc, Sum.map_inl] using hb
      | inr k =>
        simpa only [f, fits, hrest, hpipe, Sum.map_inr,
          List.getElem?_cons_succ] using hb
  · intro o o' i _ _ heq
    cases o <;> cases o' <;> simp_all [f]

/-! ## Steps and runs -/

section Free

variable {i : Nat}

omit [DecidableEq τ] in
theorem update_free (hfree : s.type i = .invalid) (j : Nat) :
    Function.update s.type j .invalid i = .invalid := by
  by_cases hij : i = j
  · rw [hij, Function.update_self]
  · rw [Function.update_of_ne hij, hfree]

omit [DecidableEq τ] in
theorem newFd_free {fd : Int} {type : SocketType} (hfree : s.type i = .invalid)
    (hnew : s.newFd id fd type = some s') : s'.type i = .invalid := by
  rw [newFd] at hnew
  split_ifs at hnew with hreserve
  cases hnew
  have hne : i ≠ hashId id := by
    rintro rfl
    rw [hreserve] at hfree
    cases hfree
  show Function.update _ _ _ i = _
  rw [Function.update_of_ne hne, hfree]

omit [DecidableEq τ] in
theorem takeRequest_free {fd : Int} {outcome : TakeOutcome}
    (hfree : s.type i = .invalid)
    (htake : s.takeRequest id fd outcome = some s') : s'.type i = .invalid := by
  cases outcome with
  | made type =>
    rw [takeRequest] at htake
    split_ifs at htake
    exact newFd_free hfree htake
  | refused =>
    cases htake
    exact update_free hfree _
  | notAdded twice =>
    rw [takeRequest] at htake
    split_ifs at htake
    · cases htake
      exact update_free hfree _
    · cases htake
      exact update_free hfree _

/-- The accesses of a thread in `reserve_id`. -/
theorem swap_of_access (hfree : s.type i = .invalid)
    (haccess : s.access t = some s') (htaken : s'.type i ≠ .invalid) :
    ∃ round id, s.pc t = .swap round id ∧ hashId id = i ∧
      s'.type i = .reserve ∧ s'.pc t = .storeId id := by
  unfold access at haccess
  split at haccess
  case h_4 round id hpc =>
    split_ifs at haccess with hinvalid
    · cases haccess
      -- the type of no other slot is stored to
      have hslot : i = hashId id := by
        by_contra hne
        refine htaken ?_
        show Function.update _ _ _ i = _
        rw [Function.update_of_ne hne, hfree]
      refine ⟨round, id, hpc, hslot.symm, ?_, ?_⟩
      · show Function.update _ _ _ i = _
        rw [hslot, Function.update_self]
      · exact Function.update_self ..
    · cases haccess
      exact absurd hfree htaken
  all_goals
    cases haccess <;> exact absurd hfree htaken

/-- Only a compare-and-swap ends that a slot is free. -/
theorem swap_of_step (hfree : s.type i = .invalid)
    (hstep : s.step a = some s') (htaken : s'.type i ≠ .invalid) :
    ∃ t round id, a = .run t ∧ s.pc t = .swap round id ∧ hashId id = i ∧
      s'.type i = .reserve ∧ s'.pc t = .storeId id := by
  cases a with
  | run t =>
    obtain ⟨round, id, hswap⟩ := swap_of_access hfree hstep htaken
    exact ⟨t, round, id, rfl, hswap⟩
  | call t | giveUp t =>
    rw [Reserving.step] at hstep
    split_ifs at hstep
    cases hstep
    exact absurd hfree htaken
  | request t =>
    rw [Reserving.step] at hstep
    split at hstep
    · cases hstep
      exact absurd hfree htaken
    · cases hstep
  | accept t fd =>
    rw [Reserving.step] at hstep
    split at hstep
    · split_ifs at hstep
      obtain ⟨m, hm, rfl⟩ := Option.map_eq_some_iff.mp hstep
      exact absurd (newFd_free hfree hm) htaken
    · cases hstep
  | take fd outcome =>
    rw [Reserving.step.eq_def] at hstep
    dsimp only at hstep
    split at hstep
    · next id rest hpipe =>
      split_ifs at hstep
      exact absurd (takeRequest_free (s := { s with pipe := rest }) hfree hstep) htaken
    · cases hstep
  | freeAgain =>
    obtain ⟨id, -, rfl⟩ := Option.map_eq_some_iff.mp hstep
    exact absurd (update_free hfree _) htaken
  | close j =>
    rw [Reserving.step] at hstep
    split_ifs at hstep
    cases hstep
    exact absurd (update_free hfree j) htaken

end Free

theorem inRange_goto (h : s.InRange) (halloc : -2 ^ 31 ≤ s'.allocId ∧ s'.allocId < 2 ^ 31)
    (hpc : s'.pc = Function.update s.pc t next)
    (hnext : ∀ id, known next = some id → 0 ≤ id ∧ id < 2 ^ 31) :
    s'.InRange := by
  refine ⟨halloc, fun t' id hid => ?_⟩
  rw [hpc] at hid
  by_cases ht : t' = t
  · rw [ht, Function.update_self] at hid
    exact hnext id hid
  · rw [Function.update_of_ne ht] at hid
    exact h.2 t' id hid

theorem inRange_access (h : s.InRange) (hstep : s.access t = some s') : s'.InRange := by
  have hsame : ∀ id, known (s.pc t) = some id → 0 ≤ id ∧ id < 2 ^ 31 :=
    h.2 t
  obtain ⟨hlow, hhigh⟩ := h.1
  unfold access at hstep
  split at hstep
  · cases hstep
    have halloc : -2 ^ 31 ≤ addAndFetch s.allocId ∧ addAndFetch s.allocId < 2 ^ 31 := by
      unfold addAndFetch
      split_ifs <;> omega
    refine inRange_goto (s := s) (t := t) h halloc rfl ?_
    intro id hid
    split_ifs at hid with hneg
    · cases hid
    · cases hid
      omega
  · cases hstep
    have halloc : 0 ≤ andAndFetch s.allocId ∧ andAndFetch s.allocId < 2 ^ 31 := by
      unfold andAndFetch
      omega
    refine inRange_goto (s := s) (t := t) h
      ⟨by exact le_trans (by decide) halloc.1, halloc.2⟩ rfl ?_
    rintro id ⟨⟩
    exact halloc
  · next i id hpc =>
    cases hstep
    refine inRange_goto (s := s) (t := t) h h.1 rfl ?_
    intro id' hid
    split_ifs at hid
    · cases hid
      exact hsame id (by rw [hpc, known])
    · rw [known_nextRound] at hid
      cases hid
  · next i id hpc =>
    split_ifs at hstep
    · cases hstep
      refine inRange_goto (s := s) (t := t) h h.1 rfl ?_
      rintro id' ⟨⟩
      exact hsame id (by rw [hpc, known])
    · cases hstep
      refine inRange_goto (s := s) (t := t) h h.1 rfl ?_
      rintro id' ⟨⟩
  · next id hpc =>
    cases hstep
    refine inRange_goto (s := s) (t := t) h h.1 rfl ?_
    rintro id' ⟨⟩
    exact hsame id (by rw [hpc]; rfl)
  · next id hpc =>
    cases hstep
    refine inRange_goto (s := s) (t := t) h h.1 rfl ?_
    rintro id' ⟨⟩
    exact hsame id (by rw [hpc]; rfl)
  · cases hstep
  · cases hstep

omit [DecidableEq τ] in
/-- Nothing that the holders have to do with changes. -/
theorem holds_eq (hpc : s'.pc = s.pc) (hpipe : s'.pipe = s.pipe) : s'.holds = s.holds := by
  funext o
  cases o <;> simp only [holds, hpc, hpipe]

/-- A thread that has a slot has it after its next access. -/
theorem taken_access (hstep : s.access t = some s')
    (htaken : taken (s.pc t) = some id) : taken (s'.pc t) = some id := by
  unfold access at hstep
  cases hpc : s.pc t with
  | outside | add | mask | check | swap =>
    rw [hpc] at htaken
    cases htaken
  | storeId id' | storeFd id' =>
    rw [hpc] at hstep htaken
    cases htaken
    cases hstep
    simp [goto, taken]
  | returned result =>
    rw [hpc] at hstep
    cases hstep

/-- What is held is held after an action that makes no socket. -/
theorem exists_holds_of_goto {o : τ ⊕ Nat} {i : Nat} (hpipe : s'.pipe = s.pipe)
    (hpc : s'.pc = Function.update s.pc t next)
    (hnext : taken (s.pc t) = none ∨ taken next = taken (s.pc t))
    (ho : s.holds o = some i) : ∃ o', s'.holds o' = some i := by
  refine ⟨o, ?_⟩
  cases o with
  | inr k =>
    rw [holds, hpipe]
    exact ho
  | inl t' =>
    rw [holds, hpc]
    by_cases ht : t' = t
    · subst ht
      rw [holds] at ho
      rw [Function.update_self]
      rcases hnext with hnone | hsame
      · rw [hnone] at ho
        cases ho
      · rw [hsame]
        exact ho
    · rw [Function.update_of_ne ht]
      exact ho

/-- An access moves its thread and nothing of the pipe. -/
theorem access_eq_some (hstep : s.access t = some s') :
    s'.pc = Function.update s.pc t (s'.pc t) ∧ s'.pipe = s.pipe ∧ s'.again = s.again := by
  unfold access at hstep
  have hgoto : ∀ (m : Reserving τ) next, (m.goto t next).pc =
      Function.update m.pc t ((m.goto t next).pc t) := by
    intro m next
    simp [goto]
  split at hstep
  case h_4 =>
    split_ifs at hstep
    · cases hstep
      exact ⟨hgoto _ _, rfl, rfl⟩
    · cases hstep
      exact ⟨hgoto _ _, rfl, rfl⟩
  all_goals
    cases hstep <;> exact ⟨hgoto _ _, rfl, rfl⟩

/-- While a slot is about to be freed once more, no held slot is given up. -/
theorem exists_holds_step (hagain : s'.again = some id)
    (hstep : s.step a = some s') (hold : s.again = some id) {o : τ ⊕ Nat}
    {i : Nat} (ho : s.holds o = some i) : ∃ o', s'.holds o' = some i := by
  cases a with
  | call t =>
    rw [Reserving.step] at hstep
    split_ifs at hstep with hpc
    cases hstep
    exact exists_holds_of_goto (s := s) (t := t) rfl rfl (.inl (by rw [hpc]; rfl)) ho
  | run t =>
    obtain ⟨hpc, hpipe, -⟩ := access_eq_some hstep
    refine exists_holds_of_goto hpipe hpc ?_ ho
    cases htaken : taken (s.pc t) with
    | none => exact .inl rfl
    | some id => exact .inr (taken_access hstep htaken)
  | giveUp t =>
    rw [Reserving.step] at hstep
    split_ifs at hstep with hpc
    cases hstep
    exact exists_holds_of_goto (s := s) (t := t) rfl rfl (.inl (by rw [hpc]; rfl)) ho
  | request t =>
    rw [Reserving.step] at hstep
    split at hstep
    · next id' hpc =>
      cases hstep
      cases o with
      | inl t' =>
        by_cases ht : t' = t
        · subst ht
          rw [holds, hpc, taken] at ho
          exact ⟨.inr s.pipe.length, by simpa [holds, goto] using ho⟩
        · refine ⟨.inl t', ?_⟩
          simp only [holds, goto, Function.update_of_ne ht]
          exact ho
      | inr k =>
        refine ⟨.inr k, ?_⟩
        obtain ⟨id'', hget, rfl⟩ := Option.map_eq_some_iff.mp ho
        simp only [holds, goto]
        rw [List.getElem?_append_left (List.getElem?_eq_some_iff.mp hget).1, hget]
        rfl
    · cases hstep
  | accept t fd =>
    rw [Reserving.step] at hstep
    split at hstep
    · split_ifs at hstep with hnone
      rw [hnone] at hold
      cases hold
    · cases hstep
  | take fd outcome =>
    rw [Reserving.step.eq_def] at hstep
    dsimp only at hstep
    split at hstep
    · split_ifs at hstep with hnone
      rw [hnone] at hold
      cases hold
    · cases hstep
  | freeAgain =>
    obtain ⟨id', -, rfl⟩ := Option.map_eq_some_iff.mp hstep
    cases hagain
  | close j =>
    rw [Reserving.step] at hstep
    split_ifs at hstep with hguard
    rw [hold] at hguard
    simp at hguard

/-- Only a request for a new socket makes that a slot is freed once more. -/
theorem again_of_step (hstep : s.step a = some s') (hagain : s'.again = some id) :
    s.again = some id ∨ s'.type (hashId id) = .invalid := by
  cases a with
  | call t =>
    rw [Reserving.step] at hstep
    split_ifs at hstep
    cases hstep
    exact .inl hagain
  | run t =>
    rw [(access_eq_some hstep).2.2] at hagain
    exact .inl hagain
  | giveUp t =>
    rw [Reserving.step] at hstep
    split_ifs at hstep
    cases hstep
    exact .inl hagain
  | request t =>
    rw [Reserving.step] at hstep
    split at hstep
    · cases hstep
      exact .inl hagain
    · cases hstep
  | accept t fd =>
    rw [Reserving.step] at hstep
    split at hstep
    · split_ifs at hstep
      obtain ⟨m, hnew, rfl⟩ := Option.map_eq_some_iff.mp hstep
      exact .inl ((newFd_eq_some hnew).2.2.2.1 ▸ hagain)
    · cases hstep
  | take fd outcome =>
    rw [Reserving.step.eq_def] at hstep
    dsimp only at hstep
    split at hstep
    · split_ifs at hstep
      obtain ⟨-, -, -, -, hsame | ⟨hfree, hsome | hnone⟩⟩ :=
        takeRequest_eq_some hstep
      · rw [hsame] at hagain
        exact .inl hagain
      · rw [hsome] at hagain
        cases hagain
        exact .inr hfree
      · rw [hnone] at hagain
        cases hagain
    · cases hstep
  | freeAgain =>
    obtain ⟨id', -, rfl⟩ := Option.map_eq_some_iff.mp hstep
    cases hagain
  | close j =>
    rw [Reserving.step] at hstep
    split_ifs at hstep
    cases hstep
    exact .inl hagain

/-- A slot that is freed once more is free: nobody has taken it in between. -/
def FreesFree (s : Reserving τ) : ReserveAction τ → Prop
  | .freeAgain => ∀ id ∈ s.again, s.type (hashId id) = .invalid
  | _ => True

instance (s : Reserving τ) (a : ReserveAction τ) : Decidable (s.FreesFree a) :=
  match a with
  | .freeAgain =>
    inferInstanceAs (Decidable (∀ id ∈ s.again, s.type (hashId id) = .invalid))
  | .call _ | .run _ | .request _ | .giveUp _ | .accept _ _ | .take _ _
  | .close _ => inferInstanceAs (Decidable True)

theorem Inv.sound_step (h : s.Inv) (hfrees : s.FreesFree a) (hstep : s.step a = some s') :
    Sound s'.holds s'.store s'.fits ∧ s'.InRange := by
  cases a with
  | call t =>
    rw [Reserving.step] at hstep
    split_ifs at hstep
    cases hstep
    exact ⟨sound_of_pc (s := s) (t := t) h.sound rfl rfl rfl rfl,
      inRange_goto (s := s) (t := t) h.range h.range.1 rfl (by rintro id ⟨⟩)⟩
  | run t => exact ⟨sound_access h.sound hstep, inRange_access h.range hstep⟩
  | request t =>
    rw [Reserving.step] at hstep
    split at hstep
    · next id hpc =>
      cases hstep
      exact ⟨sound_request h.sound hpc, inRange_goto (s := s) (t := t) h.range h.range.1 rfl
          (by rintro id ⟨⟩)⟩
    · cases hstep
  | giveUp t =>
    rw [Reserving.step] at hstep
    split_ifs at hstep
    cases hstep
    exact ⟨sound_of_pc (s := s) (t := t) h.sound rfl rfl rfl rfl,
      inRange_goto (s := s) (t := t) h.range h.range.1 rfl (by rintro id ⟨⟩)⟩
  | accept t fd =>
    rw [Reserving.step] at hstep
    split at hstep
    · next id hpc =>
      split_ifs at hstep
      obtain ⟨s'', hnew, rfl⟩ := Option.map_eq_some_iff.mp hstep
      obtain ⟨hsame, -, halloc, -⟩ := newFd_eq_some hnew
      have hgoto : (s''.goto t .outside).pc = Function.update s.pc t .outside := by
        rw [← hsame]
        rfl
      exact ⟨sound_accept h.sound hpc hnew, inRange_goto (s := s) h.range (halloc ▸ h.range.1) hgoto
          (by rintro id ⟨⟩)⟩
    · cases hstep
  | take fd outcome =>
    rw [Reserving.step.eq_def] at hstep
    dsimp only at hstep
    split at hstep
    · next id rest hpipe =>
      split_ifs at hstep
      obtain ⟨hsame, -, halloc, -⟩ := takeRequest_eq_some hstep
      refine ⟨sound_take h.sound hpipe hstep, ?_⟩
      rw [InRange, hsame, halloc]
      exact h.range
    · cases hstep
  | freeAgain =>
    obtain ⟨id, hagain, rfl⟩ := Option.map_eq_some_iff.mp hstep
    refine ⟨sound_of_free (s := s) h.sound rfl rfl ?_, h.range⟩
    intro i hi
    have hne : i ≠ hashId id := by
      rintro rfl
      exact hi (by simp [store, hfrees id hagain])
    simp only [store, free, Function.update_of_ne hne]
  | close i =>
    rw [Reserving.step] at hstep
    split_ifs at hstep with hfree
    cases hstep
    rw [not_or, not_or] at hfree
    refine ⟨sound_of_free (s := s) h.sound rfl rfl ?_, h.range⟩
    intro j hj
    have hne : j ≠ i := by
      rintro rfl
      exact hj (by rw [store, if_neg hfree.2.1])
    simp only [store, Function.update_of_ne hne]

theorem inv_step (s : Reserving τ) (a : ReserveAction τ) (s' : Reserving τ)
    (h : s.Inv) (hfrees : s.FreesFree a) (hstep : s.step a = some s') :
    s'.Inv := by
  obtain ⟨hsound, hrange⟩ := h.sound_step hfrees hstep
  refine ⟨hsound, hrange, fun id hagain hbusy => ?_⟩
  rcases again_of_step hstep hagain with hold | hfree
  · by_cases hbefore : s.type (hashId id) = .invalid
    · -- the slot has been taken by this step
      obtain ⟨t, round, id', rfl, -, hslot, -, hpc⟩ :=
        swap_of_step hbefore hstep hbusy
      exact ⟨.inl t, by rw [holds, hpc, ← hslot]; rfl⟩
    · obtain ⟨o, ho⟩ := h.again id hold hbefore
      exact exists_holds_step hagain hstep hold ho
  · exact absurd hfree hbusy

omit [DecidableEq τ] in
theorem inv_create (id fd : Nat → Int) : (create τ id fd).Inv where
  sound := by
    have hnone : ∀ o, (create τ id fd).holds o = none := by
      rintro (t | k)
      · rfl
      · simp [holds, create]
    refine ⟨fun o o' i ho => ?_, fun o i ho => ?_⟩
    · rw [hnone] at ho
      cases ho
    · rw [hnone] at ho
      cases ho
  range := ⟨⟨by simp [create], by simp [create]⟩, by rintro t id ⟨⟩⟩
  again := by rintro id ⟨⟩

/-- No slot is held by two threads or requests; a slot that is held is reserved,
so that the assertion of `new_fd` holds; and an id that `reserve_id` has returned
is not negative and is stored in its slot. -/
def HeldOnce (s : Reserving τ) : Prop :=
  Exclusive s.holds ∧
    (∀ o i, s.holds o = some i → s.type i = .reserve) ∧
    ∀ t id, s.pc t = .returned (some id) →
      (0 ≤ id ∧ id < 2 ^ 31) ∧ s.id (hashId id) = id ∧
        s.fd (hashId id) = -1

omit [DecidableEq τ] in
theorem Inv.heldOnce (h : s.Inv) : s.HeldOnce := by
  refine ⟨h.sound.exclusive, fun o i ho => type_of_holds h.sound ho, ?_⟩
  intro t id hpc
  have htaken : taken (s.pc t) = some id := by rw [hpc, taken]
  have hfits := h.sound.fits_of_store (o := .inl t) (by rw [holds, htaken]; rfl)
    (by rw [store, if_pos (type_of_taken h.sound htaken)])
  rw [fits, hpc, stored, Prod.mk.injEq] at hfits
  exact ⟨h.range.2 t id (by rw [hpc]; rfl), hfits⟩

/-- Freeing a slot once more that somebody has taken takes it away. -/
theorem Inv.freesFree (h : s.Inv) (hstep : s.step a = some s')
    (hheld : s'.HeldOnce) : s.FreesFree a := by
  cases a with
  | freeAgain =>
    intro id hagain
    by_contra hbusy
    obtain ⟨o, ho⟩ := h.again id hagain hbusy
    obtain ⟨id', hagain', rfl⟩ := Option.map_eq_some_iff.mp hstep
    obtain rfl : id = id' := Option.some.inj (hagain.symm.trans hagain')
    have hsame : { s.free id with again := none }.holds = s.holds :=
      holds_eq rfl rfl
    have hreserve := hheld.2.1 o (hashId id) (hsame ▸ ho)
    simp [free] at hreserve
  | call | run | request | giveUp | accept | take | close => trivial

/-- **A slot is not given to two.**  However the accesses of the threads
interleave, no slot is held by two threads or requests, a slot that is held is
reserved and an id that is returned is stored in its slot, in every state of a
run exactly when no slot is freed once more that a thread has taken in
between. -/
theorem slot_held_once_iff {id fd : Nat → Int}
    {actions : List (ReserveAction τ)} {s : Reserving τ}
    (hrun : runSteps step (create τ id fd) actions = some s) :
    (∀ first rest r, actions = first ++ rest →
      runSteps step (create τ id fd) first = some r → r.HeldOnce) ↔
    RunMeets step FreesFree (create τ id fd) actions :=
  forall_reached_iff_runMeets inv_step (fun _ _ _ h hstep hheld => h.freesFree hstep hheld)
    (fun _ h => h.heldOnce) (inv_create id fd) hrun

/-- One thread reserves slot 1 and asks for a connection, and `sp_add` fails.  The
other thread counts `alloc_id` on, and takes slot 2 between the two stores. -/
def twoThreadsRun : List (ReserveAction Bool) :=
  [.call true, .call false, .run true, .run false, .run false, .run true,
    .run true, .run true, .run true, .request true,
    .take 7 (.notAdded true), .run false, .freeAgain]

theorem slot_held_once_iff_two_threads :
    ∃ s, runSteps step (create Bool (fun _ => 0) fun _ => 0) twoThreadsRun = some s ∧
      s.pc false = .storeId 2 ∧ s.type 1 = .invalid ∧
      ∀ first rest r, twoThreadsRun = first ++ rest →
        runSteps step (create Bool (fun _ => 0) fun _ => 0) first = some r →
        r.HeldOnce := by
  obtain ⟨s, hrun⟩ : ∃ s, runSteps step
      (create Bool (fun _ => 0) fun _ => 0) twoThreadsRun = some s := ⟨_, rfl⟩
  refine ⟨s, hrun, ?_, ?_, (slot_held_once_iff hrun).mpr (by decide)⟩
  · cases hrun
    rfl
  · cases hrun
    rfl

/-! ## Retrying -/

/-- **A retry is always due to another thread.**  If a thread has found its slot
free and its compare-and-swap is going to fail, then another thread has taken
the slot in between, so that of all threads that run at least one gets on. -/
theorem retry_only_after_progress {s s' : Reserving τ}
    {actions : List (ReserveAction τ)} {t : τ} {round : Nat} {id : Int}
    (hpc : s.pc t = .swap round id) (hfree : s.type (hashId id) = .invalid)
    (hwaits : .run t ∉ actions) (hrun : runSteps step s actions = some s')
    (hfails : s'.type (hashId id) ≠ .invalid) :
    ∃ before t' after m m', actions = before ++ .run t' :: after ∧ t' ≠ t ∧
      runSteps step s before = some m ∧ m.step (.run t') = some m' ∧
      (∃ round' id', m.pc t' = .swap round' id' ∧ hashId id' = hashId id) ∧
      m.type (hashId id) = .invalid ∧ m'.type (hashId id) = .reserve := by
  obtain ⟨before, a, after, m, m', rfl, hbefore, hstep, hm, hm'⟩ :=
    exists_ending_step (P := fun s : Reserving τ =>
      s.type (hashId id) = .invalid) hfree hfails hrun
  obtain ⟨t', round', id', rfl, hpc', hslot, hreserve, -⟩ :=
    swap_of_step hm hstep hm'
  refine ⟨before, t', after, m, m', rfl, ?_, hbefore, hstep,
    ⟨round', id', hpc', hslot⟩, hm, hreserve⟩
  rintro rfl
  exact hwaits (by simp)

/-- The actions of a thread that reserves a slot and passes it on. -/
def reserveOnce (t : τ) : List (ReserveAction τ) :=
  [.call t, .run t, .run t, .run t, .run t, .run t, .request t]

/-- With a free slot ahead, it reserves the slot of the next id. -/
theorem runSteps_reserveOnce (hpc : s.pc t = .outside) (hlow : 0 ≤ s.allocId)
    (hhigh : s.allocId + 1 < 2 ^ 31)
    (hfree : s.type (hashId (s.allocId + 1)) = .invalid) :
    ∃ s', runSteps step s (reserveOnce t) = some s' ∧ s'.pc = s.pc ∧ s'.allocId = s.allocId + 1 ∧
      s'.type = Function.update s.type (hashId (s.allocId + 1)) .reserve := by
  have hadd : addAndFetch s.allocId = s.allocId + 1 := if_pos hhigh
  have hneg : ¬ s.allocId + 1 < 0 := by omega
  have hback : Function.update s.pc t .outside = s.pc := by
    rw [← hpc, Function.update_eq_self]
  have hrun : runSteps step s (reserveOnce t) = some { s with
      allocId := s.allocId + 1
      type := Function.update s.type (hashId (s.allocId + 1)) .reserve
      id := Function.update s.id (hashId (s.allocId + 1)) (s.allocId + 1)
      fd := Function.update s.fd (hashId (s.allocId + 1)) (-1)
      pipe := s.pipe ++ [s.allocId + 1] } := by
    simp only [reserveOnce, runSteps, step, access, goto, hpc, hadd, hneg,
      hfree, Function.update_self, Function.update_idem, hback, if_true,
      if_false, Option.bind_some]
  exact ⟨_, hrun, rfl, rfl, rfl⟩

/-- The same a number of times, as long as the slots ahead are free. -/
theorem exists_run_reserving (hpc : s.pc t = .outside) (hstart : s.allocId = 1)
    (hfree : ∀ i, s.type i = .invalid) {n : Nat} (hn : n < maxSocket) :
    ∃ actions s', runSteps step s actions = some s' ∧ s'.pc = s.pc ∧ s'.allocId = n + 1 ∧
      ∀ id : Int, n + 1 < id → id ≤ maxSocket + 1 → s'.type (hashId id) = .invalid := by
  induction n with
  | zero =>
    exact ⟨[], s, rfl, rfl, by simpa using hstart, fun _ _ _ => hfree _⟩
  | succ n ih =>
    obtain ⟨actions, s', hrun, hsame, halloc, hahead⟩ := ih (by omega)
    have hmax : (maxSocket : Int) = 65536 := rfl
    obtain ⟨s'', hrun', hsame', halloc', htype⟩ :=
      runSteps_reserveOnce (s := s') (t := t) (by rw [hsame, hpc]) (by omega)
        (by omega) (hahead _ (by omega) (by omega))
    refine ⟨actions ++ reserveOnce t, s'', ?_, hsame'.trans hsame, ?_, ?_⟩
    · rw [runSteps_append, hrun, Option.bind_some, hrun']
    · rw [halloc', halloc]
      push_cast
      rfl
    · intro id hlow hhigh
      have hne : hashId id ≠ hashId (s'.allocId + 1) := by
        simp only [hashId, halloc, hmax]
        push_cast at hlow
        omega
      rw [htype, Function.update_of_ne hne]
      exact hahead id (by push_cast at hlow; omega) hhigh

/-- A thread is in front of its compare-and-swap of slot 1, and the other one
goes through all ids until it has another one of slot 1. -/
theorem retry_only_after_progress_same_slot :
    ∃ (actions : List (ReserveAction Bool)) (s s' : Reserving Bool),
      runSteps step (create Bool (fun _ => 0) fun _ => 0) actions = some s ∧
      s.pc true = .swap 0 1 ∧ s.type (hashId 1) = .invalid ∧
      runSteps step s [.run false] = some s' ∧
      s'.type (hashId 1) = .reserve ∧
      ∃ t', t' ≠ true ∧ .run t' ∈ [ReserveAction.run false] := by
  -- the first thread counts to 1 and sees that slot 1 is free
  obtain ⟨s₁, hfirst, hpc₁, hpc₁', halloc₁, hfree₁⟩ : ∃ s₁, runSteps step
      (create Bool (fun _ => 0) fun _ => 0) [.call true, .run true, .run true] = some s₁ ∧
      s₁.pc true = .swap 0 1 ∧ s₁.pc false = .outside ∧ s₁.allocId = 1 ∧
      ∀ i, s₁.type i = .invalid :=
    ⟨_, rfl, rfl, rfl, rfl, fun _ => rfl⟩
  obtain ⟨actions, s₂, hmany, hsame, halloc₂, hahead⟩ :=
    exists_run_reserving hpc₁' halloc₁ hfree₁ (show 65535 < maxSocket by decide)
  have hfree₂ : s₂.type (hashId 65537) = .invalid :=
    hahead 65537 (by norm_num) (by norm_num [maxSocket])
  have hlast : runSteps step s₂ [.call false, .run false, .run false] = some { s₂ with
        allocId := 65537
        pc := Function.update s₁.pc false (.swap 0 65537) } := by
    have hadd : addAndFetch s₂.allocId = 65537 := by
      rw [halloc₂]
      rfl
    have hneg : ¬ (65537 : Int) < 0 := by decide
    simp only [runSteps, step, access, goto, hsame, hpc₁', hadd, hneg, hfree₂,
      Function.update_self, Function.update_idem, if_true, if_false,
      Option.bind_some]
  obtain ⟨s, hcheck, hpc, hpc', hfree⟩ : ∃ s, runSteps step s₂
      [.call false, .run false, .run false] = some s ∧
      s.pc true = .swap 0 1 ∧ s.pc false = .swap 0 65537 ∧
      s.type (hashId 1) = .invalid :=
    ⟨_, hlast, hpc₁, rfl, hfree₂⟩
  obtain ⟨s', hswap, hreserve⟩ : ∃ s', runSteps step s [.run false] = some s' ∧
      s'.type (hashId 1) = .reserve := by
    have hfree' : s.type (hashId 65537) = .invalid := hfree
    have hstep : s.step (.run false) = some ({ s with
        type := Function.update s.type (hashId 65537) .reserve }.goto false (.storeId 65537)) := by
      simp only [step, access, hpc', hfree', if_true]
    have hslot : hashId 1 = hashId 65537 := rfl
    refine ⟨_, runSteps_cons_eq_some_iff.mpr ⟨_, hstep, rfl⟩, ?_⟩
    simp only [hslot, goto, Function.update_self]
  obtain ⟨before, t', after, m, m', hactions, hne, -⟩ :=
    retry_only_after_progress hpc hfree (by simp) hswap (by simp [hreserve])
  refine ⟨[.call true, .run true, .run true] ++ actions ++
    [.call false, .run false, .run false], s, s', ?_, hpc, hfree, hswap,
    hreserve, t', hne, by rw [hactions]; simp⟩
  rw [runSteps_append, runSteps_append, hfirst, Option.bind_some, hmany, Option.bind_some, hcheck]

end Reserving

end Socket
end GameServer
