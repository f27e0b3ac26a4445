import GameServer.Lib.Bits
import GameServer.Lib.Stamp

/-!
# Sequence ids

`SnowFlakeUUID` of `uuid.h`.  An id packs the low 25 bits of a reading of
`GetMicroSecond()`, five bits each of the host and the server id, and a counter
of 12 bits for the calls at the same reading.  When the counter is used up the
generator waits for the next reading.

The clock is the list of the readings it gives.  The generator issues the
stamps of the library's clock-and-counter generator, which are all distinct.
The ids are not, because 25 bits of microseconds repeat every 33.6 seconds.
-/

namespace GameServer

open Lib

/-- `SnowFlakeUUID`. -/
structure SnowFlakeUUID where
  dwHostID : UInt32
  dwGameSvrID : UInt32
  ulSequenceID : UInt64
  ulLastTimestamp : UInt64

/-- What a call of `GenerateSeqID` returns, the generator after it, and the
readings the clock has still to give. -/
structure GeneratedSeqID where
  ulSeqID : UInt64
  uuid : SnowFlakeUUID
  readings : List UInt64

namespace SnowFlakeUUID

/-- The constructor, followed by `Init`. -/
def construct (dwHostID dwGameSvrID : UInt32) : SnowFlakeUUID :=
  ⟨dwHostID, dwGameSvrID, 0, 0⟩

/-- `_WaitNextTimestamp`: the first reading beyond `ulLastTimestamp`, and those
behind it.  `none` when the clock stops before. -/
def waitNextTimestamp (ulLastTimestamp : UInt64) :
    List UInt64 → Option (UInt64 × List UInt64)
  | [] => none
  | ulNowTimestamp :: rest =>
    if ulNowTimestamp ≤ ulLastTimestamp then
      waitNextTimestamp ulLastTimestamp rest
    else
      some (ulNowTimestamp, rest)

/-- The expression `GenerateSeqID` returns. -/
def packSeqID (dwHostID dwGameSvrID : UInt32)
    (ulNowTimestamp ulSequenceID : UInt64) : UInt64 :=
  (ulNowTimestamp &&& 0x1FFFFFF) <<< 22 |||
    ((dwHostID &&& 0x1F) <<< 17).toUInt64 |||
    ((dwGameSvrID &&& 0x1F) <<< 12).toUInt64 |||
    (ulSequenceID &&& 0xFFF)

/-- The end of `GenerateSeqID`: remember the timestamp and return the id. -/
def finish (uuid : SnowFlakeUUID) (ulSequenceID ulNowTimestamp : UInt64)
    (readings : List UInt64) : GeneratedSeqID where
  ulSeqID :=
    packSeqID uuid.dwHostID uuid.dwGameSvrID ulNowTimestamp ulSequenceID
  uuid := { uuid with
    ulSequenceID := ulSequenceID
    ulLastTimestamp := ulNowTimestamp }
  readings := readings

/-- `GenerateSeqID`.  `none` when the clock stops before the call returns. -/
def generateSeqID (uuid : SnowFlakeUUID) : List UInt64 → Option GeneratedSeqID
  | [] => none
  | ulNowTimestamp :: rest =>
    if uuid.ulLastTimestamp = ulNowTimestamp then
      let ulSequenceID := (uuid.ulSequenceID + 1) &&& 0xFFF
      if ulSequenceID = 0 then
        (waitNextTimestamp uuid.ulLastTimestamp rest).map fun wait =>
          uuid.finish ulSequenceID wait.1 wait.2
      else
        some (uuid.finish ulSequenceID ulNowTimestamp rest)
    else
      some (uuid.finish 0 ulNowTimestamp rest)

/-- Successive calls: the ids they return and the readings left over. -/
def generateSeqIDs (uuid : SnowFlakeUUID) :
    Nat → List UInt64 → Option (List UInt64 × List UInt64)
  | 0, readings => some ([], readings)
  | calls + 1, readings =>
    (uuid.generateSeqID readings).bind fun generated =>
      (generated.uuid.generateSeqIDs calls generated.readings).map fun later =>
        (generated.ulSeqID :: later.1, later.2)

/-! ## What an id keeps of a stamp -/

/-- The fields of an id do not overlap. -/
theorem toNat_packSeqID (dwHostID dwGameSvrID : UInt32) (ulNowTimestamp ulSequenceID : UInt64) :
    (packSeqID dwHostID dwGameSvrID ulNowTimestamp ulSequenceID).toNat =
      ulNowTimestamp.toNat % 2 ^ 25 * 2 ^ 22 + (dwHostID.toNat % 2 ^ 5 * 2 ^ 17 +
          (dwGameSvrID.toNat % 2 ^ 5 * 2 ^ 12 + ulSequenceID.toNat % 2 ^ 12)) := by
  have hstamp : (ulNowTimestamp &&& 0x1FFFFFF).toNat = ulNowTimestamp.toNat % 2 ^ 25 := by
    rw [UInt64.toNat_and]
    exact Nat.and_two_pow_sub_one_eq_mod _ 25
  have hhost : (dwHostID &&& 0x1F).toNat = dwHostID.toNat % 2 ^ 5 := by
    rw [UInt32.toNat_and]
    exact Nat.and_two_pow_sub_one_eq_mod _ 5
  have hserver : (dwGameSvrID &&& 0x1F).toNat = dwGameSvrID.toNat % 2 ^ 5 := by
    rw [UInt32.toNat_and]
    exact Nat.and_two_pow_sub_one_eq_mod _ 5
  have hnumber : (ulSequenceID &&& 0xFFF).toNat = ulSequenceID.toNat % 2 ^ 12 := by
    rw [UInt64.toNat_and]
    exact Nat.and_two_pow_sub_one_eq_mod _ 12
  have hstampShift : ((ulNowTimestamp &&& 0x1FFFFFF) <<< 22).toNat =
      (ulNowTimestamp.toNat % 2 ^ 25) <<< 22 := by
    rw [UInt64.toNat_shiftLeft, hstamp]
    show (ulNowTimestamp.toNat % 2 ^ 25) <<< 22 % 2 ^ 64 = _
    apply Nat.mod_eq_of_lt
    rw [Nat.shiftLeft_eq]
    omega
  have hhostShift : ((dwHostID &&& 0x1F) <<< 17).toUInt64.toNat =
      (dwHostID.toNat % 2 ^ 5) <<< 17 := by
    rw [UInt32.toNat_toUInt64, UInt32.toNat_shiftLeft, hhost]
    show (dwHostID.toNat % 2 ^ 5) <<< 17 % 2 ^ 32 = _
    apply Nat.mod_eq_of_lt
    rw [Nat.shiftLeft_eq]
    omega
  have hserverShift : ((dwGameSvrID &&& 0x1F) <<< 12).toUInt64.toNat =
      (dwGameSvrID.toNat % 2 ^ 5) <<< 12 := by
    rw [UInt32.toNat_toUInt64, UInt32.toNat_shiftLeft, hserver]
    show (dwGameSvrID.toNat % 2 ^ 5) <<< 12 % 2 ^ 32 = _
    apply Nat.mod_eq_of_lt
    rw [Nat.shiftLeft_eq]
    omega
  simp only [packSeqID, UInt64.toNat_or, Nat.or_assoc, hstampShift, hhostShift,
    hserverShift, hnumber]
  -- from the lowest field up, each one stays below the shift of the next
  have hlow := shiftLeft_or_eq_add (show ulSequenceID.toNat % 2 ^ 12 < 2 ^ 12 by omega)
    (dwGameSvrID.toNat % 2 ^ 5)
  have hmiddle := shiftLeft_or_eq_add
    (show dwGameSvrID.toNat % 2 ^ 5 * 2 ^ 12 + ulSequenceID.toNat % 2 ^ 12 <
      2 ^ 17 by omega) (dwHostID.toNat % 2 ^ 5)
  rw [hlow, hmiddle, shiftLeft_or_eq_add (by omega)]

/-- Of the timestamp an id keeps the residue modulo 2^25. -/
theorem packSeqID_eq_iff (dwHostID dwGameSvrID : UInt32) (ulNowTimestamp ulNowTimestamp' : UInt64)
    {ulSequenceID ulSequenceID' : UInt64}
    (hnumber : ulSequenceID.toNat < 2 ^ 12)
    (hnumber' : ulSequenceID'.toNat < 2 ^ 12) :
    packSeqID dwHostID dwGameSvrID ulNowTimestamp ulSequenceID =
        packSeqID dwHostID dwGameSvrID ulNowTimestamp' ulSequenceID' ↔
      ulNowTimestamp.toNat % 2 ^ 25 = ulNowTimestamp'.toNat % 2 ^ 25 ∧
        ulSequenceID.toNat = ulSequenceID'.toNat := by
  rw [← UInt64.toNat_inj, toNat_packSeqID, toNat_packSeqID]
  omega

/-! ## The stamps issued -/

/-- The numbers there are for one reading. -/
def sequenceCap : Nat := 2 ^ 12

/-- Counting on in 12 bits. -/
theorem toNat_succ_and (ulSequenceID : UInt64) :
    ((ulSequenceID + 1) &&& 0xFFF).toNat =
      (ulSequenceID.toNat + 1) % sequenceCap := by
  have hone : (1 : UInt64).toNat = 1 := rfl
  have hcap : sequenceCap = 2 ^ 12 := rfl
  rw [UInt64.toNat_and, hcap]
  refine (Nat.and_two_pow_sub_one_eq_mod (ulSequenceID + 1).toNat 12).trans ?_
  rw [UInt64.toNat_add]
  omega

/-- The stamp a generator issued last. -/
def stamp (uuid : SnowFlakeUUID) : Stamp Nat :=
  ⟨uuid.ulLastTimestamp.toNat, uuid.ulSequenceID.toNat⟩

/-- The readings as numbers. -/
abbrev times (readings : List UInt64) : List Nat :=
  readings.map UInt64.toNat

theorem times_cons (reading : UInt64) (rest : List UInt64) :
    times (reading :: rest) = reading.toNat :: times rest := rfl

/-- The readings do not go back, and not behind the last timestamp. -/
def Ahead (uuid : SnowFlakeUUID) (readings : List UInt64) : Prop :=
  (uuid.ulLastTimestamp.toNat :: times readings).Pairwise (· ≤ ·)

/-- The id of a stamp. -/
def idOf (dwHostID dwGameSvrID : UInt32) (stamp : Stamp Nat) : UInt64 :=
  packSeqID dwHostID dwGameSvrID (.ofNat stamp.time) (.ofNat stamp.number)

theorem idOf_stamp (uuid : SnowFlakeUUID) :
    idOf uuid.dwHostID uuid.dwGameSvrID uuid.stamp =
      packSeqID uuid.dwHostID uuid.dwGameSvrID uuid.ulLastTimestamp
        uuid.ulSequenceID := by
  simp only [idOf, stamp, UInt64.ofNat_toNat]

variable {readings : List UInt64} {uuid : SnowFlakeUUID}

/-- Waiting skips the readings that have no number left. -/
theorem stamps_of_waitNextTimestamp {ulLastTimestamp ulNowTimestamp : UInt64}
    {rest : List UInt64} {number : Nat} (hfull : sequenceCap ≤ number + 1)
    (hsorted : (ulLastTimestamp.toNat :: times readings).Pairwise (· ≤ ·))
    (hwait : waitNextTimestamp ulLastTimestamp readings = some (ulNowTimestamp, rest)) :
    Stamp.stamps sequenceCap ⟨ulLastTimestamp.toNat, number⟩ (times readings) =
        ⟨ulNowTimestamp.toNat, 0⟩ ::
          Stamp.stamps sequenceCap ⟨ulNowTimestamp.toNat, 0⟩ (times rest) ∧
      (ulNowTimestamp.toNat :: times rest).Pairwise (· ≤ ·) := by
  induction readings with
  | nil => cases hwait
  | cons reading readings ih =>
    rw [times_cons] at hsorted ⊢
    obtain ⟨hlast, hrest⟩ := List.pairwise_cons.mp hsorted
    have hle := hlast reading.toNat List.mem_cons_self
    simp only [waitNextTimestamp] at hwait
    split at hwait
    · rename_i hback
      have hsame : reading.toNat = ulLastTimestamp.toNat :=
        le_antisymm (UInt64.le_iff_toNat_le.mp hback) hle
      rw [Stamp.stamps_cons_of_none (Stamp.next_of_full hsame hfull)]
      apply ih _ hwait
      exact hsorted.sublist ((List.sublist_cons_self _ _).cons_cons _)
    · rename_i hahead
      obtain ⟨rfl, rfl⟩ := Prod.mk.inj (Option.some.inj hwait)
      have hne : reading.toNat ≠ ulLastTimestamp.toNat := by
        intro hsame
        exact hahead (UInt64.le_iff_toNat_le.mpr hsame.le)
      exact ⟨Stamp.stamps_cons_of_some (Stamp.next_of_ne hne) _, hrest⟩

/-- A call has issued the next stamp: the readings it consumed are those the
stamp generator reads for it. -/
structure Issues (uuid : SnowFlakeUUID) (readings : List UInt64)
    (generated : GeneratedSeqID) : Prop where
  stamps : Stamp.stamps sequenceCap uuid.stamp (times readings) =
    generated.uuid.stamp ::
      Stamp.stamps sequenceCap generated.uuid.stamp (times generated.readings)
  id : generated.ulSeqID =
    idOf uuid.dwHostID uuid.dwGameSvrID generated.uuid.stamp
  ahead : generated.uuid.Ahead generated.readings
  number : generated.uuid.ulSequenceID.toNat < sequenceCap
  host : generated.uuid.dwHostID = uuid.dwHostID
  server : generated.uuid.dwGameSvrID = uuid.dwGameSvrID

theorem issues_finish {rest : List UInt64}
    {ulSequenceID ulNowTimestamp : UInt64}
    (hstamps : Stamp.stamps sequenceCap uuid.stamp (times readings) =
      ⟨ulNowTimestamp.toNat, ulSequenceID.toNat⟩ ::
        Stamp.stamps sequenceCap ⟨ulNowTimestamp.toNat, ulSequenceID.toNat⟩ (times rest))
    (hsorted : (ulNowTimestamp.toNat :: times rest).Pairwise (· ≤ ·))
    (hnumber : ulSequenceID.toNat < sequenceCap) :
    uuid.Issues readings (uuid.finish ulSequenceID ulNowTimestamp rest) where
  stamps := hstamps
  id := (idOf_stamp (uuid.finish ulSequenceID ulNowTimestamp rest).uuid).symm
  ahead := hsorted
  number := hnumber
  host := rfl
  server := rfl

/-- **One call issues one stamp.** -/
theorem issues_of_generateSeqID {generated : GeneratedSeqID} (hahead : uuid.Ahead readings)
    (hnumber : uuid.ulSequenceID.toNat < sequenceCap)
    (hgenerate : uuid.generateSeqID readings = some generated) :
    uuid.Issues readings generated := by
  have hcap : sequenceCap = 4096 := rfl
  cases readings with
  | nil => cases hgenerate
  | cons reading rest =>
    have hmask := toNat_succ_and uuid.ulSequenceID
    have hrest := (List.pairwise_cons.mp hahead).2
    simp only [generateSeqID] at hgenerate
    split at hgenerate
    · rename_i hlast
      have hsame : reading.toNat = uuid.stamp.time := by rw [← hlast]; rfl
      split at hgenerate
      · -- the counter has run over: wait for the next reading
        rename_i hzero
        obtain ⟨⟨now, later⟩, hwait, rfl⟩ :=
          Option.map_eq_some_iff.mp hgenerate
        have hfull : sequenceCap ≤ uuid.ulSequenceID.toNat + 1 := by
          have hnone := congrArg UInt64.toNat hzero
          rw [hmask, UInt64.toNat_zero, hcap] at hnone
          omega
        obtain ⟨hstamps, hsorted⟩ :=
          stamps_of_waitNextTimestamp hfull (hlast ▸ hrest) hwait
        rw [hzero]
        refine issues_finish ?_ hsorted (by rw [hcap]; decide)
        rw [times_cons, Stamp.stamps_cons_of_none (Stamp.next_of_full hsame hfull)]
        exact hstamps
      · rename_i hnonzero
        cases hgenerate
        have hroom : uuid.ulSequenceID.toNat + 1 < sequenceCap := by
          by_contra hfull
          apply hnonzero
          rw [← UInt64.toNat_inj, hmask, UInt64.toNat_zero, hcap]
          omega
        rw [Nat.mod_eq_of_lt hroom] at hmask
        refine issues_finish ?_ hrest (hmask ▸ hroom)
        rw [times_cons, hmask]
        exact Stamp.stamps_cons_of_some (Stamp.next_of_room hsame hroom) _
    · rename_i hnew
      cases hgenerate
      have hne : reading.toNat ≠ uuid.stamp.time := by
        intro hsame
        exact hnew (UInt64.toNat_inj.mp hsame.symm)
      refine issues_finish ?_ hrest (by rw [hcap]; decide)
      exact Stamp.stamps_cons_of_some (Stamp.next_of_ne hne) _

/-- **The ids of a run** are those of the stamps issued along its readings. -/
theorem generateSeqIDs_eq_map {calls : Nat} {ids : List UInt64} (hahead : uuid.Ahead readings)
    (hnumber : uuid.ulSequenceID.toNat < sequenceCap)
    (hrun : uuid.generateSeqIDs calls readings = some (ids, [])) :
    ids = (Stamp.stamps sequenceCap uuid.stamp (times readings)).map
      (idOf uuid.dwHostID uuid.dwGameSvrID) := by
  induction calls generalizing uuid readings ids with
  | zero =>
    cases hrun
    rfl
  | succ calls ih =>
    rw [generateSeqIDs, Option.bind_eq_some_iff] at hrun
    obtain ⟨generated, hgenerate, hrun⟩ := hrun
    obtain ⟨⟨later, left⟩, hlater, hids⟩ := Option.map_eq_some_iff.mp hrun
    obtain ⟨rfl, rfl⟩ := Prod.mk.inj hids
    have hissues := issues_of_generateSeqID hahead hnumber hgenerate
    rw [hissues.stamps, List.map_cons, ← hissues.id,
      ih hissues.ahead hissues.number hlater, hissues.host, hissues.server]

/-! ## When ids repeat -/

/-- Two stamps have the same id exactly when their numbers agree and their
times agree modulo 2^25. -/
theorem idOf_eq_iff (dwHostID dwGameSvrID : UInt32) {a b : Stamp Nat}
    (ha : a.number < sequenceCap) (hb : b.number < sequenceCap) :
    idOf dwHostID dwGameSvrID a = idOf dwHostID dwGameSvrID b ↔
      a.time % 2 ^ 25 = b.time % 2 ^ 25 ∧ a.number = b.number := by
  have hcap : sequenceCap = 2 ^ 12 := rfl
  have hnumber : ∀ n < sequenceCap, (UInt64.ofNat n).toNat = n := by
    intro n hn
    rw [UInt64.toNat_ofNat']
    omega
  have htime : ∀ t, (UInt64.ofNat t).toNat % 2 ^ 25 = t % 2 ^ 25 := by
    intro t
    rw [UInt64.toNat_ofNat']
    omega
  have hpack := packSeqID_eq_iff dwHostID dwGameSvrID (.ofNat a.time) (.ofNat b.time)
    (show (UInt64.ofNat a.number).toNat < 2 ^ 12 from (hnumber _ ha).trans_lt ha)
    (show (UInt64.ofNat b.number).toNat < 2 ^ 12 from (hnumber _ hb).trans_lt hb)
  rw [htime, htime, hnumber _ ha, hnumber _ hb] at hpack
  exact hpack

/-- No two different readings agree modulo 2^25, apart from the reading zero,
which looks to a new generator like a repetition of its last timestamp, and one
other reading that occurs once. -/
def Distinguishable (readings : List UInt64) : Prop :=
  ∀ r ∈ readings, ∀ r' ∈ readings, r ≠ r' →
    r.toNat % 2 ^ 25 = r'.toNat % 2 ^ 25 →
      r = 0 ∧ readings.count r' = 1 ∨ r' = 0 ∧ readings.count r = 1

section Issued

variable {readings : List UInt64}

/-- The stamps a new generator issues along the readings. -/
abbrev issued (readings : List UInt64) : List (Stamp Nat) :=
  Stamp.stamps sequenceCap ⟨0, 0⟩ (times readings)

/-- At a reading one stamp is issued for each time it occurs.  The numbers
start from zero, at the reading zero from one. -/
theorem mem_issued_iff (hsorted : (0 :: times readings).Pairwise (· ≤ ·))
    (r : UInt64) (number : Nat) :
    ⟨r.toNat, number⟩ ∈ issued readings ↔ (if r = 0 then 1 else 0) ≤ number ∧ number < sequenceCap ∧
        number < (if r = 0 then 1 else 0) + readings.count r := by
  have hcap : (⟨0, 0⟩ : Stamp Nat).number < sequenceCap := by decide
  have hused : Stamp.used ⟨0, 0⟩ r.toNat = if r = 0 then 1 else 0 := by
    simp only [Stamp.used, ← UInt64.toNat_inj, UInt64.toNat_zero]
  have hcount : (times readings).count r.toNat = readings.count r :=
    List.count_map_of_injective readings UInt64.toNat (fun a b h => UInt64.toNat_inj.mp h) r
  rw [issued, Stamp.mem_stamps_iff hsorted hcap, hused, hcount]

/-- Every stamp is issued at a reading. -/
theorem exists_reading_of_mem_issued
    (hsorted : (0 :: times readings).Pairwise (· ≤ ·)) {stamp : Stamp Nat}
    (h : stamp ∈ issued readings) : ∃ r ∈ readings, r.toNat = stamp.time := by
  have hcap : (⟨0, 0⟩ : Stamp Nat).number < sequenceCap := by decide
  obtain ⟨hused, -, hcount⟩ := (Stamp.mem_stamps_iff hsorted hcap stamp).mp h
  have hmem : stamp.time ∈ times readings :=
    List.count_pos_iff.mp (by omega)
  exact List.mem_map.mp hmem

/-- If the ids tell the stamps apart, then a reading other than zero shares its
residue at most with the reading zero, and only if it occurs once. -/
theorem eq_zero_of_idOf_injective {dwHostID dwGameSvrID : UInt32}
    (hsorted : (0 :: times readings).Pairwise (· ≤ ·))
    (hinj : ∀ a ∈ issued readings, ∀ b ∈ issued readings,
      idOf dwHostID dwGameSvrID a = idOf dwHostID dwGameSvrID b → a = b)
    {r r' : UInt64} (hr : r ∈ readings) (hr' : r' ∈ readings) (hne : r ≠ r')
    (hmod : r.toNat % 2 ^ 25 = r'.toNat % 2 ^ 25) (hnonzero : r' ≠ 0) :
    r = 0 ∧ readings.count r' = 1 := by
  have hpos := List.count_pos_iff.mpr hr
  have hpos' := List.count_pos_iff.mpr hr'
  -- two stamps with the same number at these readings cannot both be issued
  have hclash : ∀ number < sequenceCap, ⟨r.toNat, number⟩ ∈ issued readings →
      ⟨r'.toNat, number⟩ ∉ issued readings := by
    intro number hnumber ha hb
    have heq := hinj _ ha _ hb ((idOf_eq_iff dwHostID dwGameSvrID hnumber hnumber).mpr ⟨hmod, rfl⟩)
    exact hne (UInt64.toNat_inj.mp (congrArg Stamp.time heq))
  simp only [mem_issued_iff hsorted, if_neg hnonzero] at hclash
  by_cases hzero : r = 0
  · refine ⟨hzero, ?_⟩
    have hone := hclash 1 (by decide)
    simp only [if_pos hzero] at hone
    have hcap : 1 < sequenceCap := by decide
    omega
  · have hnone := hclash 0 (by decide)
    simp only [if_neg hzero] at hnone
    have hcap : 0 < sequenceCap := by decide
    omega

/-- Along distinguishable readings the ids tell the stamps apart. -/
theorem Distinguishable.time_eq (h : Distinguishable readings)
    (hsorted : (0 :: times readings).Pairwise (· ≤ ·)) {a b : Stamp Nat}
    (ha : a ∈ issued readings) (hb : b ∈ issued readings)
    (hmod : a.time % 2 ^ 25 = b.time % 2 ^ 25) (hnumber : a.number = b.number) :
    a.time = b.time := by
  obtain ⟨r, hr, hra⟩ := exists_reading_of_mem_issued hsorted ha
  obtain ⟨r', hr', hrb⟩ := exists_reading_of_mem_issued hsorted hb
  obtain ⟨time, number⟩ := a
  obtain ⟨time', number'⟩ := b
  dsimp only at *
  subst hra hrb hnumber
  by_contra hne
  rw [mem_issued_iff hsorted] at ha hb
  have hrr : r ≠ r' := fun heq => hne (congrArg UInt64.toNat heq)
  -- at zero the numbers start from one, so a single reading has no such number
  rcases h r hr r' hr' hrr hmod with ⟨hzero, hcount⟩ | ⟨hzero, hcount⟩
  · have hnonzero : r' ≠ 0 := fun heq => hrr (hzero.trans heq.symm)
    simp only [if_pos hzero, if_neg hnonzero] at ha hb
    omega
  · have hnonzero : r ≠ 0 := fun heq => hrr (heq.trans hzero.symm)
    simp only [if_pos hzero, if_neg hnonzero] at ha hb
    omega

end Issued

/-- **When the ids of a run are distinct.**  For every host and server id, the
ids returned by successive calls over a clock that does not go back are
pairwise distinct exactly when the readings consumed are distinguishable. -/
theorem nodup_generateSeqIDs_iff (dwHostID dwGameSvrID : UInt32) (calls : Nat)
    (readings ids : List UInt64) (hsorted : readings.Pairwise (· ≤ ·))
    (hrun : (construct dwHostID dwGameSvrID).generateSeqIDs calls readings = some (ids, [])) :
    ids.Nodup ↔ Distinguishable readings := by
  have htimes : (0 :: times readings).Pairwise (· ≤ ·) := by
    refine List.pairwise_cons.mpr ⟨fun t _ => Nat.zero_le t, ?_⟩
    rw [List.pairwise_map]
    exact hsorted.imp UInt64.le_iff_toNat_le.mp
  have hcap : (⟨0, 0⟩ : Stamp Nat).number < sequenceCap := by decide
  have hahead : (construct dwHostID dwGameSvrID).Ahead readings := by
    simpa only [Ahead, construct, UInt64.toNat_zero] using htimes
  have hstamp : (construct dwHostID dwGameSvrID).stamp = ⟨0, 0⟩ := by
    simp only [stamp, construct, UInt64.toNat_zero]
  have hnumber : (construct dwHostID dwGameSvrID).ulSequenceID.toNat <
      sequenceCap := by
    simpa only [construct, UInt64.toNat_zero] using hcap
  have hids := generateSeqIDs_eq_map hahead hnumber hrun
  rw [hstamp] at hids
  have hnodup : (issued readings).Nodup := Stamp.nodup_stamps _ _ _ htimes
  rw [hids, List.nodup_map_iff_inj_on hnodup]
  constructor
  · intro hinj r hr r' hr' hne hmod
    by_cases hzero : r' = 0
    · have hnonzero : r ≠ 0 := fun heq => hne (heq.trans hzero.symm)
      exact Or.inr (eq_zero_of_idOf_injective htimes hinj hr' hr hne.symm hmod.symm hnonzero)
    · exact Or.inl (eq_zero_of_idOf_injective htimes hinj hr hr' hne hmod hzero)
  · intro hdist a ha b hb hid
    obtain ⟨-, hnumber, -⟩ := (Stamp.mem_stamps_iff htimes hcap a).mp ha
    obtain ⟨-, hnumber', -⟩ := (Stamp.mem_stamps_iff htimes hcap b).mp hb
    obtain ⟨hmod, hsame⟩ :=
      (idOf_eq_iff dwHostID dwGameSvrID hnumber hnumber').mp hid
    have htime := hdist.time_eq htimes ha hb hmod hsame
    obtain ⟨time, number⟩ := a
    obtain ⟨time', number'⟩ := b
    dsimp only at htime hsame
    rw [htime, hsame]

/-- Two calls in the same microsecond and one in the next. -/
theorem nodup_generateSeqIDs_three_calls :
    (construct 1 2).generateSeqIDs 3 [7, 7, 8] =
        some ([29499392, 29499393, 33693696], []) ∧
      [(29499392 : UInt64), 29499393, 33693696].Nodup := by
  have hrun : (construct 1 2).generateSeqIDs 3 [7, 7, 8] =
      some ([29499392, 29499393, 33693696], []) := by decide
  refine ⟨hrun, (nodup_generateSeqIDs_iff 1 2 3 [7, 7, 8] _ (by decide) hrun).mpr ?_⟩
  -- readings below 2^25 are their own remainders
  have hsmall : ∀ r ∈ [(7 : UInt64), 7, 8], r.toNat < 2 ^ 25 := by simp
  intro r hr r' hr' hne hmod
  rw [Nat.mod_eq_of_lt (hsmall r hr), Nat.mod_eq_of_lt (hsmall r' hr')] at hmod
  exact (hne (UInt64.toNat_inj.mp hmod)).elim

/-- Two calls 2^25 microseconds apart return the same id. -/
theorem not_nodup_generateSeqIDs_two_calls :
    (construct 1 2).generateSeqIDs 2 [7, 33554439] =
        some ([29499392, 29499392], []) ∧
      [(7 : UInt64), 33554439].Pairwise (· ≤ ·) ∧
      ¬ [(29499392 : UInt64), 29499392].Nodup := by
  decide

end SnowFlakeUUID

end GameServer
