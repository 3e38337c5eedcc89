import EncointerWorker.Primitives

/-
  Encointer worker: how the client's `new-claim` command finds the participant's meetup and
  its time (`cli.rs`: `get_meetup_index_and_location`, `get_meetup_location`,
  `get_meetup_time`, and the `new-claim` runner).

  The enclave answers the signed getter `TrustedGetter::meetup_index` with the participant's
  `MeetupIndexType`, a `u64` where 0 means unassigned. Meetups are numbered from 1 and
  `EncointerCurrencies::Locations` lists their locations in order, so meetup `m` is at
  position `m - 1`. `get_meetup_location` reads position `m`: past the end at the last
  meetup, a panic, and the next meetup's location at every other
  (`meetup_location_off_by_one`). The getter's answer and the reads of the public chain are
  inputs here.

  `get_meetup_time` takes the start of the attesting phase (the next phase's timestamp in
  ASSIGNING, that minus the attesting duration in ATTESTING), adds half a day and
  subtracts the offset of the meetup's longitude. The offset,
  `(mlon * (ONE_DAY as f64) / 360.0) as i64` of the rounded longitude, is computed in
  `f64` and is the parameter `lonOffset`; `ONE_DAY` is the runtime's constant and the
  parameter `oneDay`. The `u64` and `i64` arithmetic around them is modelled in both build
  profiles: the meetup time depends only on the attesting start
  (`getMeetupTime_attesting_eq_assigning`), and is the attesting start plus half a day minus
  the offset modulo `2^64`, unless debug assertions catch an overflow on the way
  (`getMeetupTime_eq_of_attestingStart`).
-/

namespace EncointerWorker

/-- `Location`: latitude and longitude in degrees, `I32F32` values given by their 64 bits. -/
structure Location where
  lat : UInt64
  lon : UInt64
  deriving DecidableEq

/-- `get_meetup_location`: the currency's location list read from the chain, indexed by the
meetup index itself; `None` when the chain has no list. -/
def getMeetupLocation (locations : Option (List Location)) (mIndex : UInt64) :
    Except Panic (Option Location) :=
  match locations with
  | none => pure none
  | some locs =>
    match locs[mIndex.toNat]? with
    | some l => pure (some l)
    | none => throw .indexOutOfBounds

/-- `get_meetup_index_and_location`, from the getter's answer `res` and the chain's location
list: the panics of its `unwrap`s, and its own errors. -/
def getMeetupIndexAndLocation (argWho : String) (res : Option Bytes)
    (locations : Option (List Location)) : Except Panic (Except String (UInt64 × Location)) := do
  let res ← unwrap res
  let mIndex ← unwrap (decodeU64 res)
  if mIndex = 0 then
    return .error ("participant " ++ argWho ++ " has not been assigned to a meetup. Meetup Index is 0")
  let mLocation ← getMeetupLocation locations mIndex
  match mLocation with
  | none => return .error ("participant " ++ argWho ++ " has not been assigned to a meetup. Location is None")
  | some l => return .ok (mIndex, l)

/-- With one meetup, its participant's lookup panics; with two, the first meetup's
participant is given the second meetup's location. -/
theorem meetup_location_off_by_one (argWho : String) (l0 l1 : Location) :
    getMeetupIndexAndLocation argWho (some (encode (1 : UInt64))) (some [l0]) =
        .error .indexOutOfBounds ∧
      getMeetupIndexAndLocation argWho (some (encode (1 : UInt64))) (some [l0, l1]) =
        .ok (.ok (1, l1)) :=
  ⟨rfl, rfl⟩

/-! ## The meetup time -/

/-- `CeremonyPhaseType`. -/
inductive CeremonyPhaseType where
  | registering
  | assigning
  | attesting
  deriving DecidableEq, Repr

section MeetupTime

variable (debugAssertions : Bool) (oneDay : UInt64) (lonOffset : Location → Int)

/-- The `match get_current_phase(api)` of `get_meetup_time`: the start of the attesting
phase, from the next phase's timestamp and the chain's `PhaseDurations` of ATTESTING. -/
def attestingStart (phase : CeremonyPhaseType) (nextPhaseTimestamp : UInt64)
    (attestingDuration : Option UInt64) : Except Panic UInt64 :=
  match phase with
  | .assigning => pure nextPhaseTimestamp
  | .attesting => do
    let attestingDuration ← unwrap attestingDuration
    u64Sub debugAssertions nextPhaseTimestamp attestingDuration
  | .registering =>
    throw (.explicit "ceremony phase must be ASSIGNING or ATTESTING to request meetup location.")

/-- `get_meetup_time`, from the chain's `NextPhaseTimestamp`, current phase and
`PhaseDurations` of ATTESTING. -/
def getMeetupTime (mlocation : Location) (nextPhaseTimestamp : Option UInt64)
    (phase : CeremonyPhaseType) (attestingDuration : Option UInt64) : Except Panic (Option UInt64) := do
  let nextPhaseTimestamp ← unwrap nextPhaseTimestamp
  let attestingStart ← attestingStart debugAssertions phase nextPhaseTimestamp attestingDuration
  let noon ← u64Add debugAssertions attestingStart (oneDay / 2)
  let mtime ← i64Sub debugAssertions (asI64 noon) (lonOffset mlocation)
  pure (some (asU64 mtime))

/-- The meetup time depends on the phase only through the attesting start: in ATTESTING
with next timestamp `t + d` and duration `d` it is the time in ASSIGNING with next
timestamp `t`. -/
theorem getMeetupTime_attesting_eq_assigning (mlocation : Location) (t d : UInt64)
    (dur : Option UInt64) (h : t.toNat + d.toNat < 2 ^ 64) :
    getMeetupTime debugAssertions oneDay lonOffset mlocation (some (t + d)) .attesting (some d) =
      getMeetupTime debugAssertions oneDay lonOffset mlocation (some t) .assigning dur := by
  simp only [getMeetupTime, attestingStart, unwrap_some, bind, Except.bind,
    u64Sub_add_cancel debugAssertions h]
  rfl

/-- Every outcome of `get_meetup_time` once the attesting start `s` is known: with debug
assertions a panic exactly when half a day past `s` leaves `u64` or its difference with the
offset leaves `i64`; otherwise `s + ONE_DAY / 2 - offset` modulo `2^64`, which a release
build returns whatever overflows on the way. -/
theorem getMeetupTime_eq_of_attestingStart (mlocation : Location) (t : UInt64)
    (phase : CeremonyPhaseType) (dur : Option UInt64) (s : UInt64)
    (hs : attestingStart debugAssertions phase t dur = .ok s) :
    getMeetupTime debugAssertions oneDay lonOffset mlocation (some t) phase dur =
      if debugAssertions = true ∧ (2 ^ 64 ≤ s.toNat + (oneDay / 2).toNat ∨
          ¬ FitsI64 (asI64 (s + oneDay / 2) - lonOffset mlocation)) then .error .overflow
      else .ok (some (asU64 ((s.toNat + (oneDay / 2).toNat : Nat) - lonOffset mlocation))) := by
  have hmod : asU64 (wrapI64 (asI64 (s + oneDay / 2) - lonOffset mlocation)) =
      asU64 ((s.toNat + (oneDay / 2).toNat : Nat) - lonOffset mlocation) := by
    have h1 := wrapI64_emod (asI64 (s + oneDay / 2) - lonOffset mlocation)
    have h2 := asI64_emod (s + oneDay / 2)
    have h3 := toNat_add_u64 s (oneDay / 2)
    exact asU64_congr (by omega)
  simp only [getMeetupTime, unwrap_some, hs, bind, Except.bind, u64Add, i64Sub, overflowChecked]
  by_cases ho : debugAssertions = true ∧ 2 ^ 64 ≤ s.toNat + (oneDay / 2).toNat
  · rw [if_pos ho, if_pos ⟨ho.1, .inl ho.2⟩]
  rw [if_neg ho]
  dsimp only
  by_cases hf : debugAssertions = true ∧ ¬ FitsI64 (asI64 (s + oneDay / 2) - lonOffset mlocation)
  · rw [if_pos hf, if_pos ⟨hf.1, .inr hf.2⟩]
  rw [if_neg hf, if_neg (show ¬ (_ ∧ (_ ∨ _)) from fun h => h.2.elim (ho ⟨h.1, ·⟩) (hf ⟨h.1, ·⟩)),
    ← hmod]
  rfl

end MeetupTime

theorem getMeetupTime_attesting_at_one_day :
    getMeetupTime false 86400000 (fun _ => 0) ⟨0, 0⟩ (some (1000 + 600)) .attesting (some 600) =
      getMeetupTime false 86400000 (fun _ => 0) ⟨0, 0⟩ (some 1000) .assigning none :=
  getMeetupTime_attesting_eq_assigning false 86400000 _ ⟨0, 0⟩ 1000 600 none (by decide)

theorem getMeetupTime_wraps_in_release :
    getMeetupTime false 86400000 (fun _ => 0) ⟨0, 0⟩ (some 18446744073709551615) .assigning none =
      .ok (some 43199999) :=
  (getMeetupTime_eq_of_attestingStart false 86400000 (fun _ => 0) ⟨0, 0⟩ 18446744073709551615
    .assigning none 18446744073709551615 rfl).trans rfl

/-! ## The `new-claim` command -/

/-- `ClaimOfAttendance<AccountId, Moment>`. -/
structure ClaimOfAttendance where
  claimantPublic : AccountId
  currencyIdentifier : CurrencyIdentifier
  ceremonyIndex : UInt32
  meetupIndex : UInt64
  location : Location
  timestamp : UInt64
  numberOfParticipantsConfirmed : UInt32
  deriving DecidableEq

section NewClaim

variable (debugAssertions : Bool) (oneDay : UInt64) (lonOffset : Location → Int)

/-- The runner of `new-claim`, for the claimant `who` named `argWho` on the command line,
from the confirmed count, the shard, the getter's answer and the reads of the public
chain. -/
def newClaim (who : AccountId) (argWho : String) (nParticipants : UInt32)
    (shard : CurrencyIdentifier) (res : Option Bytes) (locations : Option (List Location))
    (nextPhaseTimestamp : Option UInt64) (phase : CeremonyPhaseType)
    (attestingDuration : Option UInt64) (cindex : Option UInt32) : Except Panic ClaimOfAttendance := do
  let (mindex, mlocation) ← match ← getMeetupIndexAndLocation argWho res locations with
    | .ok (m, l) => pure (m, l)
    | .error e => throw (.explicit e)
  let mtime ← getMeetupTime debugAssertions oneDay lonOffset mlocation nextPhaseTimestamp phase
    attestingDuration
  let cindex ← unwrap cindex
  let timestamp ← unwrap mtime
  pure ⟨who, shard, cindex, mindex, mlocation, timestamp, nParticipants⟩

end NewClaim

end EncointerWorker
