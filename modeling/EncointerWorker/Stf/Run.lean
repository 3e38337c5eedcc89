import EncointerWorker.Stf.Execute
import Mathlib.Data.List.Nodup

/-
  Encointer worker: runs of the state-transition function from `Stf::init_state`.

  A run is a list of signed calls, each executed in turn (`executeRun`), or a list of
  requests, each re-syncing some addresses from the public chain with `update_storage`
  before it executes (`requestRun`). The world records the `(account, nonce)` pairs
  `execute` accepted. The runtime is assumed never to write a nonce address
  (`KeepsNonces`).

  Invariant (`NonceInvAt`, for one account; `NonceInv`, for every account): after `k`
  accepted calls of an account its nonce address is empty when `k = 0` and holds `k` as a
  `u32` otherwise, the nonces accepted for it are `0, 1, ..., k - 1` as `u32`s, and with
  debug assertions `k < 2^32`. Every step keeps each account's invariant, whoever sent the
  call (`executeStep_invAt`), and the world-wide lemmas follow from it. A step accepts a call
  exactly when its nonce is `k` as a `u32` and, with debug assertions, not `u32::MAX`
  (`execute_run_nonce_invariant`). In a release build `k` is stored modulo `2^32`: after `2^32`
  calls the nonce `0` is accepted again (`release_nonce_wraps`).

  What the guard is for is a counter per account that a call must carry to be accepted
  (`counterStep`); the store-level worker refines that machine, its accepted calls per
  account being the counters (`executeRun_refines_counters`).

  A re-sync may write a nonce address: `get_storage_hashes_to_update` lists the sender's
  for a transfer, and whatever the public chain holds there is then the nonce the next call
  must carry (`resync_nonce_accepts`, `transfer_resync_replays`). Without such re-syncs, and
  below `2^32` calls of an account, no `(account, nonce)` pair is accepted twice
  (`no_replay_without_nonce_resync`).
-/

namespace EncointerWorker

/-- A shard's worker over a run: its store, and the `(account, nonce)` pairs `execute`
accepted, in order. -/
structure World where
  state : State
  accepted : List (AccountId × UInt32)

/-- A signed call as the worker handles it: the re-synced public values, then `execute`. -/
structure Request where
  call : TrustedCall
  nonce : UInt32
  update : List (Bytes × Bytes)

/-- The nonces accepted for `a`, in order. -/
def acceptedNonces (a : AccountId) (log : List (AccountId × UInt32)) : List UInt32 :=
  (log.filter fun p => p.1 = a).map Prod.snd

/-- The number of calls of `a` accepted. -/
def acceptedCount (a : AccountId) (log : List (AccountId × UInt32)) : Nat :=
  (acceptedNonces a log).length

/-- What `a`'s nonce address holds after `k` accepted calls. -/
def storedNonce (k : Nat) : Option Bytes := if k = 0 then none else some (encode (UInt32.ofNat k))

theorem acceptedNonces_append_self (a : AccountId) (log : List (AccountId × UInt32)) (n : UInt32) :
    acceptedNonces a (log ++ [(a, n)]) = acceptedNonces a log ++ [n] := by
  simp [acceptedNonces, List.filter_append]

theorem acceptedNonces_append_of_ne {a b : AccountId} (log : List (AccountId × UInt32)) (n : UInt32)
    (h : b ≠ a) : acceptedNonces a (log ++ [(b, n)]) = acceptedNonces a log := by
  simp [acceptedNonces, List.filter_append, h]

theorem acceptedCount_le_length (a : AccountId) (log : List (AccountId × UInt32)) :
    acceptedCount a log ≤ log.length := by
  rw [acceptedCount, acceptedNonces, List.length_map]
  exact List.length_filter_le _ _

theorem readNonce_of_storedNonce (H : Hashers) {s : State} {a : AccountId} {k : Nat}
    (h : s.get (nonceKeyHash H a) = storedNonce k) : readNonce H s a = some (UInt32.ofNat k) := by
  unfold readNonce storedNonce at *
  split at h <;> simp_all [encode, Encode.encode]

theorem acceptedCount_append (a b : AccountId) (log : List (AccountId × UInt32)) (n : UInt32) :
    acceptedCount a (log ++ [(b, n)]) = acceptedCount a log + if b = a then 1 else 0 := by
  by_cases h : b = a
  · subst h; simp [acceptedCount, acceptedNonces_append_self]
  · simp [acceptedCount, acceptedNonces_append_of_ne _ _ h, h]

section Runs

variable (H : Hashers) (dispatch : Dispatch) (debugAssertions : Bool)

/-- The runtime never writes a nonce address (a `System::Account` entry). -/
def KeepsNonces : Prop :=
  ∀ origin call s a, (dispatch origin call s).get (nonceKeyHash H a) = s.get (nonceKeyHash H a)

/-- `execute` returns for the call `c` on the store `s`. -/
def Accepts (s : State) (c : TrustedCall × UInt32) : Prop :=
  readNonce H s c.1.account = some c.2 ∧ ¬ (debugAssertions = true ∧ c.2 = u32Max)

/-- The world of a freshly initialised shard. -/
def World.init : World := ⟨initState H, []⟩

/-- One `Stf::execute`: an accepted call is logged; a panic keeps the store it left. -/
def executeStep (w : World) (c : TrustedCall × UInt32) : World :=
  match (execute H dispatch debugAssertions c.1 c.2).run w.state with
  | .ok _ s => ⟨s, w.accepted ++ [(c.1.account, c.2)]⟩
  | .error _ s => ⟨s, w.accepted⟩

/-- One request: `Stf::update_storage` with the re-synced values, then `Stf::execute`. -/
def handleRequest (w : World) (r : Request) : World :=
  executeStep H dispatch debugAssertions ⟨updateStorage w.state r.update, w.accepted⟩
    (r.call, r.nonce)

/-- A run of `execute` steps from `Stf::init_state`. -/
def executeRun (calls : List (TrustedCall × UInt32)) : World :=
  calls.foldl (executeStep H dispatch debugAssertions) (World.init H)

/-- A run of requests from `Stf::init_state`. -/
def requestRun (requests : List Request) : World :=
  requests.foldl (handleRequest H dispatch debugAssertions) (World.init H)

/-- The nonce invariant of one account `a`: its nonce address holds its count of accepted
calls as `storedNonce` says, its accepted nonces are `0, 1, ...` as `u32`s, and with debug
assertions the count is below `2^32`. -/
structure NonceInvAt (a : AccountId) (w : World) : Prop where
  stored : w.state.get (nonceKeyHash H a) = storedNonce (acceptedCount a w.accepted)
  nonces : acceptedNonces a w.accepted =
    (List.range (acceptedCount a w.accepted)).map UInt32.ofNat
  bounded : debugAssertions = true → acceptedCount a w.accepted < 2 ^ 32

/-- The nonce invariant of a world: every account's. -/
def NonceInv (w : World) : Prop := ∀ a, NonceInvAt H debugAssertions a w

theorem executeStep_of_accepts {w : World} {c : TrustedCall × UInt32}
    (h : Accepts H debugAssertions w.state c) :
    executeStep H dispatch debugAssertions w c =
      ⟨dispatch c.1.toRuntime.1 c.1.toRuntime.2
        (w.state.set (nonceKeyHash H c.1.account) (encode (c.2 + 1))),
        w.accepted ++ [(c.1.account, c.2)]⟩ := by
  rw [executeStep, execute_run_of_eq H dispatch debugAssertions _ _ _ h.1, if_neg h.2]

theorem executeStep_of_not_accepts {w : World} {c : TrustedCall × UInt32}
    (h : ¬ Accepts H debugAssertions w.state c) : executeStep H dispatch debugAssertions w c = w := by
  by_cases hr : readNonce H w.state c.1.account = some c.2
  · have hmax : debugAssertions = true ∧ c.2 = u32Max := by
      by_contra hm; exact h ⟨hr, hm⟩
    rw [executeStep, execute_run_of_eq H dispatch debugAssertions _ _ _ hr, if_pos hmax]
  · obtain ⟨e, he⟩ := execute_run_of_ne H dispatch debugAssertions w.state c.1 c.2 hr
    rw [executeStep, he]

theorem nonceInvAt_init (a : AccountId) : NonceInvAt H debugAssertions a (World.init H) :=
  ⟨initState_get_nonceKeyHash H a, rfl, fun _ => by
    simp [acceptedCount, acceptedNonces, World.init]⟩

theorem nonceInv_init : NonceInv H debugAssertions (World.init H) :=
  nonceInvAt_init H debugAssertions

/-- Under its account's invariant, the step accepts exactly the call carrying the account's
count. -/
theorem accepts_iff {w : World} (c : TrustedCall × UInt32)
    (hw : NonceInvAt H debugAssertions c.1.account w) :
    Accepts H debugAssertions w.state c ↔
      c.2 = UInt32.ofNat (acceptedCount c.1.account w.accepted) ∧
        ¬ (debugAssertions = true ∧ c.2 = u32Max) := by
  rw [Accepts, readNonce_of_storedNonce H hw.stored, Option.some.injEq, eq_comm]

/-- Every `execute` step keeps one account's invariant, whoever sent the call: an accepted
call moves its account's count from `k` to `k + 1` and no other. -/
theorem executeStep_invAt (hd : KeepsNonces H dispatch) {a : AccountId} {w : World}
    (hw : NonceInvAt H debugAssertions a w) (c : TrustedCall × UInt32) :
    NonceInvAt H debugAssertions a (executeStep H dispatch debugAssertions w c) := by
  by_cases ha : Accepts H debugAssertions w.state c
  swap
  · rwa [executeStep_of_not_accepts H dispatch debugAssertions ha]
  rw [executeStep_of_accepts H dispatch debugAssertions ha]
  by_cases hac : c.1.account = a
  · subst hac
    obtain ⟨hn, hmax⟩ := (accepts_iff H debugAssertions c hw).1 ha
    refine ⟨?_, ?_, fun hdb => ?_⟩ <;> dsimp only <;> rw [acceptedCount_append, if_pos rfl]
    · rw [hd, State.get_set_self, hn, ofNat_add_one_u32, storedNonce, if_neg (by omega)]
    · rw [acceptedNonces_append_self, hw.nonces, List.range_succ, List.map_append, hn]; rfl
    · have hk := hw.bounded hdb
      have hne : acceptedCount c.1.account w.accepted ≠ 2 ^ 32 - 1 := fun he =>
        hmax ⟨hdb, hn.trans ((ofNat_eq_u32Max_iff hk).2 he)⟩
      omega
  · refine ⟨?_, ?_, fun hdb => ?_⟩ <;> dsimp only <;>
      rw [acceptedCount_append, if_neg hac, Nat.add_zero]
    · rw [hd, State.get_set_of_ne _ _ fun he => hac (nonceKeyHash_injective H he).symm, hw.stored]
    · rw [acceptedNonces_append_of_ne _ _ hac, hw.nonces]
    · exact hw.bounded hdb

theorem executeStep_inv (hd : KeepsNonces H dispatch) {w : World}
    (hw : NonceInv H debugAssertions w) (c : TrustedCall × UInt32) :
    NonceInv H debugAssertions (executeStep H dispatch debugAssertions w c) :=
  fun a => executeStep_invAt H dispatch debugAssertions hd (hw a) c

theorem foldl_executeStep_inv (hd : KeepsNonces H dispatch) (calls : List (TrustedCall × UInt32))
    {w : World} (hw : NonceInv H debugAssertions w) :
    NonceInv H debugAssertions (calls.foldl (executeStep H dispatch debugAssertions) w) := by
  induction calls generalizing w with
  | nil => exact hw
  | cons c calls ih => exact ih (executeStep_inv H dispatch debugAssertions hd hw c)

/-- After every run of `execute` steps from `Stf::init_state`: `a`'s nonce address is empty
before its first accepted call and holds the count of its accepted calls as a `u32` after,
its accepted nonces are `0, 1, ...` as `u32`s (below `2^32` calls with debug assertions),
and the next step accepts exactly the call carrying that count, unless debug assertions are
on and it is `u32::MAX`. -/
theorem execute_run_nonce_invariant (hd : KeepsNonces H dispatch)
    (calls : List (TrustedCall × UInt32)) (c : TrustedCall × UInt32) :
    NonceInv H debugAssertions (executeRun H dispatch debugAssertions calls) ∧
    (executeStep H dispatch debugAssertions (executeRun H dispatch debugAssertions calls) c).accepted =
      if c.2 = UInt32.ofNat
          (acceptedCount c.1.account (executeRun H dispatch debugAssertions calls).accepted) ∧
          ¬ (debugAssertions = true ∧ c.2 = u32Max)
      then (executeRun H dispatch debugAssertions calls).accepted ++ [(c.1.account, c.2)]
      else (executeRun H dispatch debugAssertions calls).accepted := by
  have hw : NonceInv H debugAssertions (executeRun H dispatch debugAssertions calls) :=
    foldl_executeStep_inv H dispatch debugAssertions hd calls (nonceInv_init H debugAssertions)
  refine ⟨hw, ?_⟩
  split
  · rw [executeStep_of_accepts H dispatch debugAssertions
      ((accepts_iff H debugAssertions c (hw _)).2 ‹_›)]
  · rw [executeStep_of_not_accepts H dispatch debugAssertions
      (mt (accepts_iff H debugAssertions c (hw _)).1 ‹_›)]

theorem nonce_invariant_after_two_transfers :
    NonceInv Hashers.zeros false (executeRun Hashers.zeros (fun _ _ s => s) false
      [(.balanceTransfer Bytes32.zero Bytes32.zero Bytes32.zero I64F64.zero, 0),
        (.balanceTransfer Bytes32.zero Bytes32.zero Bytes32.zero I64F64.zero, 1)]) :=
  (execute_run_nonce_invariant Hashers.zeros (fun _ _ s => s) false (fun _ _ _ _ => rfl)
    [(.balanceTransfer Bytes32.zero Bytes32.zero Bytes32.zero I64F64.zero, 0),
      (.balanceTransfer Bytes32.zero Bytes32.zero Bytes32.zero I64F64.zero, 1)]
    (.balanceTransfer Bytes32.zero Bytes32.zero Bytes32.zero I64F64.zero, 2)).1

/-! ## The counter machine the guard implements -/

/-- What the nonce guard is for: one counter per account, and a call is accepted, moving its
account's counter on, exactly when it carries that counter as a `u32` (with debug
assertions, never `u32::MAX`). -/
def counterStep (n : AccountId → Nat) (c : TrustedCall × UInt32) : AccountId → Nat :=
  if c.2 = UInt32.ofNat (n c.1.account) ∧ ¬ (debugAssertions = true ∧ c.2 = u32Max) then
    fun a => n a + if c.1.account = a then 1 else 0
  else n

theorem executeStep_refines_counterStep {w : World} (hw : NonceInv H debugAssertions w)
    {n : AccountId → Nat} (hn : ∀ a, acceptedCount a w.accepted = n a)
    (c : TrustedCall × UInt32) (a : AccountId) :
    acceptedCount a (executeStep H dispatch debugAssertions w c).accepted =
      counterStep debugAssertions n c a := by
  have hacc := accepts_iff H debugAssertions c (hw _)
  rw [hn] at hacc
  unfold counterStep
  split
  · rename_i ha
    rw [executeStep_of_accepts H dispatch debugAssertions (hacc.2 ha), acceptedCount_append, hn]
  · rename_i ha
    rw [executeStep_of_not_accepts H dispatch debugAssertions (mt hacc.1 ha), hn]

/-- The store-level worker refines the counter machine: after every run of `execute` steps
from `Stf::init_state`, each account's number of accepted calls is its counter after the
same calls from all-zero counters. -/
theorem executeRun_refines_counters (hd : KeepsNonces H dispatch)
    (calls : List (TrustedCall × UInt32)) (a : AccountId) :
    acceptedCount a (executeRun H dispatch debugAssertions calls).accepted =
      calls.foldl (counterStep debugAssertions) (fun _ => 0) a := by
  suffices ∀ (w : World) (n : AccountId → Nat), NonceInv H debugAssertions w →
      (∀ a, acceptedCount a w.accepted = n a) → ∀ a,
      acceptedCount a (calls.foldl (executeStep H dispatch debugAssertions) w).accepted =
        calls.foldl (counterStep debugAssertions) n a from
    this _ _ (nonceInv_init H debugAssertions) (fun _ => rfl) a
  induction calls with
  | nil => intro w n _ hn; exact hn
  | cons c calls ih =>
    intro w n hw hn
    exact ih _ _ (executeStep_inv H dispatch debugAssertions hd hw c)
      (executeStep_refines_counterStep H dispatch debugAssertions hw hn c)

theorem executeRun_refines_counters_two_transfers :
    acceptedCount Bytes32.zero (executeRun Hashers.zeros (fun _ _ s => s) false
      [(.balanceTransfer Bytes32.zero Bytes32.zero Bytes32.zero I64F64.zero, 0),
        (.balanceTransfer Bytes32.zero Bytes32.zero Bytes32.zero I64F64.zero, 0)]).accepted =
      [(.balanceTransfer Bytes32.zero Bytes32.zero Bytes32.zero I64F64.zero, 0),
        (.balanceTransfer Bytes32.zero Bytes32.zero Bytes32.zero I64F64.zero, 0)].foldl
        (counterStep false) (fun _ => 0) Bytes32.zero :=
  executeRun_refines_counters Hashers.zeros (fun _ _ s => s) false (fun _ _ _ _ => rfl) _ _

/-! ## Re-syncs -/

/-- A re-sync that writes no nonce address of `a` keeps `a`'s invariant. -/
theorem nonceInvAt_updateStorage {a : AccountId} {w : World}
    (hw : NonceInvAt H debugAssertions a w) {mapUpdate : List (Bytes × Bytes)}
    (hr : ∀ kv ∈ mapUpdate, kv.1 ≠ nonceKeyHash H a) :
    NonceInvAt H debugAssertions a ⟨updateStorage w.state mapUpdate, w.accepted⟩ :=
  ⟨(updateStorage_get_of_forall_ne w.state mapUpdate hr).trans hw.stored, hw.nonces, hw.bounded⟩

theorem nonceInv_updateStorage {w : World} (hw : NonceInv H debugAssertions w)
    {mapUpdate : List (Bytes × Bytes)} (hr : ∀ kv ∈ mapUpdate, ∀ a, kv.1 ≠ nonceKeyHash H a) :
    NonceInv H debugAssertions ⟨updateStorage w.state mapUpdate, w.accepted⟩ :=
  fun a => nonceInvAt_updateStorage H debugAssertions (hw a) fun kv hkv => hr kv hkv a

theorem handleRequest_invAt (hd : KeepsNonces H dispatch) {a : AccountId} {w : World}
    (hw : NonceInvAt H debugAssertions a w) {r : Request}
    (hr : ∀ kv ∈ r.update, kv.1 ≠ nonceKeyHash H a) :
    NonceInvAt H debugAssertions a (handleRequest H dispatch debugAssertions w r) :=
  executeStep_invAt H dispatch debugAssertions hd (nonceInvAt_updateStorage H debugAssertions hw hr) _

theorem handleRequest_inv (hd : KeepsNonces H dispatch) {w : World}
    (hw : NonceInv H debugAssertions w) {r : Request}
    (hr : ∀ kv ∈ r.update, ∀ a, kv.1 ≠ nonceKeyHash H a) :
    NonceInv H debugAssertions (handleRequest H dispatch debugAssertions w r) :=
  fun a => handleRequest_invAt H dispatch debugAssertions hd (hw a) fun kv hkv => hr kv hkv a

/-- Whatever happened before, re-syncing the sender's nonce address with a public value
that encodes `n` makes `execute` accept the call with nonce `n`. -/
theorem resync_nonce_accepts (w : World) (r : Request)
    (hr : r.update = [(nonceKeyHash H r.call.account, encode r.nonce)])
    (hmax : ¬ (debugAssertions = true ∧ r.nonce = u32Max)) :
    (handleRequest H dispatch debugAssertions w r).accepted =
      w.accepted ++ [(r.call.account, r.nonce)] := by
  have ha : Accepts H debugAssertions (updateStorage w.state r.update) (r.call, r.nonce) :=
    ⟨by simp [hr, updateStorage, readNonce, encode, Encode.encode], hmax⟩
  rw [handleRequest, executeStep_of_accepts H dispatch debugAssertions ha]

/-- Over requests whose re-syncs never write `a`'s nonce address, `a` keeps its invariant,
whatever the other accounts send and re-sync. -/
theorem foldl_handleRequest_invAt (hd : KeepsNonces H dispatch) {a : AccountId}
    (requests : List Request) (hsync : ∀ r ∈ requests, ∀ kv ∈ r.update, kv.1 ≠ nonceKeyHash H a)
    {w : World} (hw : NonceInvAt H debugAssertions a w) :
    NonceInvAt H debugAssertions a (requests.foldl (handleRequest H dispatch debugAssertions) w) := by
  induction requests generalizing w with
  | nil => exact hw
  | cons r requests ih =>
    exact ih (fun r' hr' => hsync r' (List.mem_cons_of_mem _ hr'))
      (handleRequest_invAt H dispatch debugAssertions hd hw (hsync r (List.mem_cons_self _ _)))

theorem nonceInv_requestRun (hd : KeepsNonces H dispatch) (requests : List Request)
    (hsync : ∀ r ∈ requests, ∀ kv ∈ r.update, ∀ a, kv.1 ≠ nonceKeyHash H a) {w : World}
    (hw : NonceInv H debugAssertions w) :
    NonceInv H debugAssertions (requests.foldl (handleRequest H dispatch debugAssertions) w) :=
  fun a => foldl_handleRequest_invAt H dispatch debugAssertions hd requests
    (fun r hr kv hkv => hsync r hr kv hkv a) (hw a)

/-- Each request adds at most one pair to the log. -/
theorem foldl_handleRequest_length_le (requests : List Request) (w : World) :
    (requests.foldl (handleRequest H dispatch debugAssertions) w).accepted.length ≤
      w.accepted.length + requests.length := by
  induction requests generalizing w with
  | nil => exact Nat.le_refl _
  | cons r requests ih =>
    have hstep : (handleRequest H dispatch debugAssertions w r).accepted.length ≤
        w.accepted.length + 1 := by
      unfold handleRequest executeStep
      split <;> simp
    have := ih (handleRequest H dispatch debugAssertions w r)
    rw [List.foldl_cons, List.length_cons]
    omega

theorem acceptedNonces_cons (a : AccountId) (p : AccountId × UInt32) (log : List (AccountId × UInt32)) :
    acceptedNonces a (p :: log) =
      if p.1 = a then p.2 :: acceptedNonces a log else acceptedNonces a log := by
  by_cases h : p.1 = a <;> simp [acceptedNonces, List.filter_cons, h]

/-- A log is free of repeats when each account's accepted nonces are. -/
theorem nodup_of_acceptedNonces_nodup (log : List (AccountId × UInt32))
    (h : ∀ a, (acceptedNonces a log).Nodup) : log.Nodup := by
  induction log with
  | nil => exact List.nodup_nil
  | cons p rest ih =>
    have hp := h p.1
    rw [acceptedNonces_cons, if_pos rfl, List.nodup_cons] at hp
    refine List.nodup_cons.2 ⟨fun hmem => hp.1 (List.mem_map.2
      ⟨p, List.mem_filter.2 ⟨hmem, by simp⟩, rfl⟩), ih fun a => ?_⟩
    have ha := h a
    rw [acceptedNonces_cons] at ha
    split at ha
    · exact (List.nodup_cons.1 ha).2
    · exact ha

variable {H debugAssertions} in
/-- Below `2^32` calls, the nonces the invariant gives an account, `0, 1, ...` as `u32`s, are
distinct. -/
theorem NonceInvAt.nonces_nodup {a : AccountId} {w : World} (hw : NonceInvAt H debugAssertions a w)
    (hk : acceptedCount a w.accepted < 2 ^ 32) : (acceptedNonces a w.accepted).Nodup := by
  rw [hw.nonces]
  refine (List.nodup_range _).map_on fun x hx y hy hxy => ?_
  have hx' := List.mem_range.1 hx
  have hy' := List.mem_range.1 hy
  have := congrArg UInt32.toNat hxy
  rwa [toNat_ofNat_u32, toNat_ofNat_u32, Nat.mod_eq_of_lt (by omega),
    Nat.mod_eq_of_lt (by omega)] at this

variable {H debugAssertions} in
/-- The count is below `2^32` in either build: by the invariant with debug assertions, by
the hypothesis without. -/
theorem NonceInvAt.count_lt {a : AccountId} {w : World} (hw : NonceInvAt H debugAssertions a w)
    (hcount : debugAssertions = false → acceptedCount a w.accepted < 2 ^ 32) :
    acceptedCount a w.accepted < 2 ^ 32 := by
  cases debugAssertions
  · exact hcount rfl
  · exact hw.bounded rfl

/-- Below `2^32` calls per account, the invariant makes every accepted pair distinct. -/
theorem accepted_nodup {w : World} (hw : NonceInv H debugAssertions w)
    (hk : ∀ a, acceptedCount a w.accepted < 2 ^ 32) : w.accepted.Nodup :=
  nodup_of_acceptedNonces_nodup _ fun a => (hw a).nonces_nodup (hk a)

/-- In every run of requests from `Stf::init_state` whose re-syncs write no nonce address,
with fewer than `2^32` accepted calls per account in a release build, no `(account, nonce)`
pair is accepted twice. -/
theorem no_replay_without_nonce_resync (hd : KeepsNonces H dispatch) (requests : List Request)
    (hsync : ∀ r ∈ requests, ∀ kv ∈ r.update, ∀ a, kv.1 ≠ nonceKeyHash H a)
    (hcount : debugAssertions = false →
      ∀ a, acceptedCount a (requestRun H dispatch debugAssertions requests).accepted < 2 ^ 32) :
    (requestRun H dispatch debugAssertions requests).accepted.Nodup := by
  have hw : NonceInv H debugAssertions (requestRun H dispatch debugAssertions requests) :=
    nonceInv_requestRun H dispatch debugAssertions hd requests hsync (nonceInv_init H debugAssertions)
  exact accepted_nodup H debugAssertions hw fun a => (hw a).count_lt fun h => hcount h a

theorem no_replay_transfers_around_registration :
    (requestRun Hashers.zeros (fun _ _ s => s) false
      [⟨.balanceTransfer Bytes32.zero Bytes32.zero Bytes32.zero I64F64.zero, 0, []⟩,
        ⟨.ceremoniesRegisterParticipant Bytes32.zero Bytes32.zero none, 1,
          [(storageValueKey Hashers.zeros "EncointerScheduler" "CurrentPhase", [1]),
            (storageValueKey Hashers.zeros "EncointerScheduler" "CurrentCeremonyIndex",
              encode (1 : UInt32)),
            (storageValueKey Hashers.zeros "EncointerCurrencies" "CurrencyIdentifiers", [0])]⟩,
        ⟨.balanceTransfer Bytes32.zero Bytes32.zero Bytes32.zero I64F64.zero, 2, []⟩]).accepted.Nodup :=
  no_replay_without_nonce_resync Hashers.zeros (fun _ _ s => s) false (fun _ _ _ _ => rfl) _
    (by
      simp only [List.mem_cons, List.mem_singleton, ne_eq, Prod.forall, forall_eq_or_imp,
        List.not_mem_nil, IsEmpty.forall_iff, implies_true, Prod.mk.injEq, forall_eq, and_true,
        true_and, or_false]
      rintro _ _ (⟨rfl, -⟩ | ⟨rfl, -⟩ | ⟨rfl, -⟩) a h <;>
        exact nonceKeyHash_ne_storageValueKey _ a _ _ h.symm)
    fun _ _ => lt_of_le_of_lt ((acceptedCount_le_length _ _).trans
      (foldl_handleRequest_length_le _ _ _ _ _)) (by decide)

/-- In a release build the run of `n` calls of one account carrying `0, 1, ..., n - 1` as
`u32`s is accepted throughout. -/
theorem release_run_accepts_all (hd : KeepsNonces H dispatch) (call : TrustedCall) (n : Nat) :
    acceptedCount call.account
      (executeRun H dispatch false ((List.range n).map fun i => (call, UInt32.ofNat i))).accepted = n := by
  induction n with
  | zero => simp [executeRun, World.init, acceptedCount, acceptedNonces]
  | succ n ih =>
    have hw : NonceInv H false (executeRun H dispatch false
        ((List.range n).map fun i => (call, UInt32.ofNat i))) :=
      foldl_executeStep_inv H dispatch false hd _ (nonceInv_init H false)
    have ha : Accepts H false (executeRun H dispatch false
        ((List.range n).map fun i => (call, UInt32.ofNat i))).state (call, UInt32.ofNat n) :=
      (accepts_iff H false _ (hw _)).2 ⟨by rw [ih], by simp⟩
    rw [executeRun, List.range_succ, List.map_append, List.foldl_append, ← executeRun,
      List.map_singleton, List.foldl_cons, List.foldl_nil,
      executeStep_of_accepts H dispatch false ha, acceptedCount_append, ih, if_pos rfl]

/-- In a release build, after that run the account's nonce address holds `n` as a `u32` and
the call carrying it is accepted next. -/
theorem release_run_state (hd : KeepsNonces H dispatch) (call : TrustedCall) (n : Nat) :
    acceptedCount call.account
        (executeRun H dispatch false ((List.range n).map fun i => (call, UInt32.ofNat i))).accepted = n ∧
      readNonce H (executeRun H dispatch false
        ((List.range n).map fun i => (call, UInt32.ofNat i))).state call.account = some (UInt32.ofNat n) ∧
      (executeStep H dispatch false (executeRun H dispatch false
        ((List.range n).map fun i => (call, UInt32.ofNat i))) (call, UInt32.ofNat n)).accepted =
        (executeRun H dispatch false ((List.range n).map fun i => (call, UInt32.ofNat i))).accepted ++
          [(call.account, UInt32.ofNat n)] := by
  have hcount := release_run_accepts_all H dispatch hd call n
  have hw := execute_run_nonce_invariant H dispatch false hd
    ((List.range n).map fun i => (call, UInt32.ofNat i)) (call, UInt32.ofNat n)
  refine ⟨hcount, ?_, ?_⟩
  · rw [readNonce_of_storedNonce H (hw.1 _).stored, hcount]
  · rw [hw.2, if_pos ⟨by rw [hcount], by simp⟩]

end Runs

/-- A transfer re-syncs its sender's nonce address from the public chain: with a public
value encoding `0`, the same signed transfer with nonce `0` is accepted twice. -/
theorem transfer_resync_replays :
    (∀ kv ∈ [(nonceKeyHash Hashers.zeros Bytes32.zero, encode (0 : UInt32))],
      kv.1 ∈ getStorageHashesToUpdate Hashers.zeros
        (.balanceTransfer Bytes32.zero Bytes32.zero Bytes32.zero I64F64.zero)) ∧
    (requestRun Hashers.zeros (fun _ _ s => s) false
      [⟨.balanceTransfer Bytes32.zero Bytes32.zero Bytes32.zero I64F64.zero, 0,
          [(nonceKeyHash Hashers.zeros Bytes32.zero, encode (0 : UInt32))]⟩,
        ⟨.balanceTransfer Bytes32.zero Bytes32.zero Bytes32.zero I64F64.zero, 0,
          [(nonceKeyHash Hashers.zeros Bytes32.zero, encode (0 : UInt32))]⟩]).accepted =
      [(Bytes32.zero, 0), (Bytes32.zero, 0)] := by
  refine ⟨by simp [getStorageHashesToUpdate, TrustedCall.account], ?_⟩
  rw [requestRun, List.foldl_cons, List.foldl_cons, List.foldl_nil,
    resync_nonce_accepts _ _ _ _ _ rfl (by simp), resync_nonce_accepts _ _ _ _ _ rfl (by simp)]
  rfl

/-- In a release build the `2^32`-th accepted call of an account stores `0`: after the run
of nonces `0, ..., 2^32 - 1` the stored nonce decodes to `0`, not to the `2^32` calls
accepted, and the nonce `0` is accepted again. -/
theorem release_nonce_wraps :
    acceptedCount Bytes32.zero (executeRun Hashers.zeros (fun _ _ s => s) false
        ((List.range (2 ^ 32)).map fun i =>
          (.balanceTransfer Bytes32.zero Bytes32.zero Bytes32.zero I64F64.zero, UInt32.ofNat i))).accepted =
        2 ^ 32 ∧
      readNonce Hashers.zeros (executeRun Hashers.zeros (fun _ _ s => s) false
        ((List.range (2 ^ 32)).map fun i =>
          (.balanceTransfer Bytes32.zero Bytes32.zero Bytes32.zero I64F64.zero, UInt32.ofNat i))).state
        Bytes32.zero = some 0 ∧
      (executeStep Hashers.zeros (fun _ _ s => s) false (executeRun Hashers.zeros (fun _ _ s => s) false
        ((List.range (2 ^ 32)).map fun i =>
          (.balanceTransfer Bytes32.zero Bytes32.zero Bytes32.zero I64F64.zero, UInt32.ofNat i)))
        (.balanceTransfer Bytes32.zero Bytes32.zero Bytes32.zero I64F64.zero, 0)).accepted =
        (executeRun Hashers.zeros (fun _ _ s => s) false
        ((List.range (2 ^ 32)).map fun i =>
          (.balanceTransfer Bytes32.zero Bytes32.zero Bytes32.zero I64F64.zero, UInt32.ofNat i))).accepted ++
          [(Bytes32.zero, 0)] := by
  have h := release_run_state Hashers.zeros (fun _ _ s => s) (fun _ _ _ _ => rfl)
    (.balanceTransfer Bytes32.zero Bytes32.zero Bytes32.zero I64F64.zero) (2 ^ 32)
  rw [show UInt32.ofNat (2 ^ 32) = 0 from rfl] at h
  exact h

end EncointerWorker
