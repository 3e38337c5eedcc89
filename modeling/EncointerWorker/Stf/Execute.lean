import EncointerWorker.Fixed
import EncointerWorker.Storage

/-
  Encointer worker: the state-transition function of `sgx.rs` (`Stf::init_state`,
  `update_storage`, `execute`, `get_state`, `get_storage_hashes_to_update`).

  `TrustedCall` and `TrustedGetter` have the variants `sgx.rs` matches on. The runtime's
  dispatch of a call (`EncointerBalances::transfer`,
  `EncointerCeremonies::register_participant`) is not under src/: it is the parameter
  `dispatch`, an update of the store, and its `DispatchResult` is dropped as in the code.

  `execute` reads the stored nonce of the call's account (`0u32.encode()` when absent),
  decodes it as a `u32`, asserts that it equals the submitted nonce, stores `nonce + 1`
  and dispatches. Every panic comes before the first write (`execute_run_of_ne`,
  `execute_run_of_eq`), so a rejected call leaves the store as it was, and an accepted one
  changes only the nonce address before the runtime runs (`execute_nonce_guard`).
-/

namespace EncointerWorker

/-- `ProofOfAttendance<Signature, AccountId32>`, carried through to the runtime. -/
structure ProofOfAttendance where
  proverPublic : AccountId
  currencyIdentifier : CurrencyIdentifier
  ceremonyIndex : UInt32
  attendeePublic : AccountId
  attendeeSignature : Bytes
  deriving DecidableEq

/-- `TrustedCall`, with the variants `Stf::execute` matches on. -/
inductive TrustedCall where
  | balanceTransfer (account dest : AccountId) (cid : CurrencyIdentifier) (value : I64F64)
  | ceremoniesRegisterParticipant (account : AccountId) (cid : CurrencyIdentifier)
      (proof : Option ProofOfAttendance)
  deriving DecidableEq

/-- Modelled from the spec: `TrustedCall::account` is declared in the stf crate's `lib.rs`,
which is not under src/. It is the signer whose nonce the call carries, the first field of
each variant (the CLI signs every call with that account's key). -/
def TrustedCall.account : TrustedCall → AccountId
  | .balanceTransfer account _ _ _ => account
  | .ceremoniesRegisterParticipant account _ _ => account

/-- The runtime calls `execute` dispatches. -/
inductive RuntimeCall where
  | encointerBalancesTransfer (dest : AccountId) (cid : CurrencyIdentifier) (amount : I64F64)
  | encointerCeremoniesRegisterParticipant (cid : CurrencyIdentifier)
      (proof : Option ProofOfAttendance)
  deriving DecidableEq

/-- The runtime: dispatching a call from a signed origin, as an update of the store. -/
abbrev Dispatch := AccountId → RuntimeCall → State → State

/-- The `match call` of `execute`: the signed origin and the runtime call. -/
def TrustedCall.toRuntime : TrustedCall → AccountId × RuntimeCall
  | .balanceTransfer account dest cid value => (account, .encointerBalancesTransfer dest cid value)
  | .ceremoniesRegisterParticipant account cid proof =>
    (account, .encointerCeremoniesRegisterParticipant cid proof)

/-- `TrustedGetter`, with the variant `Stf::get_state` matches on. -/
inductive TrustedGetter where
  | balance (who : AccountId) (cid : CurrencyIdentifier)
  deriving DecidableEq

/-- The store an `execute_with` leaves, whether its closure returned or panicked. -/
def Ext.finalState {α : Type} : EStateM.Result Panic State α → State
  | .ok _ s => s
  | .error _ s => s

section Stf

variable (H : Hashers) (dispatch : Dispatch) (debugAssertions : Bool)

/-- `Stf::init_state`: a new store seeded with default ceremony parameters. -/
def initState : State :=
  Ext.finalState <| EStateM.run (s := State.new) do
    storage.set (storageValueKey H "EncointerCeremonies" "CeremonyReward")
      (encode (I64F64.fromNum 1))
    storage.set (storageValueKey H "EncointerCeremonies" "TimeTolerance") (encode (600000 : UInt64))
    storage.set (storageValueKey H "EncointerCeremonies" "LocationTolerance") (encode (1000 : UInt32))

/-- `Stf::update_storage`: each re-synced pair written into the store. The code iterates a
`HashMap`, whose keys are distinct; the results hold for a list in any order. -/
def updateStorage (s : State) (mapUpdate : List (Bytes × Bytes)) : State :=
  mapUpdate.foldl (fun s kv => s.set kv.1 kv.2) s

/-- `Stf::execute`. -/
def execute (call : TrustedCall) (nonce : UInt32) : Ext Unit := do
  let stored ← storage.get (nonceKeyHash H call.account)
  let current ← Ext.ofExcept (unwrap (decodeU32 (stored.getD (encode (0 : UInt32)))))
  if nonce ≠ current then throw .assertEq
  let next ← Ext.ofExcept (u32Add debugAssertions nonce 1)
  storage.set (nonceKeyHash H call.account) (encode next)
  modify (dispatch call.toRuntime.1 call.toRuntime.2)

/-- `get_encointer_balance`: the stored `BalanceType`, zero when absent or undecodable. -/
def getEncointerBalance (who : AccountId) (cid : CurrencyIdentifier) : Ext I64F64 := do
  match ← storage.get (balanceKey H who cid) with
  | some balvec =>
    match decodeI64F64 balvec with
    | some bal => pure bal
    | none => pure I64F64.zero
  | none => pure I64F64.zero

/-- `Stf::get_state`. -/
def getState : TrustedGetter → Ext (Option Bytes)
  | .balance who cid => do
    let bal ← getEncointerBalance H who cid
    pure (some (encode bal))

/-- `Stf::get_storage_hashes_to_update`: the addresses re-synced from the public chain
before a call. -/
def getStorageHashesToUpdate : TrustedCall → List Bytes
  | .balanceTransfer account _ _ _ => [nonceKeyHash H account]
  | .ceremoniesRegisterParticipant _ _ _ =>
    [storageValueKey H "EncointerScheduler" "CurrentPhase",
      storageValueKey H "EncointerScheduler" "CurrentCeremonyIndex",
      storageValueKey H "EncointerCurrencies" "CurrencyIdentifiers"]

/-- The nonce `execute` compares against: the stored bytes, `0u32` when absent, as a `u32`. -/
def readNonce (s : State) (a : AccountId) : Option UInt32 :=
  decodeU32 ((s.get (nonceKeyHash H a)).getD (encode (0 : UInt32)))

/-- The stored value at `a`'s nonce address rejects `nonce`: absent while `nonce ≠ 0`, not
a `u32`, or another `u32`. -/
def NonceMismatch (s : State) (a : AccountId) (nonce : UInt32) : Prop :=
  (s.get (nonceKeyHash H a) = none ∧ nonce ≠ 0) ∨
  (∃ v, s.get (nonceKeyHash H a) = some v ∧ decodeU32 v = none) ∨
  (∃ v m, s.get (nonceKeyHash H a) = some v ∧ decodeU32 v = some m ∧ m ≠ nonce)

theorem nonceMismatch_iff (s : State) (a : AccountId) (nonce : UInt32) :
    NonceMismatch H s a nonce ↔ readNonce H s a ≠ some nonce := by
  unfold NonceMismatch readNonce
  cases s.get (nonceKeyHash H a) with
  | none => simp [encode, Encode.encode, eq_comm]
  | some v => cases hv : decodeU32 v <;> simp [hv, eq_comm]

/-! ## Store lemmas -/

theorem initState_get_nonceKeyHash (a : AccountId) : (initState H).get (nonceKeyHash H a) = none := by
  simp [initState, Ext.finalState, State.get_set, nonceKeyHash_ne_storageValueKey]

theorem updateStorage_get_of_forall_ne (s : State) (mapUpdate : List (Bytes × Bytes)) {k : Bytes}
    (h : ∀ kv ∈ mapUpdate, kv.1 ≠ k) : (updateStorage s mapUpdate).get k = s.get k := by
  induction mapUpdate generalizing s with
  | nil => rfl
  | cons kv rest ih =>
    rw [updateStorage, List.foldl_cons, ← updateStorage,
      ih _ fun kv' hkv' => h kv' (List.mem_cons_of_mem _ hkv'),
      State.get_set_of_ne _ _ fun he => h kv (List.mem_cons_self _ _) he.symm]

/-- A re-sync writes a nonce address only for a transfer, and only its sender's. -/
theorem nonceKeyHash_mem_getStorageHashesToUpdate (a : AccountId) (call : TrustedCall) :
    nonceKeyHash H a ∈ getStorageHashesToUpdate H call ↔
      ∃ dest cid value, call = .balanceTransfer a dest cid value := by
  cases call with
  | balanceTransfer account dest cid value =>
    simp only [getStorageHashesToUpdate, List.mem_singleton, TrustedCall.balanceTransfer.injEq]
    exact ⟨fun h => ⟨dest, cid, value, (nonceKeyHash_injective H h).symm, rfl, rfl, rfl⟩,
      fun ⟨_, _, _, h, _⟩ => h ▸ rfl⟩
  | ceremoniesRegisterParticipant account cid proof =>
    simp [getStorageHashesToUpdate, nonceKeyHash_ne_storageValueKey]

/-! ## `execute` -/

/-- A submitted nonce other than the stored one panics before any write. -/
theorem execute_run_of_ne (s : State) (call : TrustedCall) (nonce : UInt32)
    (h : readNonce H s call.account ≠ some nonce) :
    ∃ e, (execute H dispatch debugAssertions call nonce).run s = .error e s := by
  unfold readNonce at h
  cases hd : decodeU32 ((s.get (nonceKeyHash H call.account)).getD (encode (0 : UInt32))) with
  | none => exact ⟨.unwrap, by simp [execute, hd]⟩
  | some current =>
    have hne : nonce ≠ current := fun he => h (he ▸ hd)
    exact ⟨.assertEq, by simp [execute, hd, hne]⟩

/-- The stored nonce submitted: the sum panics before any write exactly at `u32::MAX` with
debug assertions; otherwise `nonce + 1` is stored and the runtime dispatches. -/
theorem execute_run_of_eq (s : State) (call : TrustedCall) (nonce : UInt32)
    (h : readNonce H s call.account = some nonce) :
    (execute H dispatch debugAssertions call nonce).run s =
      if debugAssertions = true ∧ nonce = u32Max then .error .overflow s
      else .ok () (dispatch call.toRuntime.1 call.toRuntime.2
        (s.set (nonceKeyHash H call.account) (encode (nonce + 1)))) := by
  unfold readNonce at h
  simp only [execute, run_get_bind, h, unwrap_some, run_ofExcept_ok_bind, ne_eq, not_true_eq_false,
    if_false, run_pure_bind, u32Add_one]
  split <;> rfl

/-- A call whose nonce the store rejects (absent and nonzero, not a `u32`, or another
`u32`) panics before any write, leaving the store as it was. Otherwise, with debug
assertions, the nonce `u32::MAX` panics at `nonce + 1`, also before any write; every other
nonce is accepted, and the nonce address is the only one that differs when the runtime is
dispatched. -/
theorem execute_nonce_guard (s : State) (call : TrustedCall) (nonce : UInt32) :
    (NonceMismatch H s call.account nonce →
      ∃ e, (execute H dispatch debugAssertions call nonce).run s = .error e s) ∧
    (¬ NonceMismatch H s call.account nonce →
      if debugAssertions = true ∧ nonce = u32Max then
        (execute H dispatch debugAssertions call nonce).run s = .error .overflow s
      else ∃ s', (∀ k, k ≠ nonceKeyHash H call.account → s'.get k = s.get k) ∧
        (execute H dispatch debugAssertions call nonce).run s =
          .ok () (dispatch call.toRuntime.1 call.toRuntime.2 s')) := by
  refine ⟨fun h => execute_run_of_ne H dispatch debugAssertions s call nonce
    ((nonceMismatch_iff H s _ nonce).1 h), fun h => ?_⟩
  rw [nonceMismatch_iff, not_not] at h
  rw [execute_run_of_eq H dispatch debugAssertions s call nonce h]
  by_cases hmax : debugAssertions = true ∧ nonce = u32Max
  · rw [if_pos hmax, if_pos hmax]
  · rw [if_neg hmax, if_neg hmax]
    exact ⟨_, fun k hk => s.get_set_of_ne _ hk, rfl⟩

end Stf

end EncointerWorker
