import EncointerWorker.Stf.Run

/-
  Encointer worker: what the re-sync of public values before each call does to the nonce
  guard, over whole runs of requests.

  `update_storage` writes the re-synced pairs in order, so an address it writes holds the
  last value written there, whatever the store held before (`updateStorage_get_eq_of_mem`).
  A transfer lists its sender's nonce address (`get_storage_hashes_to_update`): when the
  re-sync writes it, `execute` accepts the transfer in one world exactly when in any other,
  whatever calls the worker accepted before (`resynced_request_accepted_iff`). A transfer
  accepted once is then accepted again each time it is resubmitted with the same public
  value, after any requests in between.

  An account whose nonce address no re-sync writes keeps the nonce invariant of
  `Stf.Run` by itself (`NonceInvAt`), whatever the other accounts do. When every re-sync
  writes only addresses `get_storage_hashes_to_update` lists for its call, that is every
  account that sends no transfer: its accepted nonces are `0, 1, ...` as `u32`s and, below
  `2^32` calls, never repeat (`no_replay_without_transfers`).
-/

namespace EncointerWorker

/-- Last write wins: at an address the re-sync writes, the store after it does not depend on
the store before it. -/
theorem updateStorage_get_eq_of_mem {k : Bytes} (mapUpdate : List (Bytes × Bytes))
    (h : k ∈ mapUpdate.map Prod.fst) (s s' : State) :
    (updateStorage s mapUpdate).get k = (updateStorage s' mapUpdate).get k := by
  induction mapUpdate generalizing s s' with
  | nil => cases h
  | cons kv rest ih =>
    simp only [updateStorage, List.foldl_cons] at ih ⊢
    by_cases hk : k ∈ rest.map Prod.fst
    · exact ih hk _ _
    · have hkv : kv.1 = k := ((List.mem_cons.1 h).resolve_right hk).symm
      have hne : ∀ kv' ∈ rest, kv'.1 ≠ k := fun kv' hkv' he => hk (he ▸ List.mem_map_of_mem _ hkv')
      rw [← updateStorage, ← updateStorage, updateStorage_get_of_forall_ne _ _ hne,
        updateStorage_get_of_forall_ne _ _ hne, hkv, State.get_set_self, State.get_set_self]

section Requests

variable (H : Hashers) (dispatch : Dispatch) (debugAssertions : Bool)

/-- A request adds its call to the log exactly when `execute` accepts it on the re-synced
store. -/
theorem handleRequest_accepted_iff (w : World) (r : Request) :
    (handleRequest H dispatch debugAssertions w r).accepted = w.accepted ++ [(r.call.account, r.nonce)] ↔
      Accepts H debugAssertions (updateStorage w.state r.update) (r.call, r.nonce) := by
  let w' : World := ⟨updateStorage w.state r.update, w.accepted⟩
  by_cases ha : Accepts H debugAssertions w'.state (r.call, r.nonce)
  · rw [handleRequest, executeStep_of_accepts H dispatch debugAssertions (w := w') ha]
    exact iff_of_true rfl ha
  · rw [handleRequest, executeStep_of_not_accepts H dispatch debugAssertions (w := w') ha]
    exact iff_of_false (fun h => by simpa using congrArg List.length h) ha

/-- A request whose re-sync writes its sender's nonce address is accepted in one world exactly
when it is accepted in any other, whatever their stores and logs: the check reads the
re-synced value only. -/
theorem resynced_request_accepted_iff (w w' : World) (r : Request)
    (hkey : nonceKeyHash H r.call.account ∈ r.update.map Prod.fst) :
    (handleRequest H dispatch debugAssertions w r).accepted =
        w.accepted ++ [(r.call.account, r.nonce)] ↔
      (handleRequest H dispatch debugAssertions w' r).accepted =
        w'.accepted ++ [(r.call.account, r.nonce)] := by
  rw [handleRequest_accepted_iff, handleRequest_accepted_iff]
  unfold Accepts readNonce
  rw [updateStorage_get_eq_of_mem _ hkey _ w'.state]

end Requests

/-- A transfer re-syncing its sender's nonce to `0` is accepted on a fresh shard exactly when
it is after itself and a transfer with nonce `1`. -/
theorem transfer_accepted_fresh_iff_after_transfer :
    (handleRequest Hashers.zeros (fun _ _ s => s) false (World.init Hashers.zeros)
        ⟨.balanceTransfer Bytes32.zero Bytes32.zero Bytes32.zero I64F64.zero, 0,
          [(nonceKeyHash Hashers.zeros Bytes32.zero, encode (0 : UInt32))]⟩).accepted =
        (World.init Hashers.zeros).accepted ++ [(Bytes32.zero, 0)] ↔
      (handleRequest Hashers.zeros (fun _ _ s => s) false
        (requestRun Hashers.zeros (fun _ _ s => s) false
          [⟨.balanceTransfer Bytes32.zero Bytes32.zero Bytes32.zero I64F64.zero, 0,
            [(nonceKeyHash Hashers.zeros Bytes32.zero, encode (0 : UInt32))]⟩,
            ⟨.balanceTransfer Bytes32.zero Bytes32.zero Bytes32.zero I64F64.zero, 1, []⟩])
        ⟨.balanceTransfer Bytes32.zero Bytes32.zero Bytes32.zero I64F64.zero, 0,
          [(nonceKeyHash Hashers.zeros Bytes32.zero, encode (0 : UInt32))]⟩).accepted =
        (requestRun Hashers.zeros (fun _ _ s => s) false
          [⟨.balanceTransfer Bytes32.zero Bytes32.zero Bytes32.zero I64F64.zero, 0,
            [(nonceKeyHash Hashers.zeros Bytes32.zero, encode (0 : UInt32))]⟩,
            ⟨.balanceTransfer Bytes32.zero Bytes32.zero Bytes32.zero I64F64.zero, 1, []⟩]).accepted ++
          [(Bytes32.zero, 0)] :=
  resynced_request_accepted_iff Hashers.zeros (fun _ _ s => s) false _ _
    ⟨.balanceTransfer Bytes32.zero Bytes32.zero Bytes32.zero I64F64.zero, 0,
      [(nonceKeyHash Hashers.zeros Bytes32.zero, encode (0 : UInt32))]⟩
    (List.mem_singleton_self _)

/-! ## Accounts whose nonce no re-sync writes -/

section Accounts

variable (H : Hashers) (dispatch : Dispatch) (debugAssertions : Bool)

/-- In every run of requests from `Stf::init_state` whose re-syncs write only the addresses
`get_storage_hashes_to_update` lists for their call, an account that sends no transfer keeps
the nonce invariant, and its accepted nonces never repeat (below `2^32` of its calls in a
release build), whatever the other accounts send. -/
theorem no_replay_without_transfers (hd : KeepsNonces H dispatch) (requests : List Request)
    (hkeys : ∀ r ∈ requests, ∀ kv ∈ r.update, kv.1 ∈ getStorageHashesToUpdate H r.call)
    (a : AccountId)
    (hno : ∀ r ∈ requests, ∀ dest cid value, r.call ≠ .balanceTransfer a dest cid value)
    (hcount : debugAssertions = false →
      acceptedCount a (requestRun H dispatch debugAssertions requests).accepted < 2 ^ 32) :
    NonceInvAt H debugAssertions a (requestRun H dispatch debugAssertions requests) ∧
      (acceptedNonces a (requestRun H dispatch debugAssertions requests).accepted).Nodup := by
  have hw : NonceInvAt H debugAssertions a (requestRun H dispatch debugAssertions requests) :=
    foldl_handleRequest_invAt H dispatch debugAssertions hd requests
      (fun r hr kv hkv he => by
        obtain ⟨dest, cid, value, hc⟩ :=
          (nonceKeyHash_mem_getStorageHashesToUpdate H a r.call).1 (he ▸ hkeys r hr kv hkv)
        exact hno r hr dest cid value hc)
      (nonceInvAt_init H debugAssertions a)
  exact ⟨hw, hw.nonces_nodup (hw.count_lt hcount)⟩

end Accounts

/-- Another account's transfers re-sync its nonce to `0` and are replayed, while the
registering account's two calls keep its invariant and its nonces distinct. -/
theorem no_replay_for_registering_account :
    NonceInvAt Hashers.zeros false ⟨List.replicate 32 1, rfl⟩ (requestRun Hashers.zeros (fun _ _ s => s) false
          [⟨.balanceTransfer Bytes32.zero ⟨List.replicate 32 1, rfl⟩ Bytes32.zero I64F64.zero, 0,
            [(nonceKeyHash Hashers.zeros Bytes32.zero, encode (0 : UInt32))]⟩,
          ⟨.ceremoniesRegisterParticipant ⟨List.replicate 32 1, rfl⟩ Bytes32.zero none, 0, []⟩,
          ⟨.balanceTransfer Bytes32.zero ⟨List.replicate 32 1, rfl⟩ Bytes32.zero I64F64.zero, 0,
            [(nonceKeyHash Hashers.zeros Bytes32.zero, encode (0 : UInt32))]⟩,
          ⟨.ceremoniesRegisterParticipant ⟨List.replicate 32 1, rfl⟩ Bytes32.zero none, 1, []⟩]) ∧
      (acceptedNonces ⟨List.replicate 32 1, rfl⟩ (requestRun Hashers.zeros (fun _ _ s => s) false
          [⟨.balanceTransfer Bytes32.zero ⟨List.replicate 32 1, rfl⟩ Bytes32.zero I64F64.zero, 0,
            [(nonceKeyHash Hashers.zeros Bytes32.zero, encode (0 : UInt32))]⟩,
          ⟨.ceremoniesRegisterParticipant ⟨List.replicate 32 1, rfl⟩ Bytes32.zero none, 0, []⟩,
          ⟨.balanceTransfer Bytes32.zero ⟨List.replicate 32 1, rfl⟩ Bytes32.zero I64F64.zero, 0,
            [(nonceKeyHash Hashers.zeros Bytes32.zero, encode (0 : UInt32))]⟩,
          ⟨.ceremoniesRegisterParticipant ⟨List.replicate 32 1, rfl⟩ Bytes32.zero none, 1, []⟩]).accepted).Nodup :=
  no_replay_without_transfers Hashers.zeros (fun _ _ s => s) false (fun _ _ _ _ => rfl) _
    (by simp [getStorageHashesToUpdate, TrustedCall.account]) _
    (fun r hr _ _ _ h => by
      simp only [List.mem_cons, List.mem_singleton, List.not_mem_nil, or_false] at hr
      rcases hr with rfl | rfl | rfl | rfl <;> cases h)
    fun _ => lt_of_le_of_lt ((acceptedCount_le_length _ _).trans
      (foldl_handleRequest_length_le _ _ _ _ _)) (by decide)

/-! ## The register machine the guard and the re-sync implement -/

/-- What replay protection with re-syncs is: each account has a register holding the nonce
its next call must carry (`none` when what it holds is not a `u32`). A re-synced pair
overwrites the register of the account whose nonce address it writes; a call carrying its
account's register (with debug assertions, not `u32::MAX`) is accepted and moves the
register on. -/
structure Registers where
  reg : AccountId → Option UInt32
  accepted : List (AccountId × UInt32)

/-- Every register at `0`, nothing accepted. -/
def Registers.init : Registers := ⟨fun _ => some 0, []⟩

/-- A re-synced pair. -/
def Registers.sync (H : Hashers) (m : Registers) (kv : Bytes × Bytes) : Registers :=
  ⟨fun a => if nonceKeyHash H a = kv.1 then decodeU32 kv.2 else m.reg a, m.accepted⟩

/-- A call with its nonce. -/
def Registers.call (debugAssertions : Bool) (m : Registers) (c : TrustedCall × UInt32) :
    Registers :=
  if m.reg c.1.account = some c.2 ∧ ¬ (debugAssertions = true ∧ c.2 = u32Max) then
    ⟨fun a => if a = c.1.account then some (c.2 + 1) else m.reg a,
      m.accepted ++ [(c.1.account, c.2)]⟩
  else m

/-- A request: its re-synced pairs in order, then its call. -/
def Registers.request (H : Hashers) (debugAssertions : Bool) (m : Registers) (r : Request) :
    Registers :=
  (r.update.foldl (Registers.sync H) m).call debugAssertions (r.call, r.nonce)

section Refinement

variable (H : Hashers) (dispatch : Dispatch) (debugAssertions : Bool)

/-- The worker's world and a state of the machine agree: every account's stored nonce, read
as `execute` reads it, is its register, and the logs are the same. -/
structure Simulates (w : World) (m : Registers) : Prop where
  reg : ∀ a, readNonce H w.state a = m.reg a
  accepted : w.accepted = m.accepted

theorem readNonce_set (s : State) (k v : Bytes) (a : AccountId) :
    readNonce H (s.set k v) a = if nonceKeyHash H a = k then decodeU32 v else readNonce H s a := by
  unfold readNonce
  rw [State.get_set]
  split <;> rfl

theorem updateStorage_simulates {w : World} {m : Registers} (hw : Simulates H w m)
    (mapUpdate : List (Bytes × Bytes)) :
    Simulates H ⟨updateStorage w.state mapUpdate, w.accepted⟩
      (mapUpdate.foldl (Registers.sync H) m) := by
  induction mapUpdate generalizing w m with
  | nil => exact hw
  | cons kv rest ih =>
    exact ih (w := ⟨w.state.set kv.1 kv.2, w.accepted⟩)
      ⟨fun a => by rw [readNonce_set, hw.reg]; rfl, hw.accepted⟩

theorem executeStep_simulates (hd : KeepsNonces H dispatch) {w : World} {m : Registers}
    (hw : Simulates H w m) (c : TrustedCall × UInt32) :
    Simulates H (executeStep H dispatch debugAssertions w c) (m.call debugAssertions c) := by
  have hacc : Accepts H debugAssertions w.state c ↔
      m.reg c.1.account = some c.2 ∧ ¬ (debugAssertions = true ∧ c.2 = u32Max) := by
    rw [Accepts, hw.reg]
  unfold Registers.call
  split
  · rename_i ha
    rw [executeStep_of_accepts H dispatch debugAssertions (hacc.2 ha)]
    refine ⟨fun a => ?_, by rw [hw.accepted]⟩
    have hkeep : readNonce H (dispatch c.1.toRuntime.1 c.1.toRuntime.2
        (w.state.set (nonceKeyHash H c.1.account) (encode (c.2 + 1)))) a =
        readNonce H (w.state.set (nonceKeyHash H c.1.account) (encode (c.2 + 1))) a := by
      unfold readNonce; rw [hd]
    dsimp only
    rw [hkeep, readNonce_set, hw.reg]
    by_cases hac : a = c.1.account
    · rw [if_pos (congrArg _ hac), if_pos hac]; exact decodeU32_encodeU32 _
    · rw [if_neg fun he => hac (nonceKeyHash_injective H he), if_neg hac]
  · rename_i ha
    rwa [executeStep_of_not_accepts H dispatch debugAssertions (mt hacc.1 ha)]

/-- The worker refines the register machine over every run of requests from
`Stf::init_state`, in any interleaving of re-syncs and calls of any accounts: the calls it
accepts are the machine's, in order, and every account's stored nonce is its register. -/
theorem requestRun_refines_registers (hd : KeepsNonces H dispatch) (requests : List Request) :
    (requestRun H dispatch debugAssertions requests).accepted =
        (requests.foldl (Registers.request H debugAssertions) Registers.init).accepted ∧
      ∀ a, readNonce H (requestRun H dispatch debugAssertions requests).state a =
        (requests.foldl (Registers.request H debugAssertions) Registers.init).reg a := by
  suffices ∀ (w : World) (m : Registers), Simulates H w m →
      Simulates H (requests.foldl (handleRequest H dispatch debugAssertions) w)
        (requests.foldl (Registers.request H debugAssertions) m) from
    have h := this (World.init H) _ ⟨fun a => by
      rw [readNonce, show (World.init H).state = initState H from rfl,
        initState_get_nonceKeyHash]; rfl, rfl⟩
    ⟨h.accepted, h.reg⟩
  induction requests with
  | nil => exact fun _ _ hw => hw
  | cons r requests ih =>
    exact fun w m hw => ih _ _ (executeStep_simulates H dispatch debugAssertions hd
      (updateStorage_simulates H hw r.update) _)

end Refinement

theorem registers_two_transfers_and_resync :
    (requestRun Hashers.zeros (fun _ _ s => s) false
        [⟨.balanceTransfer Bytes32.zero Bytes32.zero Bytes32.zero I64F64.zero, 0, []⟩,
          ⟨.balanceTransfer Bytes32.zero Bytes32.zero Bytes32.zero I64F64.zero, 0,
            [(nonceKeyHash Hashers.zeros Bytes32.zero, encode (0 : UInt32))]⟩]).accepted =
        ([⟨.balanceTransfer Bytes32.zero Bytes32.zero Bytes32.zero I64F64.zero, 0, []⟩,
          ⟨.balanceTransfer Bytes32.zero Bytes32.zero Bytes32.zero I64F64.zero, 0,
            [(nonceKeyHash Hashers.zeros Bytes32.zero, encode (0 : UInt32))]⟩].foldl
          (Registers.request Hashers.zeros false) Registers.init).accepted ∧
      ∀ a, readNonce Hashers.zeros (requestRun Hashers.zeros (fun _ _ s => s) false
        [⟨.balanceTransfer Bytes32.zero Bytes32.zero Bytes32.zero I64F64.zero, 0, []⟩,
          ⟨.balanceTransfer Bytes32.zero Bytes32.zero Bytes32.zero I64F64.zero, 0,
            [(nonceKeyHash Hashers.zeros Bytes32.zero, encode (0 : UInt32))]⟩]).state a =
        ([⟨.balanceTransfer Bytes32.zero Bytes32.zero Bytes32.zero I64F64.zero, 0, []⟩,
          ⟨.balanceTransfer Bytes32.zero Bytes32.zero Bytes32.zero I64F64.zero, 0,
            [(nonceKeyHash Hashers.zeros Bytes32.zero, encode (0 : UInt32))]⟩].foldl
          (Registers.request Hashers.zeros false) Registers.init).reg a :=
  requestRun_refines_registers Hashers.zeros (fun _ _ s => s) false (fun _ _ _ _ => rfl) _

end EncointerWorker
