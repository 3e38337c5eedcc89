import EncointerWorker.Client.Attendance
import EncointerWorker.Stf.Run

/-
  Encointer worker: the trusted calls the client sends (`cli.rs`: the `transfer` and
  `register-participant` runners), and what the worker's nonce guard makes of them.

  Both runners sign their call with the nonce 0 (`let nonce = 0; // FIXME: hard coded for
  now`). `execute` accepts a call only when its nonce is the count of the account's accepted
  calls as a `u32`, so over every run whose re-syncs write no nonce address an account gets
  at most one call from the client accepted (`client_calls_accepted_once`): after its first
  transfer or registration, every later call it sends panics at the nonce check.

  `transfer` converts its `u128` amount with `BalanceType::from_num`, which overflows from
  `2^63` on: a debug build panics there, a release build sends the amount's low 64 bits read
  as a signed integer, so that an amount of `2^63` is sent as `-2^63` and one of `2^64` as `0`
  (`transferCall_sends_low_bits`). `register-participant -r` proves attendance at `cindex - 1`, a `u32` subtraction.
  The build profile of the client is its own, independent of the worker's.
-/

namespace EncointerWorker

section Calls

variable (debugAssertions : Bool) (sign : Signer)

/-- The runner of `transfer`: the call `fromAccount` signs, for a `u128` amount. -/
def transferCall (fromAccount toAccount : AccountId) (shard : CurrencyIdentifier) (amount : Fin (2 ^ 128)) :
    Except Panic (TrustedCall × UInt32) := do
  let nonce : UInt32 := 0
  let value ← I64F64.ofOverflowing debugAssertions (amount.val * 2 ^ 64)
  pure (.balanceTransfer fromAccount toAccount shard value, nonce)

/-- The runner of `register-participant`: the call `who` signs for the shard, with a proof of
its own attendance at the previous ceremony when `-r` is given. -/
def registerParticipantCall (who : AccountId) (shard : CurrencyIdentifier) (cindex : UInt32)
    (reputation : Bool) : Except Panic (TrustedCall × UInt32) := do
  let nonce : UInt32 := 0
  let proof ← if reputation then do
      let previous ← u32Sub debugAssertions cindex 1
      pure (some (proveAttendance sign who shard previous who))
    else pure none
  pure (.ceremoniesRegisterParticipant who shard proof, nonce)

/-- The amount a transfer carries, for every `u128` amount in either build. -/
theorem transferCall_sends_low_bits (fromAccount toAccount : AccountId)
    (shard : CurrencyIdentifier) (amount : Fin (2 ^ 128)) :
    ∃ value : I64F64, value.bits = wrapI64 amount.val * 2 ^ 64 ∧
      transferCall debugAssertions fromAccount toAccount shard amount =
        if debugAssertions = true ∧ 2 ^ 63 ≤ amount.val then .error .overflow
        else .ok (.balanceTransfer fromAccount toAccount shard value, 0) := by
  refine ⟨I64F64.wrap (amount.val * 2 ^ 64), I64F64.wrap_mul_two_pow_64 _, ?_⟩
  have hfits : ¬ FitsI128 (amount.val * 2 ^ 64) ↔ 2 ^ 63 ≤ amount.val := by
    unfold FitsI128; omega
  unfold transferCall I64F64.ofOverflowing overflowChecked
  by_cases h : debugAssertions = true ∧ 2 ^ 63 ≤ amount.val
  · rw [if_pos ⟨h.1, hfits.2 h.2⟩, if_pos h]; rfl
  · rw [if_neg fun h' => h ⟨h'.1, hfits.1 h'.2⟩, if_neg h]; rfl

end Calls

/-- A call with its nonce as one of the client's runners builds it, in either build. -/
def ClientBuilt (sign : Signer) (c : TrustedCall × UInt32) : Prop :=
  (∃ debugAssertions fromAccount toAccount shard amount,
    transferCall debugAssertions fromAccount toAccount shard amount = .ok c) ∨
  (∃ debugAssertions who shard cindex reputation,
    registerParticipantCall debugAssertions sign who shard cindex reputation = .ok c)

theorem ClientBuilt.nonce_eq_zero {sign : Signer} {c : TrustedCall × UInt32}
    (h : ClientBuilt sign c) : c.2 = 0 := by
  rcases h with ⟨d, f, t, s, amt, h⟩ | ⟨d, who, s, ci, rep, h⟩
  · obtain ⟨_, -, h⟩ := bind_eq_ok_iff.1 h
    cases h; rfl
  · rw [registerParticipantCall] at h
    split at h
    · obtain ⟨_, -, h⟩ := bind_eq_ok_iff.1 h
      cases h; rfl
    · cases h; rfl

section Runs

variable (H : Hashers) (dispatch : Dispatch) (debugAssertions : Bool)

/-- A request carrying the nonce 0, on a world where every account has at most one accepted
call, leaves every account with at most one: the call is accepted only at count 0. -/
theorem handleRequest_count_le_one {w : World} (hw : NonceInv H debugAssertions w)
    (hle : ∀ a, acceptedCount a w.accepted ≤ 1) {r : Request}
    (hr : ∀ kv ∈ r.update, ∀ a, kv.1 ≠ nonceKeyHash H a) (h0 : r.nonce = 0) (a : AccountId) :
    acceptedCount a (handleRequest H dispatch debugAssertions w r).accepted ≤ 1 := by
  have hw' := nonceInv_updateStorage H debugAssertions hw hr
  unfold handleRequest
  by_cases ha : Accepts H debugAssertions (updateStorage w.state r.update) (r.call, r.nonce)
  · have hn : (0 : UInt32) = UInt32.ofNat (acceptedCount r.call.account w.accepted) :=
      h0 ▸ ((accepts_iff H debugAssertions _ (hw' _)).1 ha).1
    have hzero : acceptedCount r.call.account w.accepted = 0 := by
      rcases Nat.le_one_iff_eq_zero_or_eq_one.1 (hle r.call.account) with h | h
      · exact h
      · rw [h] at hn; exact absurd hn (by decide)
    rw [executeStep_of_accepts H dispatch debugAssertions
      (w := ⟨updateStorage w.state r.update, w.accepted⟩) ha, acceptedCount_append]
    dsimp only
    split
    · rename_i he; subst he; omega
    · rw [Nat.add_zero]; exact hle a
  · rw [executeStep_of_not_accepts H dispatch debugAssertions
      (w := ⟨updateStorage w.state r.update, w.accepted⟩) ha]
    exact hle a

theorem foldl_handleRequest_count_le_one (hd : KeepsNonces H dispatch) (requests : List Request)
    (h0 : ∀ r ∈ requests, r.nonce = 0)
    (hsync : ∀ r ∈ requests, ∀ kv ∈ r.update, ∀ a, kv.1 ≠ nonceKeyHash H a) {w : World}
    (hw : NonceInv H debugAssertions w) (hle : ∀ a, acceptedCount a w.accepted ≤ 1) (a : AccountId) :
    acceptedCount a (requests.foldl (handleRequest H dispatch debugAssertions) w).accepted ≤ 1 := by
  induction requests generalizing w with
  | nil => exact hle a
  | cons r requests ih =>
    have hr := hsync r (List.mem_cons_self _ _)
    exact ih (fun r' hr' => h0 r' (List.mem_cons_of_mem _ hr'))
      (fun r' hr' => hsync r' (List.mem_cons_of_mem _ hr'))
      (handleRequest_inv H dispatch debugAssertions hd hw hr)
      (handleRequest_count_le_one H dispatch debugAssertions hw hle hr
        (h0 r (List.mem_cons_self _ _)))

/-- In every run of requests from `Stf::init_state` whose calls the client built and whose
re-syncs write no nonce address, each account has at most one call accepted: the client
signs every call with the nonce 0, and the worker accepts 0 only before the account's first
call. -/
theorem client_calls_accepted_once (hd : KeepsNonces H dispatch) (sign : Signer)
    (requests : List Request) (hcli : ∀ r ∈ requests, ClientBuilt sign (r.call, r.nonce))
    (hsync : ∀ r ∈ requests, ∀ kv ∈ r.update, ∀ a, kv.1 ≠ nonceKeyHash H a) (a : AccountId) :
    acceptedCount a (requestRun H dispatch debugAssertions requests).accepted ≤ 1 :=
  foldl_handleRequest_count_le_one H dispatch debugAssertions hd requests
    (fun r hr => (hcli r hr).nonce_eq_zero) hsync (nonceInv_init H debugAssertions)
    (fun _ => Nat.zero_le 1) a

end Runs

theorem client_two_transfers_accepted_once :
    acceptedCount Bytes32.zero (requestRun Hashers.zeros (fun _ _ s => s) false
      [⟨.balanceTransfer Bytes32.zero Bytes32.zero Bytes32.zero (I64F64.fromNum 1), 0, []⟩,
        ⟨.balanceTransfer Bytes32.zero Bytes32.zero Bytes32.zero (I64F64.fromNum 1), 0, []⟩]).accepted ≤ 1 :=
  client_calls_accepted_once Hashers.zeros (fun _ _ s => s) false (fun _ _ _ _ => rfl)
    (fun _ _ => []) _
    (fun r hr => by
      simp only [List.mem_cons, List.mem_singleton, List.not_mem_nil, or_false] at hr
      rcases hr with rfl | rfl <;> exact Or.inl ⟨false, Bytes32.zero, Bytes32.zero, Bytes32.zero, 1, rfl⟩)
    (by simp) _

end EncointerWorker
