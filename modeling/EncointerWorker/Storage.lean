import EncointerWorker.Primitives

/-
  Encointer worker: storage addresses and the enclave's store.

  The key derivation of `sgx.rs` (`storage_value_key`, `storage_map_key`,
  `storage_double_map_key`, `key_hash`, `nonce_key_hash`) has to reproduce the public
  chain's addresses byte for byte. The hash functions of `sp_core` are parameters
  (`Hashers`), each with the width of its output, and nothing here depends on what they
  compute. An address is `twox_128(module) ++ twox_128(item)`, 32 bytes, followed by one
  `key_hash` per map key.

  A concatenating hasher keeps the encoded key verbatim after its hash, so the
  `System::Account` and `EncointerBalances::Balance` addresses are injective and never
  meet each other or a value address (`nonce_key_never_aliases`). `key_hash` returns the
  bare 8-byte hash for `Twox64Concat` (`twox64Concat_loses_key`).

  The store (`SgxExternalities`) is a map from byte keys to byte values; `Ext` is the
  body of an `execute_with` closure, which reads and writes it through
  `sp_io::storage::get` and `set` and can panic. A panic keeps the store as it was at
  that point.
-/

namespace EncointerWorker

/-- The hash functions of `sp_core` the key derivation calls, with their output widths. -/
structure Hashers where
  twox_64 : Bytes → Bytes
  twox_128 : Bytes → Bytes
  twox_256 : Bytes → Bytes
  blake2_128 : Bytes → Bytes
  blake2_256 : Bytes → Bytes
  twox_64_length : ∀ x, (twox_64 x).length = 8
  twox_128_length : ∀ x, (twox_128 x).length = 16
  twox_256_length : ∀ x, (twox_256 x).length = 32
  blake2_128_length : ∀ x, (blake2_128 x).length = 16
  blake2_256_length : ∀ x, (blake2_256 x).length = 32

attribute [simp] Hashers.twox_64_length Hashers.twox_128_length Hashers.twox_256_length
  Hashers.blake2_128_length Hashers.blake2_256_length

/-- Hash functions that return zero bytes of the right widths. The results about addresses
hold for all `Hashers`; closed statements about runs are stated at this one. -/
def Hashers.zeros : Hashers where
  twox_64 _ := List.replicate 8 0
  twox_128 _ := List.replicate 16 0
  twox_256 _ := List.replicate 32 0
  blake2_128 _ := List.replicate 16 0
  blake2_256 _ := List.replicate 32 0
  twox_64_length _ := List.length_replicate _ _
  twox_128_length _ := List.length_replicate _ _
  twox_256_length _ := List.length_replicate _ _
  blake2_128_length _ := List.length_replicate _ _
  blake2_256_length _ := List.length_replicate _ _

/-- `metadata::StorageHasher`. -/
inductive StorageHasher where
  | Blake2_128
  | Blake2_256
  | Blake2_128Concat
  | Twox128
  | Twox256
  | Twox64Concat
  | Identity
  deriving DecidableEq, Repr

/-- `str::as_bytes`: the UTF-8 bytes of a string. -/
def asBytes (s : String) : Bytes := s.toUTF8.data.toList

section Keys

variable (H : Hashers)

/-- `key_hash`: the key's hash depending on the `StorageHasher` selected. -/
def keyHash {K : Type} [Encode K] (key : K) (hasher : StorageHasher) : Bytes :=
  let encodedKey := encode key
  match hasher with
  | .Identity => encodedKey
  | .Blake2_128 => H.blake2_128 encodedKey
  | .Blake2_128Concat => H.blake2_128 encodedKey ++ encodedKey
  | .Blake2_256 => H.blake2_256 encodedKey
  | .Twox128 => H.twox_128 encodedKey
  | .Twox256 => H.twox_256 encodedKey
  | .Twox64Concat => H.twox_64 encodedKey

/-- `storage_value_key`. -/
def storageValueKey (modulePrefix storagePrefix : String) : Bytes :=
  H.twox_128 (asBytes modulePrefix) ++ H.twox_128 (asBytes storagePrefix)

/-- `storage_map_key`. -/
def storageMapKey {K : Type} [Encode K] (modulePrefix storagePrefix : String) (mapkey1 : K)
    (hasher1 : StorageHasher) : Bytes :=
  H.twox_128 (asBytes modulePrefix) ++ H.twox_128 (asBytes storagePrefix) ++
    keyHash H mapkey1 hasher1

/-- `storage_double_map_key`. -/
def storageDoubleMapKey {K Q : Type} [Encode K] [Encode Q] (modulePrefix storagePrefix : String)
    (mapkey1 : K) (hasher1 : StorageHasher) (mapkey2 : Q) (hasher2 : StorageHasher) : Bytes :=
  H.twox_128 (asBytes modulePrefix) ++ H.twox_128 (asBytes storagePrefix) ++
    keyHash H mapkey1 hasher1 ++ keyHash H mapkey2 hasher2

/-- `nonce_key_hash`: the `System::Account` entry where an account's nonce is stored. -/
def nonceKeyHash (account : AccountId) : Bytes :=
  storageMapKey H "System" "Account" account .Blake2_128Concat

/-- The `EncointerBalances::Balance` address `get_encointer_balance` reads for `(who, cid)`. -/
def balanceKey (who : AccountId) (cid : CurrencyIdentifier) : Bytes :=
  storageDoubleMapKey H "EncointerBalances" "Balance" cid .Blake2_128Concat who .Blake2_128Concat

theorem storageMapKey_eq {K : Type} [Encode K] (m s : String) (k : K) (h : StorageHasher) :
    storageMapKey H m s k h = storageValueKey H m s ++ keyHash H k h := rfl

@[simp] theorem storageValueKey_length (m s : String) : (storageValueKey H m s).length = 32 := by
  simp [storageValueKey]

theorem keyHash_bytes32_blake2_128Concat_length (x : Bytes32) :
    (keyHash H x .Blake2_128Concat).length = 48 := by
  simp [keyHash, x.length_eq]

theorem keyHash_bytes32_blake2_128Concat_inj {x y : Bytes32}
    (h : keyHash H x .Blake2_128Concat = keyHash H y .Blake2_128Concat) : x = y :=
  Bytes32.ext (List.append_inj h (by simp)).2

@[simp] theorem nonceKeyHash_length (a : AccountId) : (nonceKeyHash H a).length = 80 := by
  rw [nonceKeyHash, storageMapKey_eq, List.length_append, keyHash_bytes32_blake2_128Concat_length,
    storageValueKey_length]

@[simp] theorem balanceKey_length (a : AccountId) (c : CurrencyIdentifier) :
    (balanceKey H a c).length = 128 := by
  simp only [balanceKey, storageDoubleMapKey, List.length_append,
    keyHash_bytes32_blake2_128Concat_length, Hashers.twox_128_length]

/-- `key_hash` for `Twox64Concat` is the 8-byte hash alone: at the key `0u32` it is not
`twox_64(enc k) ++ enc k`, and the address ends before any byte of the key. -/
theorem twox64Concat_loses_key (m s : String) :
    keyHash H (0 : UInt32) .Twox64Concat ≠ H.twox_64 (encode (0 : UInt32)) ++ encode (0 : UInt32) ∧
      (storageMapKey H m s (0 : UInt32) .Twox64Concat).drop (32 + 8) = [] := by
  refine ⟨fun h => ?_, ?_⟩
  · have := congrArg List.length h
    simp [keyHash, encode, Encode.encode] at this
  · rw [storageMapKey_eq, List.drop_eq_nil_iff]
    simp [keyHash]

/-! ## Nonce addresses never alias -/

theorem nonceKeyHash_injective {a a' : AccountId} (h : nonceKeyHash H a = nonceKeyHash H a') :
    a = a' :=
  keyHash_bytes32_blake2_128Concat_inj H (List.append_cancel_left h)

theorem balanceKey_injective {a a' : AccountId} {c c' : CurrencyIdentifier}
    (h : balanceKey H a c = balanceKey H a' c') : c = c' ∧ a = a' := by
  have hsplit := List.append_inj h (by
    simp only [List.length_append, keyHash_bytes32_blake2_128Concat_length, Hashers.twox_128_length])
  exact ⟨keyHash_bytes32_blake2_128Concat_inj H (List.append_cancel_left hsplit.1),
    keyHash_bytes32_blake2_128Concat_inj H hsplit.2⟩

theorem nonceKeyHash_ne_balanceKey (a a' : AccountId) (c : CurrencyIdentifier) :
    nonceKeyHash H a ≠ balanceKey H a' c := fun h => by
  simpa using congrArg List.length h

theorem nonceKeyHash_ne_storageValueKey (a : AccountId) (m s : String) :
    nonceKeyHash H a ≠ storageValueKey H m s := fun h => by
  simpa using congrArg List.length h

end Keys

/-! ## The store -/

/-- `SgxExternalities`, the enclave's state: a map from byte keys to byte values. -/
@[ext] structure State where
  get : Bytes → Option Bytes

namespace State

/-- `State::new`: the empty store. -/
def new : State := ⟨fun _ => none⟩

/-- The store after `sp_io::storage::set(k, v)`. -/
def set (s : State) (k v : Bytes) : State := ⟨fun k' => if k' = k then some v else s.get k'⟩

@[simp] theorem new_get (k : Bytes) : new.get k = none := rfl

@[simp] theorem get_set_self (s : State) (k v : Bytes) : (s.set k v).get k = some v := if_pos rfl

@[simp] theorem get_set_of_ne (s : State) {k k' : Bytes} (v : Bytes) (h : k' ≠ k) :
    (s.set k v).get k' = s.get k' := if_neg h

theorem get_set (s : State) (k v k' : Bytes) :
    (s.set k v).get k' = if k' = k then some v else s.get k' := rfl

end State

/-- For all accounts and currencies and whatever the hash functions: a nonce address
determines its account, a balance address its currency and account, and no nonce address
is a balance address or a value address. So writing one account's nonce leaves every other
account's nonce, every balance and every value entry as it was. -/
theorem nonce_key_never_aliases (H : Hashers) (a a' : AccountId) (c c' : CurrencyIdentifier)
    (m s : String) :
    (nonceKeyHash H a = nonceKeyHash H a' → a = a') ∧
    (balanceKey H a c = balanceKey H a' c' → c = c' ∧ a = a') ∧
    nonceKeyHash H a ≠ balanceKey H a' c' ∧
    nonceKeyHash H a ≠ storageValueKey H m s ∧
    ∀ (st : State) (v : Bytes),
      (a' ≠ a → (st.set (nonceKeyHash H a) v).get (nonceKeyHash H a') =
        st.get (nonceKeyHash H a')) ∧
      (st.set (nonceKeyHash H a) v).get (balanceKey H a' c') = st.get (balanceKey H a' c') ∧
      (st.set (nonceKeyHash H a) v).get (storageValueKey H m s) =
        st.get (storageValueKey H m s) :=
  ⟨nonceKeyHash_injective H, balanceKey_injective H, nonceKeyHash_ne_balanceKey H a a' c',
    nonceKeyHash_ne_storageValueKey H a m s, fun st v =>
      ⟨fun hne => st.get_set_of_ne v fun h => hne (nonceKeyHash_injective H h),
        st.get_set_of_ne v (nonceKeyHash_ne_balanceKey H a a' c').symm,
        st.get_set_of_ne v (nonceKeyHash_ne_storageValueKey H a m s).symm⟩⟩

/-! ## `execute_with` bodies -/

/-- The body of an `execute_with` closure: it reads and writes the store and can panic. -/
abbrev Ext := EStateM Panic State

namespace storage

/-- `sp_io::storage::get`. -/
def get (k : Bytes) : Ext (Option Bytes) := fun s => .ok (s.get k) s

/-- `sp_io::storage::set`. -/
def set (k v : Bytes) : Ext Unit := fun s => .ok () (s.set k v)

end storage

/-- A computation that can panic, run inside `execute_with`. -/
def Ext.ofExcept {α : Type} : Except Panic α → Ext α
  | .ok a => pure a
  | .error e => throw e

section Run

variable {α β : Type} (s : State)

@[simp] theorem run_get_bind (k : Bytes) (f : Option Bytes → Ext β) :
    (storage.get k >>= f).run s = (f (s.get k)).run s := rfl

@[simp] theorem run_set_bind (k v : Bytes) (f : Unit → Ext β) :
    (storage.set k v >>= f).run s = (f ()).run (s.set k v) := rfl

@[simp] theorem run_ofExcept_ok_bind (a : α) (f : α → Ext β) :
    (Ext.ofExcept (.ok a) >>= f).run s = (f a).run s := rfl

@[simp] theorem run_ofExcept_error_bind (e : Panic) (f : α → Ext β) :
    (Ext.ofExcept (.error e) >>= f).run s = .error e s := rfl

@[simp] theorem run_throw_bind (e : Panic) (f : α → Ext β) :
    ((throw e : Ext α) >>= f).run s = .error e s := rfl

@[simp] theorem run_pure_bind (a : α) (f : α → Ext β) : ((pure a : Ext α) >>= f).run s = (f a).run s :=
  rfl

@[simp] theorem run_pure (a : α) : (pure a : Ext α).run s = .ok a s := rfl

@[simp] theorem run_set (k v : Bytes) : (storage.set k v).run s = .ok () (s.set k v) := rfl

@[simp] theorem run_modify (f : State → State) : (modify f : Ext Unit).run s = .ok () (f s) := rfl

end Run

end EncointerWorker
