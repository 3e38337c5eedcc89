import EncointerWorker.Client.Meetup
import EncointerWorker.Stf.Execute

/-
  Encointer worker: the attendance payloads the client signs (`cli.rs`: `prove_attendance`,
  `sign_claim` and the `sign-claim` runner).

  Signing is the parameter `sign`: the signature of a payload under an account's key.
  `prove_attendance` signs the pair (prover, ceremony index) with the attendee's key; the
  currency travels in the proof but not in the signed payload. `sign_claim` signs the SCALE
  encoding of a whole `ClaimOfAttendance`.

  `new-claim` prints the hex of a claim's encoding and `sign-claim` decodes its argument
  back. The encoding is the fields in order, 104 bytes, and decoding gives back every field,
  so the attestation is over exactly the claim that was printed (`signClaimCommand_encode`).
  The field order is the one the runner and the specification list; the pallet's
  declaration is not under src/.

  `sign-claim` prints the attestation's encoding, its signature the `Sr25519` variant of
  `MultiSignature`, and `register-attestations` decodes each of its arguments as an
  `Attestation<MultiSignature, AccountId32, Moment>`, panicking at the first that does not
  decode. With 64-byte signatures every attestation `sign-claim` prints decodes back to the
  claim, signature and signer it was made of (`registerAttestationsCommand_signClaim`).
-/

namespace EncointerWorker

/-- The signature of a payload under an account's key (`Pair::sign`). -/
abbrev Signer := AccountId → Bytes → Bytes

/-- `prove_attendance`: the attendee signs the prover and the ceremony index. -/
def proveAttendance (sign : Signer) (prover : AccountId) (cid : CurrencyIdentifier)
    (cindex : UInt32) (attendee : AccountId) : ProofOfAttendance where
  proverPublic := prover
  currencyIdentifier := cid
  ceremonyIndex := cindex
  attendeePublic := attendee
  attendeeSignature := sign attendee (encode prover ++ encode cindex)

/-! ## The encoding of a claim -/

/-- `Location::encode`: latitude, then longitude. -/
def encodeLocation (l : Location) : Bytes := encodeU64 l.lat ++ encodeU64 l.lon

/-- `ClaimOfAttendance::encode`: the fields in order. -/
def encodeClaimOfAttendance (c : ClaimOfAttendance) : Bytes :=
  c.claimantPublic.bytes ++ c.currencyIdentifier.bytes ++ encodeU32 c.ceremonyIndex ++
    encodeU64 c.meetupIndex ++ encodeLocation c.location ++ encodeU64 c.timestamp ++
    encodeU32 c.numberOfParticipantsConfirmed

instance : Encode ClaimOfAttendance := ⟨encodeClaimOfAttendance⟩

/-- `ClaimOfAttendance::decode`: each field read where the one before it ended. -/
def decodeClaimOfAttendance (input : Bytes) : Option ClaimOfAttendance := do
  let claimantPublic ← decodeBytes32 input
  let input := input.drop 32
  let currencyIdentifier ← decodeBytes32 input
  let input := input.drop 32
  let ceremonyIndex ← decodeU32 input
  let input := input.drop 4
  let meetupIndex ← decodeU64 input
  let input := input.drop 8
  let lat ← decodeU64 input
  let input := input.drop 8
  let lon ← decodeU64 input
  let input := input.drop 8
  let timestamp ← decodeU64 input
  let input := input.drop 8
  let numberOfParticipantsConfirmed ← decodeU32 input
  pure ⟨claimantPublic, currencyIdentifier, ceremonyIndex, meetupIndex, ⟨lat, lon⟩, timestamp,
    numberOfParticipantsConfirmed⟩

theorem decodeClaimOfAttendance_encode_append (c : ClaimOfAttendance) (rest : Bytes) :
    decodeClaimOfAttendance (encodeClaimOfAttendance c ++ rest) = some c := by
  simp only [decodeClaimOfAttendance, encodeClaimOfAttendance, encodeLocation, List.append_assoc,
    decodeBytes32_append, drop_bytes32_append, decodeU32_encodeU32_append, drop_encodeU32_append,
    decodeU64_encodeU64_append, drop_encodeU64_append, Option.some_bind]
  rfl

/-! ## Attestations -/

/-- `Attestation<Signature, AccountId, Moment>`. -/
structure Attestation where
  claim : ClaimOfAttendance
  signature : Bytes
  public : AccountId

/-- `sign_claim`: the claim, its encoding signed under the signer's key, and the signer. -/
def signClaim (sign : Signer) (claim : ClaimOfAttendance) (signer : AccountId) : Attestation :=
  ⟨claim, sign signer (encode claim), signer⟩

/-- The runner of `sign-claim`, from the bytes of its hex argument. -/
def signClaimCommand (sign : Signer) (arg : Bytes) (signer : AccountId) : Except Panic Attestation := do
  let claim ← unwrap (decodeClaimOfAttendance arg)
  pure (signClaim sign claim signer)

/-- For every claim, `sign-claim` given the bytes `new-claim` prints for it signs exactly that
claim's encoding: no field is lost or changed on the way. -/
theorem signClaimCommand_encode (sign : Signer) (c : ClaimOfAttendance) (signer : AccountId) :
    signClaimCommand sign (encode c) signer = .ok ⟨c, sign signer (encode c), signer⟩ := by
  have h := decodeClaimOfAttendance_encode_append c []
  rw [List.append_nil] at h
  simp only [signClaimCommand, encode, Encode.encode, h, unwrap_some]
  rfl

/-! ## What register-attestations decodes -/

/-- `MultiSignature`: a signature under one of the schemes an account can sign with. -/
inductive MultiSignature where
  | ed25519 (sig : Bytes)
  | sr25519 (sig : Bytes)
  | ecdsa (sig : Bytes)
  deriving DecidableEq

/-- The variant's index in the encoding. -/
def MultiSignature.index : MultiSignature → UInt8
  | .ed25519 _ => 0
  | .sr25519 _ => 1
  | .ecdsa _ => 2

/-- The signature's bytes. -/
def MultiSignature.sig : MultiSignature → Bytes
  | .ed25519 sig | .sr25519 sig | .ecdsa sig => sig

/-- The width of the scheme's signatures: `H512` for ed25519 and sr25519, 65 bytes for ecdsa. -/
def MultiSignature.width : MultiSignature → Nat
  | .ecdsa _ => 65
  | _ => 64

/-- `MultiSignature::encode`: the variant's index, then the signature's bytes. -/
def encodeMultiSignature (s : MultiSignature) : Bytes := s.index :: s.sig

/-- The signature of a scheme whose signatures are `width` bytes, with the bytes after it. -/
def readSignature (mk : Bytes → MultiSignature) (width : Nat) (input : Bytes) :
    Option (MultiSignature × Bytes) :=
  if width ≤ input.length then some (mk (input.take width), input.drop width) else none

/-- `MultiSignature::decode`, with the bytes after the signature. -/
def decodeMultiSignature : Bytes → Option (MultiSignature × Bytes)
  | [] => none
  | index :: input =>
    if index = 0 then readSignature .ed25519 64 input
    else if index = 1 then readSignature .sr25519 64 input
    else if index = 2 then readSignature .ecdsa 65 input
    else none

theorem readSignature_append (mk : Bytes → MultiSignature) {sig : Bytes} {width : Nat}
    (h : sig.length = width) (rest : Bytes) :
    readSignature mk width (sig ++ rest) = some (mk sig, rest) := by
  rw [readSignature, if_pos (by rw [List.length_append]; omega), List.take_left' h,
    List.drop_left' h]

theorem decodeMultiSignature_encode_append (s : MultiSignature) (h : s.sig.length = s.width)
    (rest : Bytes) : decodeMultiSignature (encodeMultiSignature s ++ rest) = some (s, rest) := by
  cases s <;> exact readSignature_append _ h rest

/-- `Attestation<MultiSignature, AccountId32, Moment>`, as `register-attestations` decodes
it. -/
structure MultiAttestation where
  claim : ClaimOfAttendance
  signature : MultiSignature
  public : AccountId
  deriving DecidableEq

/-- `Attestation::encode` of what `sign_claim` builds, as `sign-claim` prints it: the claim,
the signature (`Signature::from` an sr25519 signature, the `Sr25519` variant) and the signer. -/
def encodeAttestation (a : Attestation) : Bytes :=
  encodeClaimOfAttendance a.claim ++ encodeMultiSignature (.sr25519 a.signature) ++ a.public.bytes

/-- `Attestation::decode`: the claim, then the signature, then the signer. -/
def decodeAttestation (input : Bytes) : Option MultiAttestation := do
  let claim ← decodeClaimOfAttendance input
  let (signature, input) ← decodeMultiSignature (input.drop 104)
  let public ← decodeBytes32 input
  pure ⟨claim, signature, public⟩

/-- The runner of `register-attestations`, from the bytes of its hex arguments: each one
decoded as an attestation, in order, panicking at the first that does not decode. -/
def registerAttestationsCommand (args : List Bytes) : Except Panic (List MultiAttestation) :=
  args.mapM fun arg => unwrap (decodeAttestation arg)

theorem encodeClaimOfAttendance_length (c : ClaimOfAttendance) :
    (encodeClaimOfAttendance c).length = 104 := by
  simp [encodeClaimOfAttendance, encodeLocation, encodeU64, leBytes_length, Bytes32.length_eq]

/-- What `sign-claim` prints decodes back to the attestation it signed, with its signature as
the sr25519 variant, whenever signatures are 64 bytes. -/
theorem decodeAttestation_encode {a : Attestation} (h : a.signature.length = 64) :
    decodeAttestation (encodeAttestation a) = some ⟨a.claim, .sr25519 a.signature, a.public⟩ := by
  have hclaim : decodeClaimOfAttendance (encodeAttestation a) = some a.claim := by
    rw [encodeAttestation, List.append_assoc]; exact decodeClaimOfAttendance_encode_append _ _
  have hdrop : (encodeAttestation a).drop 104 =
      encodeMultiSignature (.sr25519 a.signature) ++ a.public.bytes := by
    rw [encodeAttestation, List.append_assoc]
    exact List.drop_left' (encodeClaimOfAttendance_length _)
  have hpublic : decodeBytes32 a.public.bytes = some a.public := by
    simpa using decodeBytes32_append a.public []
  simp only [decodeAttestation, hclaim, hdrop, Option.bind_eq_bind, Option.some_bind,
    decodeMultiSignature_encode_append (.sr25519 a.signature) h, hpublic]
  rfl

/-- For every list of claims with their signers, under a signer whose signatures are 64 bytes:
`register-attestations` given what `sign-claim` prints for each decodes exactly the attestations
signed, in order, the claim, the sr25519 signature and the signer of each unchanged. -/
theorem registerAttestationsCommand_signClaim (sign : Signer)
    (hsign : ∀ signer payload, (sign signer payload).length = 64)
    (claims : List (ClaimOfAttendance × AccountId)) :
    registerAttestationsCommand (claims.map fun cs => encodeAttestation (signClaim sign cs.1 cs.2)) =
      .ok (claims.map fun cs => ⟨cs.1, .sr25519 (sign cs.2 (encode cs.1)), cs.2⟩) := by
  unfold registerAttestationsCommand
  induction claims with
  | nil => rfl
  | cons cs claims ih =>
    rw [List.map_cons, List.mapM_cons, decodeAttestation_encode (hsign _ _), ih]
    rfl

theorem registerAttestations_decodes_signed_claim :
    registerAttestationsCommand
        ([(⟨Bytes32.zero, Bytes32.zero, 1, 1, ⟨0, 0⟩, 0, 2⟩, Bytes32.zero)].map fun cs =>
          encodeAttestation (signClaim (fun _ _ => List.replicate 64 0) cs.1 cs.2)) =
      .ok ([(⟨Bytes32.zero, Bytes32.zero, 1, 1, ⟨0, 0⟩, 0, 2⟩, Bytes32.zero)].map fun cs =>
        ⟨cs.1, .sr25519 ((fun _ _ => List.replicate 64 0 : Signer) cs.2 (encode cs.1)), cs.2⟩) :=
  registerAttestationsCommand_signClaim (fun _ _ => List.replicate 64 0)
    (fun _ _ => List.length_replicate _ _) _

end EncointerWorker
