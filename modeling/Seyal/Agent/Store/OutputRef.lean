import Seyal.Program.Layout

namespace Seyal.Agent.Store

open Program Slice

/-! References to stored output, and their bytes in an event. -/

instance : LittleEndian (BitVec 256) := inferInstanceAs (LittleEndian (BitVec (8 * 32)))

@[simp] theorem width_bitVec256 : LittleEndian.width (BitVec 256) = 32 := rfl

inductive StreamKind where
  | stdout
  | stderr
  deriving Repr, DecidableEq

namespace StreamKind

def asU8 : StreamKind → UInt8
  | .stdout => 0
  | .stderr => 1

def fromU8 (value : UInt8) : Option StreamKind :=
  if value = 0 then some .stdout else if value = 1 then some .stderr else none

theorem fromU8_asU8 (kind : StreamKind) : fromU8 kind.asU8 = some kind := by
  cases kind with
  | stdout | stderr => rfl

end StreamKind

inductive FingerprintRef where
  | publicContentDigest (digest : BitVec 256)
  | localKeyedDigest (keyVersion : UInt32) (digest : BitVec 256)
  | opaqueContentIdentity (id : BitVec 128)
  deriving Repr, DecidableEq

namespace FingerprintRef

def absorb (out : List UInt8) (entry : UInt8 × Nat) : List UInt8 :=
  let j := 1 + entry.2 % 31
  let turned := byteAt out j + (entry.1 <<< UInt8.ofNat (entry.2 % 5) ||| entry.1 >>> UInt8.ofNat (8 - entry.2 % 5))
  let placed := out.set j turned
  placed.set (1 + (j + 3) % 31) (byteAt placed (1 + (j + 3) % 31) ^^^ turned)

def ofPublicContent (bytes : List UInt8) : FingerprintRef :=
  let seeded := 1 :: toLe 8 bytes.length ++ zeros 23
  .publicContentDigest (ofLe (bytes.zipIdx.foldl absorb seeded))

def encode : FingerprintRef → List UInt8
  | .publicContentDigest digest => le (1 : UInt8) ++ (le (0 : UInt32) ++ le digest)
  | .localKeyedDigest keyVersion digest => le (2 : UInt8) ++ (le keyVersion ++ le digest)
  | .opaqueContentIdentity id => le (3 : UInt8) ++ (le (0 : UInt32) ++ (le id ++ zeros 16))

def decode (bytes : List UInt8) : Option FingerprintRef :=
  let kind := readAt UInt8 bytes 0
  let keyVersion := readAt UInt32 bytes 1
  if kind = 1 then
    if keyVersion ≠ 0 then none else some (.publicContentDigest (readAt (BitVec 256) bytes 5))
  else if kind = 2 then some (.localKeyedDigest keyVersion (readAt (BitVec 256) bytes 5))
  else if kind = 3 then
    if keyVersion ≠ 0 ∨ subrange bytes 21 37 ≠ zeros 16 then none
    else some (.opaqueContentIdentity (readAt (BitVec 128) bytes 5))
  else none

theorem length_encode (fingerprint : FingerprintRef) : fingerprint.encode.length = 37 := by
  cases fingerprint with
  | publicContentDigest digest | localKeyedDigest keyVersion digest | opaqueContentIdentity id => simp [encode]

theorem decode_encode (fingerprint : FingerprintRef) : decode fingerprint.encode = some fingerprint := by
  suffices holds : ∀ bytes, bytes.length = 37 → Holds bytes 0 fingerprint.encode → decode bytes = some fingerprint from
    holds _ fingerprint.length_encode (List.prefix_refl _)
  intro bytes size whole
  cases fingerprint with
  | publicContentDigest digest | localKeyedDigest keyVersion digest =>
      simp (disch := simp <;> omega) only [encode, holds_append, holds_le, length_le, width_uint8, width_uint32,
        Nat.reduceAdd] at whole
      obtain ⟨kind, version, digest⟩ := whole
      simp [decode, kind, version, digest]
  | opaqueContentIdentity id =>
      simp (disch := simp <;> omega) only [encode, holds_append, holds_le, length_le, width_uint8, width_uint32,
        width_bitVec128, holds_zeros, Nat.reduceAdd] at whole
      obtain ⟨kind, version, id, rest⟩ := whole
      simp [decode, kind, version, id, rest]

end FingerprintRef

structure RetentionPolicyRef where
  policyId : UInt32
  policyGeneration : UInt32
  deriving Repr, DecidableEq

def retentionPolicyRetainedStream : UInt32 := 2

def RetentionPolicyRef.retainedStream : RetentionPolicyRef := ⟨retentionPolicyRetainedStream, 1⟩

structure OutputRef where
  firstSegmentIndex : UInt32
  segmentCount : UInt32
  byteOffset : UInt32
  byteLength : UInt64
  firstOrdinal : UInt64
  lastOrdinal : UInt64
  streamKind : StreamKind
  fingerprintRef : FingerprintRef
  retentionPolicyRef : RetentionPolicyRef
  deriving Repr, DecidableEq

inductive OutputRefError where
  | notOutputRef
  | missingFingerprint
  | corrupt
  deriving Repr, DecidableEq

def outputRefKind : UInt8 := 9
def outputRefKindLegacy : UInt8 := 8
def outputRefLen : Nat := 83

def encodeOutputRef (output : OutputRef) : List UInt8 :=
  le outputRefKind ++ (le output.firstSegmentIndex ++ (le output.segmentCount ++ (le output.byteOffset ++
    (le output.byteLength ++ (le output.firstOrdinal ++ (le output.lastOrdinal ++ (le output.streamKind.asU8 ++
    (output.fingerprintRef.encode ++ (le output.retentionPolicyRef.policyId ++
    le output.retentionPolicyRef.policyGeneration)))))))))

def decodeOutputRef (payload : List UInt8) : Except OutputRefError OutputRef := do
  refuse (payload = []) .notOutputRef
  refuse (readAt UInt8 payload 0 = outputRefKindLegacy) .missingFingerprint
  refuse (readAt UInt8 payload 0 ≠ outputRefKind) .notOutputRef
  refuse (payload.length ≠ outputRefLen) .corrupt
  let streamKind ← orRefuse (StreamKind.fromU8 (readAt UInt8 payload 37)) .corrupt
  let fingerprintRef ← orRefuse (FingerprintRef.decode (subrange payload 38 75)) .corrupt
  let segmentCount := readAt UInt32 payload 5
  let byteLength := readAt UInt64 payload 13
  refuse (segmentCount = 0 ∧ byteLength ≠ 0) .corrupt
  return {
    firstSegmentIndex := readAt UInt32 payload 1
    segmentCount
    byteOffset := readAt UInt32 payload 9
    byteLength
    firstOrdinal := readAt UInt64 payload 21
    lastOrdinal := readAt UInt64 payload 29
    streamKind
    fingerprintRef
    retentionPolicyRef := ⟨readAt UInt32 payload 75, readAt UInt32 payload 79⟩ }

theorem length_encodeOutputRef (output : OutputRef) : (encodeOutputRef output).length = outputRefLen := by
  simp [encodeOutputRef, FingerprintRef.length_encode, outputRefLen]

theorem decodeOutputRef_encodeOutputRef {output : OutputRef}
    (placed : ¬ (output.segmentCount = 0 ∧ output.byteLength ≠ 0)) :
    decodeOutputRef (encodeOutputRef output) = .ok output := by
  suffices holds : ∀ payload, payload.length = 83 → Holds payload 0 (encodeOutputRef output) →
      decodeOutputRef payload = .ok output from holds _ (length_encodeOutputRef output) (List.prefix_refl _)
  intro payload long whole
  simp (disch := simp <;> omega) only [encodeOutputRef, holds_append, holds_le, length_le, width_uint8, width_uint32,
    width_uint64, FingerprintRef.length_encode, Nat.reduceAdd] at whole
  obtain ⟨kind, index, count, offset, length, first, last, stream, fingerprint, policy, generation⟩ := whole
  have print : subrange payload 38 75 = output.fingerprintRef.encode := by
    have found := holds_iff.mp fingerprint
    rwa [FingerprintRef.length_encode] at found
  have some : payload ≠ [] := by
    rintro rfl
    cases long
  have new : outputRefKind ≠ outputRefKindLegacy := by decide
  simp only [decodeOutputRef, bind_eq_ok, refuse_eq_ok, orRefuse_eq_ok, pure_eq_ok, kind, index, count, offset, length,
    first, last, stream, policy, generation, print, StreamKind.fromU8_asU8, FingerprintRef.decode_encode,
    Option.some.injEq, exists_eq_left', ne_eq, not_true_eq_false, not_false_eq_true, long, outputRefLen]
  exact ⟨(), some, (), new, (), trivial, (), trivial, (), placed, trivial⟩

end Seyal.Agent.Store
