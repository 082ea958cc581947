import Seyal.Protocol.Envelope
import Seyal.Terminal.Types

namespace Seyal.Protocol

open Program Slice

/-! Execution provisioning, delivery control and the envelope of presentation frames. -/

/-- The identity in front of a negotiated presentation payload. -/
@[ext] structure PresentationEnvelope where
  attachmentId : AttachmentId
  resumeSequence : UInt64
  payload : List UInt8
  deriving Repr, DecidableEq

namespace PresentationEnvelope

def prefixLen : Nat := 24

def encode (envelope : PresentationEnvelope) : List UInt8 :=
  (le envelope.attachmentId ++ le envelope.resumeSequence) ++ envelope.payload

def isPresentationMessage (messageType : UInt16) : Bool := messageType ∈ [12, 13, 21, 26, 27, 28, 35]

/-- The checks both directions make on the frame: its header, once it is whole and of a presentation type. -/
def frameHeader (frame : List UInt8) : Except FramingError FrameHeader := do
  refuse (frame.length < headerLen) .truncatedHeader
  let header ← FrameHeader.decode (subrange frame 0 headerLen)
  refuse (frame.length ≠ headerLen + header.payloadLen.toNat) .exactLengthMismatch
  refuse (¬ isPresentationMessage header.messageType) .malformedPayload
  return header

/-- `envelope_presentation_frame`. -/
def wrap (frame : List UInt8) (attachmentId : AttachmentId) (resumeSequence : UInt64) :
    Except FramingError (List UInt8) := do
  let header ← frameHeader frame
  let newPayloadLen := header.payloadLen.toNat + prefixLen
  refuse (maxFramePayload < newPayloadLen) .oversizedPayload
  return (FrameHeader.new header.messageType (UInt32.ofNat newPayloadLen)).encode ++
    encode ⟨attachmentId, resumeSequence, frame.drop headerLen⟩

theorem frameHeader_eq_ok {frame : List UInt8} {header : FrameHeader} :
    frameHeader frame = .ok header ↔ (header.flags = 0 ∧ header.payloadLen.toNat ≤ maxFramePayload) ∧
      isPresentationMessage header.messageType ∧ header.payloadLen.toNat = (frame.drop headerLen).length ∧
      frame = header.encode ++ frame.drop headerLen := by
  rw [eq_append_iff header.length_encode]
  simp only [frameHeader, bind_eq_ok, refuse_eq_ok, pure_eq_ok, FrameHeader.decode_eq_ok, Nat.not_lt, ne_eq, not_not,
    List.length_drop]
  have front (long : headerLen ≤ frame.length) :
      Holds (subrange frame 0 headerLen) 0 header.encode ↔ Holds frame 0 header.encode := by
    rw [holds_iff, holds_iff, header.length_encode, subrange, subrange, subrange, List.drop_zero, List.drop_zero,
      Nat.sub_zero, Nat.zero_add, Nat.sub_zero, List.take_take, Nat.min_self]
  constructor
  · rintro ⟨_, long, _, ⟨valid, held⟩, _, exact, _, known, rfl⟩
    exact ⟨valid, known, by omega, ⟨long, (front long).mp held⟩, trivial⟩
  · rintro ⟨valid, known, exact, ⟨long, held⟩, _⟩
    exact ⟨(), long, header, ⟨valid, (front long).mpr held⟩, (), by omega, (), known, rfl⟩

end PresentationEnvelope

end Seyal.Protocol
