import Seyal.Program.Layout

namespace Seyal.Protocol

open Program Slice

/-! The 24-byte envelope of the local protocol and its message types. -/

abbrev AttachmentId := BitVec 128

/-- `SEYALIPC`. -/
def magic : List UInt8 := [0x53, 0x45, 0x59, 0x41, 0x4c, 0x49, 0x50, 0x43]

def headerLen : Nat := 24

def major : UInt16 := 1

def minor : UInt16 := 0

def maxFramePayload : Nat := 262144

inductive FramingError where
  | truncatedHeader
  | invalidMagic
  | nonzeroReserved
  | oversizedPayload
  | lengthOverflow
  | unsupportedMajorVersion
  | unsupportedMinorVersion
  | unknownMessageType
  | truncatedPayload
  | exactLengthMismatch
  | malformedPayload
  deriving Repr, DecidableEq

@[ext] structure FrameHeader where
  messageType : UInt16
  flags : UInt16
  payloadLen : UInt32
  deriving Repr, DecidableEq

namespace FrameHeader

def new (messageType : UInt16) (payloadLen : UInt32) : FrameHeader := ⟨messageType, 0, payloadLen⟩

def encode (header : FrameHeader) : List UInt8 :=
  magic ++ (le major ++ (le minor ++ (le header.messageType ++ (le header.flags ++
    (le header.payloadLen ++ le (0 : UInt32))))))

def decode (bytes : List UInt8) : Except FramingError FrameHeader :=
  if bytes.length < headerLen then .error .truncatedHeader
  else if subrange bytes 0 8 ≠ magic then .error .invalidMagic
  else if readAt UInt32 bytes 20 ≠ 0 then .error .nonzeroReserved
  else if readAt UInt16 bytes 8 ≠ major then .error .unsupportedMajorVersion
  else if readAt UInt16 bytes 10 ≠ minor then .error .unsupportedMinorVersion
  else if readAt UInt16 bytes 14 ≠ 0 then .error .malformedPayload
  else if (readAt UInt32 bytes 16).toNat > maxFramePayload then .error .oversizedPayload
  else .ok ⟨readAt UInt16 bytes 12, readAt UInt16 bytes 14, readAt UInt32 bytes 16⟩

@[simp] theorem length_encode (header : FrameHeader) : header.encode.length = headerLen := by
  simp [encode, magic, headerLen]

/-- A header is accepted for exactly the bytes it is laid out as, whatever follows them. -/
theorem decode_eq_ok {bytes : List UInt8} {header : FrameHeader} :
    decode bytes = .ok header ↔
      (header.flags = 0 ∧ header.payloadLen.toNat ≤ maxFramePayload) ∧ Holds bytes 0 header.encode := by
  have size := header.length_encode
  have eight : magic.length = 8 := rfl
  cases Nat.lt_or_ge bytes.length headerLen with
  | inl short =>
      have absent : ¬ Holds bytes 0 header.encode := fun held => by
        have room := held.length_le
        omega
      simp [decode, short, absent]
  | inr long =>
      have enough : 24 ≤ bytes.length := long
      have layout : Holds bytes 0 header.encode ↔ subrange bytes 0 8 = magic ∧ readAt UInt16 bytes 8 = major ∧
          readAt UInt16 bytes 10 = minor ∧ readAt UInt16 bytes 12 = header.messageType ∧
          readAt UInt16 bytes 14 = header.flags ∧ readAt UInt32 bytes 16 = header.payloadLen ∧
          readAt UInt32 bytes 20 = 0 := by
        simp (disch := simp <;> omega) only [encode, holds_append, holds_le, eight, length_le, width_uint16,
          width_uint32, Nat.reduceAdd]
        rw [holds_iff, eight]
      rw [layout, decode, if_neg (Nat.not_lt.mpr long)]
      cases header
      grind

end FrameHeader

inductive MessageType where
  | clientHello
  | serverHello
  | listExecutions
  | executionList
  | attach
  | attached
  | detach
  | detached
  | input
  | resize
  | resync
  | displaySnapshot
  | displayDelta
  | lifecycle
  | error
  | goodbye
  | terminalKey
  | resizeRequest
  | resizeResult
  | composerCommand
  | blockTimeline
  | composerResult
  | composerStatus
  | historyRangeRequest
  | historyRangeSnapshot
  | displaySnapshotV2
  | displayDeltaV2
  | terminalKeyV2
  | paste
  | hostSelection
  | copiedText
  | hostSearch
  | terminalMouse
  | viewportLineIds
  | createExecutionRequest
  | createExecutionResult
  | terminateExecutionRequest
  | terminateExecutionResult
  | suspendDelivery
  | resumeDelivery
  | sessionOffer
  | sessionConsent
  | sessionStatus
  | composerTarget
  | mintWorkspaceRequest
  | mintWorkspaceResult
  deriving Repr, DecidableEq

namespace MessageType

def toU16 : MessageType → UInt16
  | .clientHello => 1
  | .serverHello => 2
  | .listExecutions => 3
  | .executionList => 4
  | .attach => 5
  | .attached => 6
  | .detach => 7
  | .detached => 8
  | .input => 9
  | .resize => 10
  | .resync => 11
  | .displaySnapshot => 12
  | .displayDelta => 13
  | .lifecycle => 14
  | .error => 15
  | .goodbye => 16
  | .terminalKey => 17
  | .resizeRequest => 18
  | .resizeResult => 19
  | .composerCommand => 20
  | .blockTimeline => 21
  | .composerResult => 22
  | .composerStatus => 23
  | .historyRangeRequest => 24
  | .historyRangeSnapshot => 25
  | .displaySnapshotV2 => 27
  | .displayDeltaV2 => 28
  | .terminalKeyV2 => 29
  | .paste => 30
  | .hostSelection => 31
  | .copiedText => 32
  | .hostSearch => 33
  | .terminalMouse => 34
  | .viewportLineIds => 35
  | .createExecutionRequest => 36
  | .createExecutionResult => 37
  | .terminateExecutionRequest => 38
  | .terminateExecutionResult => 39
  | .suspendDelivery => 40
  | .resumeDelivery => 41
  | .sessionOffer => 42
  | .sessionConsent => 43
  | .sessionStatus => 44
  | .composerTarget => 45
  | .mintWorkspaceRequest => 46
  | .mintWorkspaceResult => 47

end MessageType

end Seyal.Protocol
