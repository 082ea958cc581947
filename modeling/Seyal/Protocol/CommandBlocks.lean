import Seyal.Protocol.Display.Types
import Seyal.Protocol.Execution

namespace Seyal.Protocol

open Program Slice Terminal

/-! The command-block timeline in its two schemas. -/

def maxComposerCommandBytes : Nat := 16 * 1024

def maxCommandBlockRecords : Nat := 128

inductive BlockScope where
  | local
  | session
  deriving Repr, DecidableEq

def BlockScope.toU8 : BlockScope → UInt8
  | .local => 0
  | .session => 1

inductive BlockTrust where
  | localTrusted
  | sessionTrusted
  | unverified
  deriving Repr, DecidableEq

def BlockTrust.toU8 : BlockTrust → UInt8
  | .localTrusted => 0
  | .sessionTrusted => 1
  | .unverified => 2

def commandBlockFlagCanvasFloor : UInt8 := 0x01

inductive CommandBlockState where
  | running
  | completed (exitStatus : Option (BitVec 32))
  deriving Repr, DecidableEq

namespace CommandBlockState

def tag : CommandBlockState → UInt8
  | .running => 0
  | .completed (some _) => 1
  | .completed none => 2

def status : CommandBlockState → BitVec 32
  | .completed (some exitStatus) => exitStatus
  | _ => 0

end CommandBlockState

@[ext] structure CommandBlock where
  id : UInt64
  command : List Char
  startLine : UInt64
  endLine : Option UInt64
  state : CommandBlockState
  flags : UInt8
  scope : BlockScope
  trust : BlockTrust
  deriving Repr, DecidableEq

/-- Which of the two record layouts is in use. -/
inductive TimelineSchema where
  | legacy
  | session
  deriving Repr, DecidableEq

namespace TimelineSchema

def tag : TimelineSchema → UInt16
  | .legacy => 0
  | .session => 1

def recordHeaderLen : TimelineSchema → Nat
  | .legacy => 36
  | .session => 40

/-- `encode_scope_trust`, absent from the legacy schema. -/
def scopeTrust (schema : TimelineSchema) (scope : BlockScope) (trust : BlockTrust) : List UInt8 :=
  match schema with
  | .legacy => []
  | .session => le scope.toU8 ++ (le trust.toU8 ++ (le (1 : UInt8) ++ le (0 : UInt8)))

/-- The legacy schema cannot say more than this. -/
def Carries (schema : TimelineSchema) (scope : BlockScope) (trust : BlockTrust) : Prop :=
  schema = .legacy → scope = .local ∧ trust = .localTrusted

instance (schema : TimelineSchema) (scope : BlockScope) (trust : BlockTrust) :
    Decidable (schema.Carries scope trust) := inferInstanceAs (Decidable (_ → _))

theorem length_scopeTrust (schema : TimelineSchema) (scope : BlockScope) (trust : BlockTrust) :
    36 + (schema.scopeTrust scope trust).length = schema.recordHeaderLen := by
  cases schema with
  | legacy => rfl
  | session => simp [scopeTrust, recordHeaderLen]

end TimelineSchema

namespace CommandBlock

def badFlags (flags : UInt8) : Prop := flags &&& ~~~ commandBlockFlagCanvasFloor ≠ 0

instance (flags : UInt8) : Decidable (badFlags flags) := inferInstanceAs (Decidable (_ ≠ _))

/-- The checks an encoder makes on a record. -/
def checkEncodable (schema : TimelineSchema) (record : CommandBlock) : Except FramingError Unit := do
  let command := encodeUtf8 record.command
  refuse (command.length = 0 ∨ maxComposerCommandBytes < command.length ∨
    ¬ schema.Carries record.scope record.trust) .malformedPayload
  refuse (badFlags record.flags) .malformedPayload

def layout (schema : TimelineSchema) (record : CommandBlock) : List UInt8 :=
  let command := encodeUtf8 record.command
  (le record.id ++ (le record.startLine ++ (le (record.endLine.getD 0) ++ (le record.state.tag ++ (le record.flags ++
    (zeros 2 ++ (le record.state.status ++ (le (UInt16.ofNat command.length) ++ (le (0 : UInt16) ++
      schema.scopeTrust record.scope record.trust))))))))) ++ command

def Writable (schema : TimelineSchema) (record : CommandBlock) : Prop :=
  ((encodeUtf8 record.command).length ≠ 0 ∧ (encodeUtf8 record.command).length ≤ maxComposerCommandBytes ∧
    schema.Carries record.scope record.trust) ∧ ¬ badFlags record.flags

instance (schema : TimelineSchema) (record : CommandBlock) : Decidable (record.Writable schema) :=
  inferInstanceAs (Decidable (_ ∧ _))

theorem checkEncodable_eq_ok {schema : TimelineSchema} {record : CommandBlock} {done : Unit} :
    record.checkEncodable schema = .ok done ↔ record.Writable schema := by
  simp [checkEncodable, Writable]

theorem length_layout (schema : TimelineSchema) (record : CommandBlock) :
    (record.layout schema).length = schema.recordHeaderLen + (encodeUtf8 record.command).length := by
  rw [← schema.length_scopeTrust record.scope record.trust]
  simp [layout]
  omega

end CommandBlock

@[ext] structure BlockTimeline where
  revision : UInt64
  records : List CommandBlock
  deriving Repr, DecidableEq

namespace BlockTimeline

def header (schema : TimelineSchema) (timeline : BlockTimeline) : List UInt8 :=
  le timeline.revision ++ (le (UInt16.ofNat timeline.records.length) ++ (le schema.tag ++ le (0 : UInt32)))

/-- The record loop of both encoders; `out` is what is encoded so far. -/
def tryEncodeRecords (schema : TimelineSchema) (out : List UInt8) : List CommandBlock →
    Except FramingError (List UInt8)
  | [] => .ok out
  | record :: rest => do
      record.checkEncodable schema
      let out := out ++ record.layout schema
      refuse (maxFramePayload < out.length) .oversizedPayload
      tryEncodeRecords schema out rest

def tryEncodeAs (schema : TimelineSchema) (timeline : BlockTimeline) : Except FramingError (List UInt8) := do
  refuse (maxCommandBlockRecords < timeline.records.length) .oversizedPayload
  tryEncodeRecords schema (timeline.header schema) timeline.records

def tryEncode (timeline : BlockTimeline) : Except FramingError (List UInt8) := timeline.tryEncodeAs .legacy

def tryEncodeSession (timeline : BlockTimeline) : Except FramingError (List UInt8) := timeline.tryEncodeAs .session

def layout (schema : TimelineSchema) (timeline : BlockTimeline) : List UInt8 :=
  timeline.header schema ++ timeline.records.flatMap (CommandBlock.layout schema)

def Writable (schema : TimelineSchema) (timeline : BlockTimeline) : Prop :=
  timeline.records.length ≤ maxCommandBlockRecords ∧ (∀ record ∈ timeline.records, record.Writable schema) ∧
    (timeline.layout schema).length ≤ maxFramePayload

theorem tryEncodeRecords_eq_ok {schema : TimelineSchema} {records : List CommandBlock} {out bytes : List UInt8}
    (small : out.length ≤ maxFramePayload) :
    tryEncodeRecords schema out records = .ok bytes ↔ (∀ record ∈ records, record.Writable schema) ∧
      (out ++ records.flatMap (CommandBlock.layout schema)).length ≤ maxFramePayload ∧
      bytes = out ++ records.flatMap (CommandBlock.layout schema) := by
  induction records generalizing out with
  | nil =>
      simp only [tryEncodeRecords, Except.ok.injEq, List.flatMap_nil, List.append_nil, List.not_mem_nil, false_implies,
        implies_true, true_and]
      exact ⟨fun same => ⟨small, same.symm⟩, fun found => found.2.symm⟩
  | cons record rest ih =>
      simp only [tryEncodeRecords, bind_eq_ok, refuse_eq_ok, CommandBlock.checkEncodable_eq_ok, Nat.not_lt,
        List.flatMap_cons, ← List.append_assoc, List.forall_mem_cons]
      constructor
      · rintro ⟨_, writable, _, fits, remaining⟩
        obtain ⟨others, total, same⟩ := (ih fits).mp remaining
        exact ⟨⟨writable, others⟩, total, same⟩
      · rintro ⟨⟨writable, others⟩, total, same⟩
        have fits : (out ++ record.layout schema).length ≤ maxFramePayload := by
          rw [List.length_append] at total
          omega
        exact ⟨(), writable, (), fits, (ih fits).mpr ⟨others, total, same⟩⟩

theorem tryEncodeAs_eq_ok {schema : TimelineSchema} {timeline : BlockTimeline} {bytes : List UInt8} :
    timeline.tryEncodeAs schema = .ok bytes ↔ timeline.Writable schema ∧ bytes = timeline.layout schema := by
  have size : (timeline.header schema).length ≤ maxFramePayload := by simp [header, maxFramePayload]
  rw [tryEncodeAs, refuse_bind_eq_ok, tryEncodeRecords_eq_ok size, Nat.not_lt, Writable, layout]
  tauto

end BlockTimeline

end Seyal.Protocol
