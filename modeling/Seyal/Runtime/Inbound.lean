import Seyal.Protocol.Envelope

namespace Seyal.Runtime.Inbound

open Protocol Program Slice

/-! Reading the frames that a peer sends over a local connection. -/

def maxReceiveBufferBytes : Nat := headerLen + maxFramePayload

def readChunkBytes : Nat := headerLen * 32

def maxFramesPerReadiness : Nat := 64

/-- What `recv_with_fd` answers; no bytes and no descriptor is the end of the stream. -/
inductive Received where
  | bytes (piece : List UInt8)
  | descriptor
  | malformed
  | wouldBlock
  | failed

inductive ServerEvent where
  | frame (messageType : UInt16) (payload : List UInt8)
  | framingError
  | disconnected
  deriving Repr, DecidableEq

open ServerEvent

/-- The reading side of a connection, which is `connected` while the server knows its token.
Ghost: all that was received. -/
structure Connection where
  readBuf : List UInt8 := []
  connected : Bool := true
  received : List UInt8 := []

def Connection.close (connection : Connection) : Connection := { connection with connected := false }

/-- What the socket gives of a piece: not more than there is room for. -/
def Connection.chunk (connection : Connection) (piece : List UInt8) : List UInt8 :=
  piece.take (min readChunkBytes (maxReceiveBufferBytes - connection.readBuf.length))

structure Drained where
  readBuf : List UInt8
  events : List ServerEvent
  cut : Bool

/-- `left` more events fit into this call. -/
def drainFrames : Nat → List UInt8 → List ServerEvent → Drained
  | 0, readBuf, events => ⟨readBuf, events, false⟩
  | left + 1, readBuf, events =>
      if readBuf.length < headerLen then ⟨readBuf, events, false⟩
      else
        match FrameHeader.decode (readBuf.take headerLen) with
        | .error _ => ⟨readBuf, events ++ [.framingError], true⟩
        | .ok header =>
            let total := headerLen + header.payloadLen.toNat
            if readBuf.length < total then ⟨readBuf, events, false⟩
            else
              drainFrames left (readBuf.drop total)
                (events ++ [.frame header.messageType (subrange readBuf headerLen total)])

/-- How the loop of a call comes to its end. -/
inductive Ended where
  | blocked
  | limited
  | closed
  deriving Repr, DecidableEq

structure Reading where
  connection : Connection
  events : List ServerEvent
  /-- `none` while the loop goes on. -/
  ended : Option Ended

/-- One turn of the loop. -/
def readOnce (answer : Received) (connection : Connection) (events : List ServerEvent) : Reading :=
  if maxReceiveBufferBytes - connection.readBuf.length = 0 then
    ⟨connection.close, events ++ [.framingError, .disconnected], some .closed⟩
  else
    match answer with
    | .bytes piece =>
        let chunk := connection.chunk piece
        if chunk = [] then ⟨connection.close, events ++ [.disconnected], some .closed⟩
        else
          let drained := drainFrames (maxFramesPerReadiness - events.length) (connection.readBuf ++ chunk) events
          let connection :=
            { connection with readBuf := drained.readBuf, received := connection.received ++ chunk }
          if drained.cut then ⟨connection.close, drained.events ++ [.disconnected], some .closed⟩
          else ⟨connection, drained.events, none⟩
    | .descriptor => ⟨connection.close, events ++ [.framingError, .disconnected], some .closed⟩
    | .malformed => ⟨connection.close, events ++ [.framingError, .disconnected], some .closed⟩
    | .wouldBlock => ⟨connection, events, some .blocked⟩
    | .failed => ⟨connection.close, events ++ [.disconnected], some .closed⟩

def readLoop : List Received → Connection → List ServerEvent → Reading × List Received
  | answers, connection, events =>
      if maxFramesPerReadiness ≤ events.length then (⟨connection, events, some .limited⟩, answers)
      else
        match answers with
        | [] => (readOnce .wouldBlock connection events, [])
        | answer :: rest =>
            let reading := readOnce answer connection events
            match reading.ended with
            | some _ => (reading, rest)
            | none => readLoop rest reading.connection reading.events

def serviceRead (hangup : Bool) (answers : List Received) (connection : Connection) :
    Connection × List ServerEvent :=
  if connection.connected = false then (connection, [])
  else
    let reading := (readLoop answers connection []).1
    if reading.ended = some .closed then (reading.connection, reading.events)
    else if hangup then
      (reading.connection.close,
        reading.events ++ (if reading.connection.readBuf = [] then [] else [.framingError]) ++ [.disconnected])
    else (reading.connection, reading.events)

structure Frame where
  messageType : UInt16
  payload : List UInt8
  fits : payload.length ≤ maxFramePayload

namespace Frame

def header (frame : Frame) : FrameHeader := FrameHeader.new frame.messageType (UInt32.ofNat frame.payload.length)

def encode (frame : Frame) : List UInt8 := frame.header.encode ++ frame.payload

def event (frame : Frame) : ServerEvent := .frame frame.messageType frame.payload

theorem toNat_payloadLen (frame : Frame) : frame.header.payloadLen.toNat = frame.payload.length := by
  have fits : frame.payload.length ≤ 262144 := frame.fits
  simp only [header, FrameHeader.new, UInt32.toNat_ofNat']
  omega

theorem decode_header {frame : Frame} {stream : List UInt8} (starts : frame.encode <+: stream) :
    FrameHeader.decode (stream.take headerLen) = .ok frame.header := by
  obtain ⟨rest, rfl⟩ := starts
  have fits := frame.fits
  rw [← toNat_payloadLen] at fits
  rw [FrameHeader.decode_eq_ok]
  refine ⟨⟨rfl, fits⟩, ?_⟩
  rw [encode, List.append_assoc, List.take_left' frame.header.length_encode]
  exact List.prefix_rfl

theorem length_encode (frame : Frame) : frame.encode.length = headerLen + frame.payload.length := by
  simp [encode]

/-- A stream starts with at most one frame. -/
theorem encode_eq {first second : Frame} {stream : List UInt8} (starts : first.encode <+: stream)
    (alsoStarts : second.encode <+: stream) : first.encode = second.encode := by
  have same : first.header = second.header :=
    Except.ok.inj ((decode_header starts).symm.trans (decode_header alsoStarts))
  have size : first.encode.length = second.encode.length := by
    rw [length_encode, length_encode, ← toNat_payloadLen, ← toNat_payloadLen, same]
  exact (List.prefix_of_prefix_length_le starts alsoStarts size.le).eq_of_length size

theorem exists_of_decode {stream : List UInt8} {header : FrameHeader}
    (decoded : FrameHeader.decode (stream.take headerLen) = .ok header)
    (whole : headerLen + header.payloadLen.toNat ≤ stream.length) :
    ∃ frame : Frame, stream = frame.encode ++ stream.drop (headerLen + header.payloadLen.toNat) ∧
      frame.event = .frame header.messageType (subrange stream headerLen (headerLen + header.payloadLen.toNat)) := by
  obtain ⟨⟨flags, fits⟩, held⟩ := FrameHeader.decode_eq_ok.mp decoded
  have size : (subrange stream headerLen (headerLen + header.payloadLen.toNat)).length = header.payloadLen.toNat := by
    rw [length_subrange whole]
    omega
  refine ⟨⟨header.messageType, _, size.trans_le fits⟩, ?_, rfl⟩
  have same : (⟨header.messageType, _, size.trans_le fits⟩ : Frame).header = header := by
    simp only [Frame.header, FrameHeader.new, size]
    cases header
    simp_all
  have long : headerLen ≤ stream.length := by omega
  have front : header.encode = stream.take headerLen := by
    refine List.IsPrefix.eq_of_length held ?_
    rw [header.length_encode, List.length_take, Nat.min_eq_left long]
  rw [encode, same, front]
  change stream = stream.take headerLen ++ (stream.drop headerLen).take _ ++ stream.drop _
  rw [List.append_assoc, ← List.drop_drop, Nat.add_sub_cancel_left, List.take_append_drop, List.take_append_drop]

end Frame

/-- No frame is complete at the start of these bytes. -/
def Incomplete (bytes : List UInt8) : Prop := ∀ frame : Frame, ¬ frame.encode <+: bytes

/-- The frames that the bytes begin with. -/
def Begins (frames : List Frame) (bytes : List UInt8) : Prop := frames.flatMap Frame.encode <+: bytes

theorem Begins.length_le {frames others : List Frame} {rest : List UInt8} (incomplete : Incomplete rest)
    (begins : Begins frames (others.flatMap Frame.encode ++ rest)) : frames.length ≤ others.length := by
  induction frames generalizing others with
  | nil => exact Nat.zero_le _
  | cons frame frames ih =>
      have starts : frame.encode <+: others.flatMap Frame.encode ++ rest := (List.prefix_append _ _).trans begins
      cases others with
      | nil => exact absurd starts (incomplete frame)
      | cons other others =>
          rw [List.flatMap_cons, List.append_assoc] at starts
          have same := Frame.encode_eq starts (List.prefix_append other.encode _)
          rw [Begins, List.flatMap_cons, List.flatMap_cons, List.append_assoc, same] at begins
          exact Nat.succ_le_succ (ih ((List.prefix_append_right_inj _).mp begins))

theorem incomplete_of_short {bytes : List UInt8} (short : bytes.length < headerLen) : Incomplete bytes := by
  intro frame starts
  have length := starts.length_le
  rw [frame.length_encode] at length
  omega

/-- Frames are taken off the front, and none is left unless the call has no room for it. -/
structure Drains (left : Nat) (readBuf : List UInt8) (events : List ServerEvent) (drained : Drained)
    (frames : List Frame) : Prop where
  split : readBuf = frames.flatMap Frame.encode ++ drained.readBuf
  events : drained.events = events ++ frames.map Frame.event ++ (if drained.cut then [.framingError] else [])
  room : frames.length + (if drained.cut then 1 else 0) ≤ left
  incomplete : frames.length < left → Incomplete drained.readBuf

theorem Drains.nothing {left : Nat} {readBuf : List UInt8} {events : List ServerEvent}
    (incomplete : Incomplete readBuf) : Drains left readBuf events ⟨readBuf, events, false⟩ [] :=
  ⟨rfl, by simp, Nat.zero_le _, fun _ => incomplete⟩

theorem drainFrames_spec (left : Nat) (readBuf : List UInt8) (events : List ServerEvent) :
    ∃ frames, Drains left readBuf events (drainFrames left readBuf events) frames := by
  induction left generalizing readBuf events with
  | zero => exact ⟨[], rfl, by simp [drainFrames], Nat.zero_le _, by simp [drainFrames]⟩
  | succ left ih =>
      rw [drainFrames]
      split
      next short => exact ⟨[], .nothing (incomplete_of_short short)⟩
      next long =>
      cases decoded : FrameHeader.decode (readBuf.take headerLen) with
      | error error =>
          have incomplete : Incomplete readBuf := fun frame starts => by
            rw [Frame.decode_header starts] at decoded
            cases decoded
          exact ⟨[], rfl, by simp, by simp, fun _ => incomplete⟩
      | ok header =>
          dsimp only
          split
          next short =>
            refine ⟨[], .nothing fun frame starts => ?_⟩
            have length := starts.length_le
            rw [Frame.decode_header starts] at decoded
            obtain rfl := Except.ok.inj decoded
            rw [frame.length_encode, ← frame.toNat_payloadLen] at length
            omega
          next whole =>
            obtain ⟨frame, split, event⟩ := Frame.exists_of_decode decoded (Nat.le_of_not_lt whole)
            rw [← event]
            obtain ⟨frames, drains⟩ := ih (readBuf.drop (headerLen + header.payloadLen.toNat)) (events ++ [frame.event])
            refine ⟨frame :: frames, ?_, ?_, ?_, fun stops => drains.incomplete (Nat.lt_of_succ_lt_succ stops)⟩
            · rw [List.flatMap_cons, List.append_assoc, ← drains.split]
              exact split
            · rw [drains.events, List.map_cons]
              simp
            · rw [List.length_cons, Nat.add_right_comm]
              exact Nat.succ_le_succ drains.room

def ServerEvent.isFrame : ServerEvent → Bool
  | .frame _ _ => true
  | _ => false

/-- What was received are these frames and what the buffer holds. -/
def Accounts (connection : Connection) (frames : List Frame) : Prop :=
  connection.received = frames.flatMap Frame.encode ++ connection.readBuf

/-- No complete frame was left in the buffer, or the call receives bytes first. -/
def Fed (answers : List Received) (connection : Connection) : Prop :=
  Incomplete connection.readBuf ∨ ∃ piece, answers.head? = some (.bytes piece) ∧ connection.chunk piece ≠ []

def Readable (answers : List Received) : Prop := ∃ first piece rest, answers = .bytes (first :: piece) :: rest

/-- The call has room for the frames that the next piece completes; with a hangup, for those of all that is readable. -/
def Room (hangup : Bool) (answer : Received) (rest : List Received) (connection : Connection)
    (events : List ServerEvent) : Prop :=
  ∀ piece frames, answer = .bytes piece → Begins frames (connection.readBuf ++ connection.chunk piece) →
    events.length + frames.length ≤ maxFramesPerReadiness ∧
      (hangup = true → Readable rest → events.length + frames.length < maxFramesPerReadiness)

/-- The same for every turn of a call. -/
def Spaced (hangup : Bool) : List Received → Connection → List ServerEvent → Prop
  | [], _, _ => True
  | answer :: rest, connection, events =>
      events.length < maxFramesPerReadiness →
        Room hangup answer rest connection events ∧
          ((readOnce answer connection events).ended = none →
            Spaced hangup rest (readOnce answer connection events).connection
              (readOnce answer connection events).events)

section Loop

variable {hangup : Bool} {answer : Received} {answers rest : List Received} {connection : Connection}
  {events : List ServerEvent} {frames : List Frame} {reading : Reading}

/-- The frames that were taken off what was received, with their events. -/
structure Delivers (connection : Connection) (events : List ServerEvent) (reading : Reading) (frames : List Frame) :
    Prop where
  accounts (delivered : List Frame) : Accounts connection delivered → Accounts reading.connection (delivered ++ frames)
  events : reading.events.filter isFrame = events.filter isFrame ++ frames.map Frame.event

/-- What a turn of the loop does. It leaves a complete frame only when the call has no room for it, or is not fed. -/
structure Reads (answer : Received) (connection : Connection) (events : List ServerEvent) (reading : Reading)
    (frames : List Frame) : Prop where
  delivers : Delivers connection events reading frames
  split (piece : List UInt8) : answer = .bytes piece →
    connection.readBuf ++ connection.chunk piece = frames.flatMap Frame.encode ++ reading.connection.readBuf
  goesOn : reading.ended = none → reading.events.length = events.length + frames.length ∧
    ∃ piece, answer = .bytes piece ∧ connection.chunk piece ≠ []
  room : events.length + frames.length ≤ maxFramesPerReadiness
  closes : reading.ended ≠ none → events.length + frames.length < maxFramesPerReadiness
  incomplete : events.length + frames.length < maxFramesPerReadiness →
    (Fed [answer] connection ↔ Incomplete reading.connection.readBuf)

theorem filter_event (frames : List Frame) :
    (frames.map Frame.event).filter isFrame = frames.map Frame.event := by
  rw [List.filter_eq_self]
  intro event member
  obtain ⟨frame, _, rfl⟩ := List.mem_map.mp member
  rfl

theorem Reads.nothing {after : Connection} {closing : List ServerEvent} {how : Ended}
    (fewer : events.length < maxFramesPerReadiness)
    (same : after.readBuf = connection.readBuf ∧ after.received = connection.received)
    (noFrame : closing.filter isFrame = [])
    (noChunk : ∀ piece, answer = .bytes piece → connection.chunk piece = []) :
    Reads answer connection events ⟨after, events ++ closing, some how⟩ [] where
  delivers := ⟨fun delivered held => by simpa [Accounts, same] using held, by simp [noFrame]⟩
  split piece taken := by simp [noChunk piece taken, same]
  goesOn on := by cases on
  room := fewer.le
  closes _ := fewer
  incomplete _ := by
    rw [same.1]
    refine or_iff_left ?_
    rintro ⟨piece, taken, some⟩
    exact some (noChunk piece (Option.some.inj taken))

theorem readOnce_reads (fewer : events.length < maxFramesPerReadiness) (answer : Received) :
    ∃ frames, Reads answer connection events (readOnce answer connection events) frames := by
  unfold readOnce
  dsimp only
  split
  case isTrue full =>
    refine ⟨[], .nothing fewer ⟨rfl, rfl⟩ rfl fun piece _ => ?_⟩
    rw [Connection.chunk, full, Nat.min_zero, List.take_zero]
  case isFalse =>
  cases answer with
  | descriptor | malformed | failed => exact ⟨[], .nothing fewer ⟨rfl, rfl⟩ rfl fun _ other => by cases other⟩
  | wouldBlock =>
      have blocked : Reads .wouldBlock connection events ⟨connection, events ++ [], some .blocked⟩ [] :=
        .nothing fewer ⟨rfl, rfl⟩ rfl fun _ other => by cases other
      rw [List.append_nil] at blocked
      exact ⟨[], blocked⟩
  | bytes piece =>
      dsimp only
      split
      case isTrue nothing =>
        refine ⟨[], .nothing fewer ⟨rfl, rfl⟩ rfl fun _ same => ?_⟩
        cases same
        exact nothing
      case isFalse some =>
      have fed : Fed [.bytes piece] connection := .inr ⟨piece, rfl, some⟩
      obtain ⟨frames, drains⟩ := drainFrames_spec (maxFramesPerReadiness - events.length)
        (connection.readBuf ++ connection.chunk piece) events
      generalize drainFrames (maxFramesPerReadiness - events.length) (connection.readBuf ++ connection.chunk piece)
        events = drained at drains
      have accounts (delivered : List Frame) (held : Accounts connection delivered) :
          connection.received ++ connection.chunk piece =
            (delivered ++ frames).flatMap Frame.encode ++ drained.readBuf := by
        rw [held, List.flatMap_append, List.append_assoc, List.append_assoc, ← drains.split]
      have delivers : drained.events.filter isFrame =
          events.filter isFrame ++ frames.map Frame.event := by
        rw [drains.events, List.filter_append, List.filter_append, filter_event]
        cases drained.cut <;> simp [isFrame]
      have split (other : List UInt8) (same : Received.bytes piece = .bytes other) :
          connection.readBuf ++ connection.chunk other = frames.flatMap Frame.encode ++ drained.readBuf := by
        cases same
        exact drains.split
      have room := drains.room
      refine ⟨frames, ?_⟩
      cases isCut : drained.cut with
      | true =>
          rw [isCut, if_pos rfl] at room
          refine ⟨⟨accounts, by simpa [isFrame] using delivers⟩, split, fun on => ?_, by omega,
            fun _ => by omega, fun _ => iff_of_true fed (drains.incomplete (by omega))⟩
          cases on
      | false =>
          rw [isCut, if_neg Bool.false_ne_true] at room
          refine ⟨⟨accounts, delivers⟩, split, fun _ => ⟨?_, piece, rfl, some⟩, by omega, fun ends => absurd rfl ends,
            fun _ => iff_of_true fed (drains.incomplete (by omega))⟩
          simp [drains.events, isCut]

/-- A fed turn has room exactly when it leaves no complete frame and, in a hangup, does not stop before readable
bytes. -/
theorem Reads.room_iff (reads : Reads answer connection events reading frames) (fed : Fed [answer] connection) :
    Room hangup answer rest connection events ↔ Incomplete reading.connection.readBuf ∧
      (reading.ended = none → hangup = true → Readable rest → reading.events.length < maxFramesPerReadiness) := by
  constructor
  · intro room
    refine ⟨fun frame starts => ?_, fun on isHangup readable => ?_⟩
    · by_cases full : events.length + frames.length < maxFramesPerReadiness
      · exact (reads.incomplete full).mp fed frame starts
      · obtain ⟨_, piece, taken, _⟩ := reads.goesOn (not_not.mp fun ends => full (reads.closes ends))
        have begins : Begins (frames ++ [frame]) (connection.readBuf ++ connection.chunk piece) := by
          rw [Begins, reads.split piece taken, List.flatMap_append, List.flatMap_singleton]
          exact (List.prefix_append_right_inj _).mpr starts
        have most := (room piece _ taken begins).1
        rw [List.length_append, List.length_singleton] at most
        omega
    · obtain ⟨counted, piece, taken, _⟩ := reads.goesOn on
      rw [counted]
      refine (room piece frames taken ?_).2 isHangup readable
      rw [reads.split piece taken]
      exact List.prefix_append _ _
  · rintro ⟨incomplete, stops⟩ piece others taken begins
    rw [reads.split piece taken] at begins
    have most := begins.length_le incomplete
    have room := reads.room
    refine ⟨by omega, fun isHangup readable => ?_⟩
    cases ended : reading.ended with
    | none =>
        have counted := (reads.goesOn ended).1
        have fewer := stops ended isHangup readable
        omega
    | some how =>
        have fewer := reads.closes (by simp [ended])
        omega

theorem readOnce_ended (answer : Received) (connection : Connection) (events : List ServerEvent) :
    (readOnce answer connection events).ended ≠ some .limited := by
  unfold readOnce
  grind

theorem readLoop_full (full : maxFramesPerReadiness ≤ events.length) :
    readLoop answers connection events = (⟨connection, events, some .limited⟩, answers) := by
  cases answers <;> rw [readLoop, if_pos full]

theorem spaced_full (full : maxFramesPerReadiness ≤ events.length) : Spaced hangup answers connection events := by
  cases answers with
  | nil => trivial
  | cons => exact fun fewer => absurd full (not_le.mpr fewer)

theorem Delivers.trans {others : List Frame} {after : Reading} (first : Delivers connection events reading frames)
    (second : Delivers reading.connection reading.events after others) :
    Delivers connection events after (frames ++ others) where
  accounts delivered held := List.append_assoc .. ▸ second.accounts _ (first.accounts _ held)
  events := by rw [second.events, first.events, List.append_assoc, List.map_append]

theorem readLoop_delivers (answers : List Received) (connection : Connection) (events : List ServerEvent) :
    ∃ frames, Delivers connection events (readLoop answers connection events).1 frames := by
  induction answers generalizing connection events with
  | nil =>
      rw [readLoop]
      split
      next => exact ⟨[], by simp, by simp⟩
      next fewer =>
        obtain ⟨frames, reads⟩ := @readOnce_reads connection events (not_le.mp fewer) .wouldBlock
        exact ⟨frames, reads.delivers⟩
  | cons answer rest ih =>
      rw [readLoop]
      split
      next => exact ⟨[], by simp, by simp⟩
      next fewer =>
        obtain ⟨frames, reads⟩ := @readOnce_reads connection events (not_le.mp fewer) answer
        dsimp only
        split
        next => exact ⟨frames, reads.delivers⟩
        next =>
          obtain ⟨others, delivers⟩ := ih (readOnce answer connection events).connection _
          exact ⟨frames ++ others, reads.delivers.trans delivers⟩

/-- No complete frame is left in the buffer, and a hangup does not stop at the limit before readable bytes. -/
def Clean (hangup : Bool) (read : Reading × List Received) : Prop :=
  Incomplete read.1.connection.readBuf ∧ (hangup = true → read.1.ended = some .limited → ¬ Readable read.2)

theorem readLoop_spec (fewer : events.length < maxFramesPerReadiness) :
    (Fed answers connection ↔ (readLoop answers connection events).1.ended = some .limited ∨
      Incomplete (readLoop answers connection events).1.connection.readBuf) ∧
    (Fed answers connection →
      (Spaced hangup answers connection events ↔ Clean hangup (readLoop answers connection events))) := by
  induction answers generalizing connection events with
  | nil =>
      obtain ⟨frames, reads⟩ := @readOnce_reads connection events fewer .wouldBlock
      have ends : (readOnce .wouldBlock connection events).ended ≠ none := fun on => by
        obtain ⟨_, _, other, _⟩ := reads.goesOn on
        cases other
      have fed : Fed [] connection ↔ _ := (by simp [Fed] : _ ↔ Fed [.wouldBlock] connection).trans
        (reads.incomplete (reads.closes ends))
      rw [readLoop, if_neg (not_le.mpr fewer)]
      exact ⟨fed.trans (or_iff_right (readOnce_ended _ _ _)).symm, fun holds =>
        iff_of_true trivial ⟨fed.mp holds, fun _ limited => absurd limited (readOnce_ended _ _ _)⟩⟩
  | cons answer rest ih =>
      obtain ⟨frames, reads⟩ := @readOnce_reads connection events fewer answer
      rw [readLoop, if_neg (not_le.mpr fewer)]
      dsimp only
      cases ended : (readOnce answer connection events).ended with
      | some how =>
          have fed := reads.incomplete (reads.closes (by simp [ended]))
          refine ⟨fed.trans (or_iff_right (readOnce_ended _ _ _)).symm, fun holds => ?_⟩
          have limit := readOnce_ended answer connection events
          rw [ended] at limit
          simp only [Spaced, fewer, forall_const, reads.room_iff holds]
          simp_all [Clean]
      | none =>
          obtain ⟨counted, piece, taken, some⟩ := reads.goesOn ended
          have fed : Fed (answer :: rest) connection := .inr ⟨piece, congrArg Option.some taken, some⟩
          simp only [Spaced, fewer, forall_const, reads.room_iff fed, ended]
          by_cases full : maxFramesPerReadiness ≤ (readOnce answer connection events).events.length
          · simp [Clean, readLoop_full full, spaced_full full, not_lt.mpr full, fed]
          · have less := not_le.mp full
            have left := (reads.incomplete (counted ▸ less)).mp fed
            obtain ⟨ends, spaced⟩ := ih less
            refine ⟨iff_of_true fed (ends.mp (.inl left)), fun _ => ?_⟩
            simp [← spaced (.inl left), left, less]

end Loop

/-- Any calls of `service_read` on a new connection, and all their events. -/
inductive Calls : Connection → List ServerEvent → Prop
  | start : Calls {} []
  | call {connection : Connection} {events : List ServerEvent} (hangup : Bool) (answers : List Received)
      (calls : Calls connection events) :
      Calls (serviceRead hangup answers connection).1 (events ++ (serviceRead hangup answers connection).2)

/-- A call adds what its loop delivers, and the events of a disconnection at most. -/
theorem serviceRead_spec (hangup : Bool) (answers : List Received) {connection : Connection}
    (connected : connection.connected = true) :
    (serviceRead hangup answers connection).1.readBuf = (readLoop answers connection []).1.connection.readBuf ∧
    (serviceRead hangup answers connection).1.received = (readLoop answers connection []).1.connection.received ∧
    (serviceRead hangup answers connection).2.filter isFrame =
      (readLoop answers connection []).1.events.filter isFrame := by
  unfold serviceRead
  dsimp only
  rw [if_neg (by simp [connected])]
  split
  next => exact ⟨rfl, rfl, rfl⟩
  next =>
    cases hangup with
    | false => exact ⟨rfl, rfl, rfl⟩
    | true =>
        refine ⟨rfl, rfl, ?_⟩
        split <;> simp [isFrame]

theorem Calls.delivered {connection : Connection} {events : List ServerEvent} (calls : Calls connection events) :
    ∃ frames, Accounts connection frames ∧ events.filter isFrame = frames.map Frame.event := by
  induction calls with
  | start => exact ⟨[], rfl, rfl⟩
  | @call connection events hangup answers _ ih =>
      obtain ⟨frames, accounts, delivered⟩ := ih
      cases connected : connection.connected with
      | false =>
          have nothing : serviceRead hangup answers connection = (connection, []) := by simp [serviceRead, connected]
          rw [nothing, List.append_nil]
          exact ⟨frames, accounts, delivered⟩
      | true =>
          obtain ⟨readBuf, received, more⟩ := serviceRead_spec hangup answers connected
          obtain ⟨others, further⟩ := readLoop_delivers answers connection []
          refine ⟨frames ++ others, ?_, ?_⟩
          · rw [Accounts, received, readBuf]
            exact further.accounts _ accounts
          · rw [List.filter_append, delivered, more, further.events, List.map_append]
            rfl

/-- Whatever the calls, the frames of the stream are delivered in order, none twice and none left out. A call that drains
the socket leaves a complete frame in the buffer exactly when it is not fed, and a hangup ends clean exactly when there
is room for what it reads. -/
theorem calls_exact {connection : Connection} {events : List ServerEvent} (calls : Calls connection events) :
    (∃ frames : List Frame, connection.received = frames.flatMap Frame.encode ++ connection.readBuf ∧
      events.filter isFrame = frames.map Frame.event) ∧
    ∀ hangup answers, connection.connected = true →
      (Fed answers connection ↔ (readLoop answers connection []).1.ended = some .limited ∨
        Incomplete (serviceRead hangup answers connection).1.readBuf) ∧
      (Fed answers connection → (Spaced hangup answers connection [] ↔
        Incomplete (serviceRead hangup answers connection).1.readBuf ∧
          (hangup = true → (readLoop answers connection []).1.ended = some .limited →
            ¬ Readable (readLoop answers connection []).2))) := by
  refine ⟨calls.delivered, fun hangup answers connected => ?_⟩
  rw [(serviceRead_spec hangup answers connected).1]
  exact readLoop_spec (by decide)

def listExecutions : Frame := ⟨MessageType.listExecutions.toU16, [], Nat.zero_le _⟩

/-- 65 frames, in pieces of 768, 767 and 25 bytes. -/
def overLimit : List Received :=
  let stream := (List.replicate 65 listExecutions).flatMap Frame.encode
  [.bytes (stream.take 768), .bytes ((stream.drop 768).take 767), .bytes (stream.drop 1535)]

/-- The limit cuts off the last frame. It is delivered with the next one, in the next call. -/
theorem calls_exact_limited :
    ∃ connection events, Calls connection events ∧ events = List.replicate 64 listExecutions.event ∧
      ¬ Incomplete connection.readBuf ∧
      (serviceRead false [.bytes listExecutions.encode] connection).2 = List.replicate 2 listExecutions.event ∧
      Incomplete (serviceRead false [.bytes listExecutions.encode] connection).1.readBuf := by
  have calls := Calls.call false overLimit .start
  have fed : Fed [.bytes listExecutions.encode] (serviceRead false overLimit {}).1 := .inr ⟨_, rfl, by decide +kernel⟩
  have next := ((calls_exact calls).2 false [.bytes listExecutions.encode] (by decide +kernel)).1.mp fed
  refine ⟨_, _, calls, ?_, fun incomplete => incomplete listExecutions ?_, ?_, next.resolve_left ?_⟩
  all_goals decide +kernel

/-- The last frame is not delivered, though the socket is drained. -/
theorem last_frame_left_behind :
    ∃ answers, ∃ first second : Connection × List ServerEvent,
      serviceRead false answers {} = first ∧ serviceRead false [.wouldBlock] first.1 = second ∧
      (readLoop [.wouldBlock] first.1 []).1.ended = some .blocked ∧
      second.1.received = (List.replicate 65 listExecutions).flatMap Frame.encode ∧
      first.2 ++ second.2 = List.replicate 64 listExecutions.event ∧
      second.1.connected = true ∧ listExecutions.encode <+: second.1.readBuf :=
  ⟨overLimit, _, _, rfl, rfl, by decide +kernel⟩

end Seyal.Runtime.Inbound
