import PriorityFabric.JournalScan
import PriorityFabric.QueryCodec
import PriorityFabric.Runtime

/-!
The framed protocol: operations, frames, session blocks and requests.

A socket is the byte string its peer sends before it closes.
-/

namespace PriorityFabric.Wire

open PriorityFabric.Lib.LittleEndian
open PriorityFabric.Lib.ByteReader
open PriorityFabric.Basics
open PriorityFabric.Ident
open PriorityFabric.Hashing
open PriorityFabric.Model
open PriorityFabric.Codec
open PriorityFabric.Codec.Decoder (IdReadable readsIff_id readsIff_u64 readsIff_blob
  readsIff_ofResult run_of_readsIff run_refuses_of_readsIff)
open PriorityFabric.ModelCodec
open PriorityFabric.Durability
open PriorityFabric.JournalScan
open PriorityFabric.Runtime

inductive Op where
  | hello | helloAck
  | defineClass | defineScope | definePolicy | defineSubject | assign | retire
  | query
  | advanceEpoch | fence
  | stats | checkpoint | audit | integrity
  | ping
  | shutdown
  | response | error
  deriving DecidableEq, Repr

def Op.code : Op → UInt16
  | hello => 1
  | helloAck => 2
  | defineClass => 10
  | defineScope => 11
  | definePolicy => 12
  | defineSubject => 13
  | assign => 14
  | retire => 15
  | query => 20
  | advanceEpoch => 30
  | fence => 31
  | stats => 40
  | checkpoint => 41
  | audit => 42
  | integrity => 43
  | ping => 50
  | shutdown => 60
  | response => 100
  | error => 101

def Op.name : Op → Bytes
  | hello => text "hello"
  | helloAck => text "hello_ack"
  | defineClass => text "define_class"
  | defineScope => text "define_scope"
  | definePolicy => text "define_policy"
  | defineSubject => text "define_subject"
  | assign => text "assign"
  | retire => text "retire"
  | query => text "query"
  | advanceEpoch => text "advance_epoch"
  | fence => text "fence"
  | stats => text "stats"
  | checkpoint => text "checkpoint"
  | audit => text "audit"
  | integrity => text "integrity"
  | ping => text "ping"
  | shutdown => text "shutdown"
  | response => text "response"
  | error => text "error"

/-- The operation a code names; a frame may carry any code. -/
def Op.ofCode? (code : UInt16) : Option Op :=
  [hello, helloAck, defineClass, defineScope, definePolicy, defineSubject, assign, retire, query,
    advanceEpoch, fence, stats, checkpoint, audit, integrity, ping, shutdown, response,
    error].find? (·.code = code)

@[simp] theorem Op.ofCode?_code (op : Op) : Op.ofCode? op.code = some op := by
  cases op <;> decide

/-- The name of an operation code, as messages show it. -/
def opName (code : UInt16) : Bytes := (Op.ofCode? code).elim (text "unknown") Op.name

def frameMagic : Nat := 0x50465731

def headerBytes : Nat := 24
def trailerBytes : Nat := 4

structure FrameHeader where
  format : UInt16 := UInt16.ofNat formatVersion
  op : UInt16 := Op.ping.code
  flags : UInt32 := 0
  requestId : UInt64 := 0
  payloadLength : UInt32 := 0
  deriving DecidableEq, Repr

/-- The header of a frame as it is written.  The length is that of the payload, whatever the
header says. -/
def encodeHeader (header : FrameHeader) (length : Nat) : Bytes :=
  appendLe 4 frameMagic ++
    (appendLe 2 header.format.toNat ++
    (appendLe 2 header.op.toNat ++
    (appendLe 4 header.flags.toNat ++
    (appendLe 8 header.requestId.toNat ++
    appendLe 4 length))))

def encodeFrame (header : FrameHeader) (payload : Bytes) : Bytes :=
  let frame := encodeHeader header payload.length ++ payload
  frame ++ appendLe 4 (crc32c frame).toNat

def parseHeader (bytes : Bytes) : FrameHeader where
  format := UInt16.ofNat (fieldAt bytes 4 2)
  op := UInt16.ofNat (fieldAt bytes 6 2)
  flags := UInt32.ofNat (fieldAt bytes 8 4)
  requestId := UInt64.ofNat (fieldAt bytes 12 8)
  payloadLength := UInt32.ofNat (fieldAt bytes 20 4)

def validateFrameHeader (header : FrameHeader) (limits : Limits) : Result Unit := do
  failIf (header.format.toNat ≠ formatVersion) .protocolError
    (text "frame declares format version " ++ decimal header.format.toNat ++
      text "; this build implements " ++ decimal formatVersion)
  failIf (header.flags ≠ 0) .protocolError
    (text "frame carries reserved flags (" ++ decimal header.flags.toNat ++
      text "); reserved bits are rejected rather than ignored")
  failIf (header.payloadLength.toNat > limits.maxFramePayload) .limitExceeded
    (text "frame declares a payload of " ++ decimal header.payloadLength.toNat ++
      text " bytes, limit is " ++ decimal limits.maxFramePayload)

def verifyFrameChecksum (buffer : Bytes) (header : FrameHeader) : Result Unit := do
  let expected := headerBytes + header.payloadLength.toNat + trailerBytes
  failIf (buffer.length ≠ expected) .protocolError
    (text "frame buffer holds " ++ decimal buffer.length ++
      text " bytes but the header describes " ++ decimal expected)
  let covered := buffer.length - trailerBytes
  failIf ((crc32c (buffer.take covered)).toNat ≠ fieldAt buffer covered 4) .protocolError
    (text "frame checksum mismatch")

def recvExact (count : Nat) : Decoder Bytes :=
  takeBytes count fun _ => makeError .transportError (text "the peer closed the connection")

/-- Read one frame from a socket.  Node and client read frames the same way; they differ in
their words for a wrong magic, and the client checks the header further. -/
def receiveFrame (limits : Limits) (wrongMagic : Bytes) (check : FrameHeader → Result Unit) :
    Decoder (FrameHeader × Bytes) := do
  let front ← recvExact headerBytes
  refuseIf (fieldAt front 0 4 ≠ frameMagic) (makeError .protocolError wrongMagic)
  let header := parseHeader front
  Decoder.ofResult (validateFrameHeader header limits)
  Decoder.ofResult (check header)
  let body ← recvExact (header.payloadLength.toNat + trailerBytes)
  Decoder.ofResult (verifyFrameChecksum (front ++ body) header)
  return (header, ((front ++ body).drop headerBytes).take header.payloadLength.toNat)

/-- What the node reads in `handle_connection`. -/
def receiveRequest (limits : Limits) : Decoder (FrameHeader × Bytes) :=
  receiveFrame limits (text "the frame does not start with the fabric magic value") fun _ => .ok ()

/-- A reply is a response or an error and names the request. -/
def checkReply (requestId : UInt64) (header : FrameHeader) : Result Unit := do
  failIf (header.op ≠ Op.response.code ∧ header.op ≠ Op.error.code) .protocolError
    (text "the node answered with '" ++ opName header.op ++
      text "' where a reply was expected")
  failIf (header.requestId ≠ requestId) .protocolError
    (text "the reply names request " ++ decimal header.requestId.toNat ++
      text " but request " ++ decimal requestId.toNat ++ text " was sent")

def receiveReply (limits : Limits) (requestId : UInt64) : Decoder (FrameHeader × Bytes) :=
  receiveFrame limits (text "the reply does not carry the fabric magic") (checkReply requestId)

/-- Read up to `count` frames, until one cannot be read; what is left of the stream is
returned too. -/
def readFrames (limits : Limits) :
    (count : Nat) → (stream : Bytes) → List (FrameHeader × Bytes) × Bytes
  | 0, stream => ([], stream)
  | count + 1, stream =>
      match receiveRequest limits stream with
      | .error _ => ([], stream)
      | .ok (frame, rest) =>
          let (frames, left) := readFrames limits count rest
          (frame :: frames, left)

def encodeSession (session : Session) : Bytes :=
  encodeId session.publisher ++
    (encodeBoot session.boot ++
    (Encoder.u64 session.epoch.value ++
    Encoder.u64 session.token.value))

def decodeSession (limits : Limits) : Decoder Session := do
  let publisher ← Decoder.id limits
  let boot ← decodeBoot
  let epoch ← Decoder.u64
  let token ← Decoder.u64
  return { publisher, boot, epoch := ⟨epoch⟩, token := ⟨token⟩ }

def encodeSessionRequest (session : Session) (inner : Bytes) : Bytes :=
  Encoder.str (encodeSession session) ++ inner

def readSessionRequest (limits : Limits) : Decoder (Session × Bytes) := do
  let session ← Decoder.blob limits.maxRecordPayload (Decoder.run (decodeSession limits))
  let inner ← fun input => .ok (input, [])
  return (session, inner)

def decodeSessionRequest (payload : Bytes) (limits : Limits) : Result (Session × Bytes) :=
  readAll (readSessionRequest limits) payload

structure HelloRequest where
  publisher : PublisherId
  boot : BootId
  clientLabel : Bytes
  nonce : UInt64

def decodeHello (payload : Bytes) (limits : Limits) : Result HelloRequest :=
  Decoder.run (do
    let publisher ← Decoder.id limits
    let boot ← decodeBoot
    let clientLabel ← Decoder.str 128
    let nonce ← Decoder.u64
    return { publisher, boot, clientLabel, nonce }) payload

def decodeRetireRequest (payload : Bytes) (limits : Limits) :
    Result (PriorityAssignmentId × Bytes) :=
  Decoder.run (do
    let id ← Decoder.id limits
    let reason ← Decoder.str limits.maxNoteLength
    return (id, reason)) payload

structure FenceRequest where
  publisher : PublisherId
  boot : BootId
  reason : Bytes

def decodeFenceRequest (payload : Bytes) (limits : Limits) : Result FenceRequest :=
  Decoder.run (do
    let publisher ← Decoder.id limits
    let boot ← decodeBoot
    let reason ← Decoder.str limits.maxNoteLength
    return { publisher, boot, reason }) payload

def decodeReason (payload : Bytes) (limits : Limits) : Result Bytes :=
  Decoder.run (Decoder.str limits.maxNoteLength) payload

/-- An operation code, a request id and a payload. -/
structure Message where
  op : UInt16
  requestId : UInt64
  payload : Bytes

def Message.header (message : Message) : FrameHeader :=
  { op := message.op, requestId := message.requestId,
    payloadLength := UInt32.ofNat message.payload.length }

def Message.encode (message : Message) : Bytes := encodeFrame message.header message.payload

def messageOf (frame : FrameHeader × Bytes) : Message := ⟨frame.1.op, frame.1.requestId, frame.2⟩

@[simp] theorem length_encodeHeader (header : FrameHeader) (length : Nat) :
    (encodeHeader header length).length = 24 := by
  simp [encodeHeader]

theorem verifyFrameChecksum_trailer {frame : Bytes} {header : FrameHeader}
    (hframe : frame.length = headerBytes + header.payloadLength.toNat) :
    verifyFrameChecksum (frame ++ appendLe 4 (crc32c frame).toNat) header = .ok () := by
  have hcovered : (frame ++ appendLe 4 (crc32c frame).toNat).length - trailerBytes =
      frame.length := by
    rw [List.length_append, length_appendLe]
    rfl
  have hbound : (crc32c frame).toNat < 256 ^ 4 := UInt32.toNat_lt _
  have htake : (frame ++ appendLe 4 (crc32c frame).toNat).take frame.length = frame :=
    List.take_left' rfl
  have hfield : fieldAt (frame ++ appendLe 4 (crc32c frame).toNat) frame.length 4 =
      (crc32c frame).toNat := by
    have hsum := @fieldAt_append frame [] frame.length 4 _ rfl hbound
    rwa [List.append_nil] at hsum
  unfold verifyFrameChecksum
  simp only [bind_eq_ok, failIf_eq_ok, exists_const, hcovered, htake, hfield, ne_eq,
    not_true_eq_false, not_false_eq_true, and_true, not_not]
  rw [List.length_append, length_appendLe, hframe]
  rfl

theorem readsIff_check {α : Type} {r : Result Unit} (h : r = .ok ()) {f : Unit → Decoder α}
    {bytes : Bytes} {a : α} {C : Prop} (hf : ReadsIff (f ()) bytes a C) :
    ReadsIff (Decoder.ofResult r >>= f) bytes a C := by
  rw [h]
  exact hf

theorem readsIff_receiveFrame {limits : Limits} {check : FrameHeader → Result Unit}
    {front payload trailer : Bytes} {header : FrameHeader} (hfront : front.length = headerBytes)
    (hmagic : fieldAt front 0 4 = frameMagic) (hparse : parseHeader front = header)
    (hvalid : validateFrameHeader header limits = .ok ()) (hcheck : check header = .ok ())
    (hcount : header.payloadLength.toNat = payload.length)
    (htrailer : trailer.length = trailerBytes)
    (hverify : verifyFrameChecksum (front ++ (payload ++ trailer)) header = .ok ())
    (wrongMagic : Bytes) :
    ReadsIff (receiveFrame limits wrongMagic check) (front ++ (payload ++ trailer))
      (header, payload) True := by
  have hbody : (payload ++ trailer).length = header.payloadLength.toNat + trailerBytes := by
    rw [List.length_append, hcount, htrailer]
  have hslice : ((front ++ (payload ++ trailer)).drop headerBytes).take
      header.payloadLength.toNat = payload := by
    rw [List.drop_left' hfront, hcount, List.take_left' rfl]
  have hend : ReadsIff (ε := Status) (Pure.pure (header,
      ((front ++ (payload ++ trailer)).drop headerBytes).take header.payloadLength.toNat)) []
      (header, payload) True := by
    rw [hslice]
    exact ReadsIff.pure _
  have hrest : ReadsIff (do
      let body ← recvExact (header.payloadLength.toNat + trailerBytes)
      Decoder.ofResult (verifyFrameChecksum (front ++ body) header)
      return (header, ((front ++ body).drop headerBytes).take header.payloadLength.toNat))
      (payload ++ trailer) (header, payload) True :=
    ReadsIff.congr (ReadsIff.bind_last (ReadsIff.takeBytes _ hbody)
      fun _ => readsIff_check hverify hend) (by simp)
  refine ReadsIff.bind_true (ReadsIff.takeBytes _ hfront) ?_
  simp only [hparse]
  refine ReadsIff.congr (ReadsIff.guard fun _ =>
    readsIff_check hvalid (readsIff_check hcheck hrest)) ?_
  simp [hmagic]

theorem fieldAt_encodeHeader_magic (header : FrameHeader) (length : Nat) :
    fieldAt (encodeHeader header length) 0 4 = frameMagic := by
  have hmagic : frameMagic < 256 ^ 4 := by norm_num [frameMagic]
  rw [fieldAt, encodeHeader, List.drop_zero, List.take_left' (length_appendLe 4 _),
    readLe_appendLe hmagic]

/-- A header gives back every field but the length, which is that of the payload. -/
theorem parseHeader_encodeHeader (header : FrameHeader) {length : Nat} (hlength : length < 2 ^ 32) :
    parseHeader (encodeHeader header length) =
      { header with payloadLength := UInt32.ofNat length } := by
  have h4 : fieldAt (encodeHeader header length) 4 2 = header.format.toNat := by
    rw [encodeHeader]
    exact fieldAt_append (length_appendLe 4 _) header.format.toNat_lt
  have h6 : fieldAt (encodeHeader header length) 6 2 = header.op.toNat := by
    rw [encodeHeader, ← List.append_assoc]
    exact fieldAt_append (by simp) header.op.toNat_lt
  have h8 : fieldAt (encodeHeader header length) 8 4 = header.flags.toNat := by
    rw [encodeHeader, ← List.append_assoc, ← List.append_assoc]
    exact fieldAt_append (by simp) header.flags.toNat_lt
  have h12 : fieldAt (encodeHeader header length) 12 8 = header.requestId.toNat := by
    rw [encodeHeader, ← List.append_assoc, ← List.append_assoc, ← List.append_assoc]
    exact fieldAt_append (by simp) header.requestId.toNat_lt
  have h20 : fieldAt (encodeHeader header length) 20 4 = length := by
    rw [encodeHeader, ← List.append_assoc, ← List.append_assoc, ← List.append_assoc,
      ← List.append_assoc, ← List.append_nil (appendLe 4 length)]
    exact fieldAt_append (by simp) hlength
  rw [parseHeader, h4, h6, h8, h12, h20, UInt16.ofNat_toNat, UInt16.ofNat_toNat,
    UInt32.ofNat_toNat, UInt64.ofNat_toNat]

section Frame

variable {message : Message} (hlength : message.payload.length < 2 ^ 32)
include hlength

theorem payloadLength_header :
    message.header.payloadLength.toNat = message.payload.length := by
  simp only [Message.header, UInt32.toNat_ofNat']
  exact Nat.mod_eq_of_lt hlength

theorem validateFrameHeader_header {limits : Limits}
    (hpayload : message.payload.length ≤ limits.maxFramePayload) :
    validateFrameHeader message.header limits = .ok () := by
  simp only [validateFrameHeader, bind_eq_ok, failIf_eq_ok, exists_const,
    payloadLength_header hlength]
  refine ⟨fun h => h rfl, fun h => h rfl, by omega⟩

theorem receiveFrame_encode {limits : Limits} {wrongMagic : Bytes}
    {check : FrameHeader → Result Unit} (hcheck : check message.header = .ok ())
    (hpayload : message.payload.length ≤ limits.maxFramePayload) (rest : Bytes) :
    receiveFrame limits wrongMagic check (message.encode ++ rest) =
      .ok ((message.header, message.payload), rest) := by
  have hmagic := fieldAt_encodeHeader_magic message.header message.payload.length
  have hparse : parseHeader (encodeHeader message.header message.payload.length) =
      message.header := parseHeader_encodeHeader message.header hlength
  have hcount := payloadLength_header hlength
  have hverify : verifyFrameChecksum message.encode message.header = .ok () := by
    refine verifyFrameChecksum_trailer ?_
    rw [List.length_append, length_encodeHeader, hcount]
    rfl
  rw [Message.encode, encodeFrame, List.append_assoc] at hverify
  have hread := readsIff_receiveFrame (length_encodeHeader _ _) hmagic hparse
    (validateFrameHeader_header hlength hpayload) hcheck hcount (length_appendLe 4 _) hverify
    wrongMagic
  have hrun := (hread rest).1 trivial
  rw [Message.encode, encodeFrame]
  rwa [← List.append_assoc] at hrun

end Frame

theorem receiveFrame_nil (limits : Limits) :
    ∃ e, receiveRequest limits [] = .error e := ⟨_, rfl⟩

theorem readFrames_encode {limits : Limits} (hlimits : limits.maxFramePayload < 2 ^ 32)
    (messages : List Message)
    (hpayloads : ∀ message ∈ messages, message.payload.length ≤ limits.maxFramePayload)
    {count : Nat} (hcount : messages.length ≤ count) :
    readFrames limits count (messages.flatMap Message.encode) =
      (messages.map fun message => (message.header, message.payload), []) := by
  induction messages generalizing count with
  | nil =>
      cases count with
      | zero => rfl
      | succ count =>
          obtain ⟨e, he⟩ := receiveFrame_nil limits
          simp [readFrames, he]
  | cons message messages ih =>
      cases count with
      | zero => cases hcount
      | succ count =>
          have hfits := hpayloads message (List.mem_cons_self)
          have hread : receiveRequest limits
              (message.encode ++ messages.flatMap Message.encode) =
                .ok ((message.header, message.payload), messages.flatMap Message.encode) :=
            receiveFrame_encode (lt_of_le_of_lt hfits hlimits) rfl hfits _
          have hrest := ih (fun m hm => hpayloads m (List.mem_cons_of_mem _ hm))
            (Nat.le_of_succ_le_succ hcount)
          rw [List.flatMap_cons, readFrames, hread]
          simp only [hrest, List.map_cons]

theorem readsIff_decodeSession (limits : Limits) (session : Session) :
    ReadsIff (decodeSession limits) (encodeSession session) session
      (IdReadable limits session.publisher) := by
  refine ReadsIff.congr (ReadsIff.bind (readsIff_id limits _) fun _ =>
    ReadsIff.bind_true (readsIff_decodeBoot _) <|
    ReadsIff.bind_true (readsIff_u64 _) <|
    ReadsIff.bind_last (readsIff_u64 _) fun _ => ReadsIff.pure_of_eq rfl) ?_
  simp

theorem decodeSessionRequest_encode {limits : Limits} {session : Session} (inner : Bytes)
    (hpublisher : IdReadable limits session.publisher)
    (hlength : (encodeSession session).length ≤ limits.maxRecordPayload)
    (hbound : limits.maxRecordPayload < 2 ^ 32) :
    decodeSessionRequest (encodeSessionRequest session inner) limits = .ok (session, inner) := by
  have hblob := (readsIff_blob (lt_of_le_of_lt hlength hbound)
    (run_of_readsIff (readsIff_decodeSession limits session))
    (run_refuses_of_readsIff (readsIff_decodeSession limits session)) inner).1
      ⟨hlength, hpublisher⟩
  simp only [decodeSessionRequest, encodeSessionRequest, readAll, readSessionRequest, bind,
    StateT.bind, hblob]
  rfl

theorem length_encodeSession (session : Session) :
    (encodeSession session).length = 36 + session.publisher.value.length := by
  simp [encodeSession, encodeId, Encoder.length_str, encodeBoot]
  omega

/-- A stream of frames reads back as the messages it was made of and nothing is left, for the
node, and so does each reply in front of any stream, for the client; and a session block gives
back the session and the request behind it.  The frame limit is a 32-bit number, and `count` is
the number of requests a connection serves. -/
theorem frames_self_delimiting {limits : Limits} (hlimits : limits.maxFramePayload < 2 ^ 32) :
    (∀ (messages : List Message) (count : Nat), messages.length ≤ count →
      (∀ message ∈ messages, message.payload.length ≤ limits.maxFramePayload) →
        (readFrames limits count (messages.flatMap Message.encode)).1.map messageOf = messages ∧
          (readFrames limits count (messages.flatMap Message.encode)).2 = []) ∧
      (∀ (message : Message) (rest : Bytes),
        message.payload.length ≤ limits.maxFramePayload →
        (message.op = Op.response.code ∨ message.op = Op.error.code) →
          receiveReply limits message.requestId (message.encode ++ rest) =
            .ok ((message.header, message.payload), rest)) ∧
      ∀ (session : Session) (inner : Bytes), IdReadable {} session.publisher →
        decodeSessionRequest (encodeSessionRequest session inner) {} = .ok (session, inner) := by
  refine ⟨?_, ?_, ?_⟩
  · intro messages count hcount hpayloads
    rw [readFrames_encode hlimits messages hpayloads hcount]
    refine ⟨?_, rfl⟩
    rw [List.map_map]
    exact List.map_id messages
  · intro message rest hpayload hop
    refine receiveFrame_encode (lt_of_le_of_lt hpayload hlimits) ?_ hpayload rest
    simp only [checkReply, bind_eq_ok, failIf_eq_ok, exists_const]
    exact ⟨fun h => hop.elim h.1 h.2, fun h => h rfl⟩
  · intro session inner hpublisher
    refine decodeSessionRequest_encode inner hpublisher ?_ (by decide)
    rw [length_encodeSession]
    have hshort : session.publisher.value.length ≤ 128 := hpublisher.2
    exact (by omega : 36 + session.publisher.value.length ≤ 1048576)

/-- Two pings, the second with a payload. -/
theorem frames_self_delimiting_pings :
    readFrames {} 2 ([Message.mk Op.ping.code 1 [], ⟨Op.ping.code, 2, [7]⟩].flatMap
      Message.encode) |>.1.map messageOf = [⟨Op.ping.code, 1, []⟩, ⟨Op.ping.code, 2, [7]⟩] :=
  ((frames_self_delimiting (by decide)).1 _ 2 (by decide) (by decide)).1

end PriorityFabric.Wire
