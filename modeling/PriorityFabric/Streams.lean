import PriorityFabric.Connections
import PriorityFabric.Replies

/-!
A connection of the node, from the bytes its peer sends to the bytes it sends back.

The bytes are any bytes.  When a request is dispatched, which counters go with statistics and
whether a response can be sent is for the environment to say.  A connection brings at most
`max_requests_per_connection` requests.
-/

namespace PriorityFabric.Streams

open PriorityFabric.Lib.LittleEndian
open PriorityFabric.Lib.ByteReader
open PriorityFabric.Basics
open PriorityFabric.Hashing
open PriorityFabric.Codec
open PriorityFabric.Durability
open PriorityFabric.Runtime
open PriorityFabric.Wire
open PriorityFabric.Node
open PriorityFabric.Connections
open PriorityFabric.Replies

/-- What a read of one frame comes to: a frame and what follows it, an answer to a frame that
is refused, or nothing because the stream ends. -/
inductive Received where
  | frame (header : FrameHeader) (payload rest : Bytes)
  | refused (requestId : UInt64) (status : Status)
  | closed

/-- The request a refusal names: none where the header does not start as a frame. -/
def refusedId (stream : Bytes) : UInt64 :=
  let front := stream.take headerBytes
  if fieldAt front 0 4 ≠ frameMagic then 0 else (parseHeader front).requestId

/-- Read one frame the way the node does.  Only a stream that ends is not answered. -/
def receive (limits : Limits) (stream : Bytes) : Received :=
  match receiveRequest limits stream with
  | .ok ((header, payload), rest) => .frame header payload rest
  | .error e =>
      if e.code = .transportError then .closed else .refused (refusedId stream) e

theorem recvExact_ok {count : Nat} {stream bytes rest : Bytes}
    (h : recvExact count stream = .ok (bytes, rest)) :
    bytes.length = count ∧ stream = bytes ++ rest := by
  unfold recvExact takeBytes at h
  split at h
  · cases h
  · rename_i hlength
    cases h
    exact ⟨List.length_take_of_le (by omega), (List.take_append_drop count stream).symm⟩

theorem appendLe_fieldAt {bytes : Bytes} {offset width : Nat}
    (h : offset + width ≤ bytes.length) :
    appendLe width (fieldAt bytes offset width) = (bytes.drop offset).take width := by
  have hlength : ((bytes.drop offset).take width).length = width := by
    rw [List.length_take_of_le]
    rw [List.length_drop]
    omega
  have hread := appendLe_readLe ((bytes.drop offset).take width)
  rwa [hlength] at hread

theorem fieldAt_lt (bytes : Bytes) (offset width : Nat) :
    fieldAt bytes offset width < 256 ^ width := by
  refine lt_of_lt_of_le (readLe_lt _) (Nat.pow_le_pow_right (by norm_num) ?_)
  exact List.length_take_le _ _

theorem take_append_take {bytes : Bytes} (offset width : Nat) :
    (bytes.drop offset).take width ++ bytes.drop (offset + width) = bytes.drop offset := by
  rw [← List.drop_drop, List.take_append_drop]

theorem encodeHeader_parseHeader {front : Bytes} (hlength : front.length = headerBytes)
    (hmagic : fieldAt front 0 4 = frameMagic) :
    encodeHeader (parseHeader front) (parseHeader front).payloadLength.toNat = front := by
  have hbytes : front.length = 24 := hlength
  have h4 : (parseHeader front).format.toNat = fieldAt front 4 2 :=
    Nat.mod_eq_of_lt (fieldAt_lt front 4 2)
  have h6 : (parseHeader front).op.toNat = fieldAt front 6 2 :=
    Nat.mod_eq_of_lt (fieldAt_lt front 6 2)
  have h8 : (parseHeader front).flags.toNat = fieldAt front 8 4 :=
    Nat.mod_eq_of_lt (fieldAt_lt front 8 4)
  have h12 : (parseHeader front).requestId.toNat = fieldAt front 12 8 :=
    Nat.mod_eq_of_lt (fieldAt_lt front 12 8)
  have h20 : (parseHeader front).payloadLength.toNat = fieldAt front 20 4 :=
    Nat.mod_eq_of_lt (fieldAt_lt front 20 4)
  rw [encodeHeader, h4, h6, h8, h12, h20, ← hmagic]
  rw [appendLe_fieldAt (by omega), appendLe_fieldAt (by omega), appendLe_fieldAt (by omega),
    appendLe_fieldAt (by omega), appendLe_fieldAt (by omega), appendLe_fieldAt (by omega)]
  have hlast : (front.drop 20).take 4 = front.drop 20 := by
    apply List.take_of_length_le
    rw [List.length_drop]
    omega
  rw [hlast]
  have hdrop (offset width : Nat) := @take_append_take front offset width
  calc (front.drop 0).take 4 ++ ((front.drop 4).take 2 ++ ((front.drop 6).take 2 ++
        ((front.drop 8).take 4 ++ ((front.drop 12).take 8 ++ front.drop 20))))
      = (front.drop 0).take 4 ++ ((front.drop 4).take 2 ++ ((front.drop 6).take 2 ++
        ((front.drop 8).take 4 ++ front.drop 12))) := by rw [hdrop 12 8]
    _ = (front.drop 0).take 4 ++ ((front.drop 4).take 2 ++ ((front.drop 6).take 2 ++
        front.drop 8)) := by rw [hdrop 8 4]
    _ = (front.drop 0).take 4 ++ ((front.drop 4).take 2 ++ front.drop 6) := by rw [hdrop 6 2]
    _ = (front.drop 0).take 4 ++ front.drop 4 := by rw [hdrop 4 2]
    _ = front.drop 0 := hdrop 0 4
    _ = front := List.drop_zero

theorem validateFrameHeader_ok {header : FrameHeader} {limits : Limits}
    (h : validateFrameHeader header limits = .ok ()) :
    header.format.toNat = formatVersion ∧ header.flags = 0 ∧
      header.payloadLength.toNat ≤ limits.maxFramePayload := by
  simp only [validateFrameHeader, bind_eq_ok, failIf_eq_ok, exists_const] at h
  exact ⟨not_not.mp h.1, not_not.mp h.2.1, not_lt.mp h.2.2⟩

theorem verifyFrameChecksum_ok {buffer : Bytes} {header : FrameHeader}
    (h : verifyFrameChecksum buffer header = .ok ()) :
    buffer.length = headerBytes + header.payloadLength.toNat + trailerBytes ∧
      (crc32c (buffer.take (buffer.length - trailerBytes))).toNat =
        fieldAt buffer (buffer.length - trailerBytes) 4 := by
  simp only [verifyFrameChecksum, bind_eq_ok, failIf_eq_ok, exists_const] at h
  exact ⟨not_not.mp h.1, not_not.mp h.2⟩

def frameMessage (header : FrameHeader) (payload : Bytes) : Message :=
  ⟨header.op, header.requestId, payload⟩

/-- The two reads of a frame, and everything that was checked of them. -/
structure FrameParts (limits : Limits) (front body : Bytes) (header : FrameHeader)
    (payload : Bytes) : Prop where
  lengthFront : front.length = headerBytes
  magic : fieldAt front 0 4 = frameMagic
  parse : parseHeader front = header
  valid : validateFrameHeader header limits = .ok ()
  lengthBody : body.length = header.payloadLength.toNat + trailerBytes
  verify : verifyFrameChecksum (front ++ body) header = .ok ()
  slice : ((front ++ body).drop headerBytes).take header.payloadLength.toNat = payload

section Parts

variable {limits : Limits} {front body payload stream rest : Bytes} {header : FrameHeader}

theorem FrameParts.body_eq (h : FrameParts limits front body header payload) :
    body.take header.payloadLength.toNat = payload := by
  have hpayload := h.slice
  rwa [List.drop_left' h.lengthFront] at hpayload

theorem FrameParts.length_payload (h : FrameParts limits front body header payload) :
    payload.length = header.payloadLength.toNat := by
  rw [← h.body_eq, List.length_take_of_le]
  rw [h.lengthBody]
  omega

theorem FrameParts.header_eq (h : FrameParts limits front body header payload) :
    header = (frameMessage header payload).header := by
  obtain ⟨hformat, hflags, -⟩ := validateFrameHeader_ok h.valid
  have hlength : UInt32.ofNat payload.length = header.payloadLength := by
    rw [h.length_payload, UInt32.ofNat_toNat]
  have hversion : header.format = UInt16.ofNat formatVersion := by
    rw [← hformat, UInt16.ofNat_toNat]
  obtain ⟨format, op, flags, requestId, payloadLength⟩ := header
  simp only [frameMessage, Message.header, FrameHeader.mk.injEq, true_and]
  exact ⟨hversion, hflags, hlength.symm⟩

theorem FrameParts.trailer (h : FrameParts limits front body header payload) :
    body.drop header.payloadLength.toNat = appendLe 4 (crc32c (front ++ payload)).toNat := by
  obtain ⟨hsize, hsum⟩ := verifyFrameChecksum_ok h.verify
  have hcovered : (front ++ body).length - trailerBytes =
      front.length + header.payloadLength.toNat := by
    rw [hsize, h.lengthFront]
    omega
  have hprotected : (front ++ body).take (front.length + header.payloadLength.toNat) =
      front ++ payload := by
    rw [List.take_length_add_append, h.body_eq]
  have htail : (front ++ body).drop (front.length + header.payloadLength.toNat) =
      body.drop header.payloadLength.toNat := by
    rw [List.drop_length_add_append]
  have hfour : (body.drop header.payloadLength.toNat).length = 4 := by
    rw [List.length_drop, h.lengthBody]
    exact Nat.add_sub_cancel_left _ 4
  rw [hcovered, hprotected] at hsum
  rw [hsum, fieldAt, htail, List.take_of_length_le hfour.le]
  have hwritten := appendLe_readLe (body.drop header.payloadLength.toNat)
  rw [hfour] at hwritten
  exact hwritten.symm

theorem FrameParts.encode_eq (h : FrameParts limits front body header payload) :
    front ++ body = (frameMessage header payload).encode := by
  have hfront : encodeHeader header payload.length = front := by
    rw [h.length_payload, ← h.parse]
    exact encodeHeader_parseHeader h.lengthFront h.magic
  calc front ++ body
      = front ++ (body.take header.payloadLength.toNat ++
          body.drop header.payloadLength.toNat) := by rw [List.take_append_drop]
    _ = front ++ payload ++ appendLe 4 (crc32c (front ++ payload)).toNat := by
        rw [h.body_eq, h.trailer, List.append_assoc]
    _ = (frameMessage header payload).encode := by
        rw [Message.encode, encodeFrame, ← h.header_eq]
        simp only [frameMessage, hfront]

theorem FrameParts.bounds (h : FrameParts limits front body header payload) :
    payload.length ≤ limits.maxFramePayload ∧ payload.length < 2 ^ 32 := by
  rw [h.length_payload]
  exact ⟨(validateFrameHeader_ok h.valid).2.2, header.payloadLength.toNat_lt⟩

end Parts

theorem bind_ok {α β : Type} {p : Decoder α} {f : α → Decoder β} {stream rest : Bytes} {b : β}
    (h : (p >>= f) stream = .ok (b, rest)) :
    ∃ a middle, p stream = .ok (a, middle) ∧ f a middle = .ok (b, rest) := by
  change (p stream >>= fun result => f result.1 result.2) = _ at h
  rw [bind_eq_ok] at h
  obtain ⟨⟨a, middle⟩, hp, hf⟩ := h
  exact ⟨a, middle, hp, hf⟩

theorem ofResult_ok {α : Type} {r : Result α} {stream rest : Bytes} {a : α}
    (h : Decoder.ofResult r stream = .ok (a, rest)) : r = .ok a ∧ stream = rest := by
  cases r with
  | error e => cases h
  | ok a' =>
      cases h
      exact ⟨rfl, rfl⟩

theorem refuseIf_ok {bad : Bool} {e : Status} {stream rest : Bytes}
    (h : (refuseIf bad e : Decoder Unit) stream = .ok ((), rest)) :
    bad = false ∧ stream = rest := by
  cases bad with
  | true => cases h
  | false =>
      cases h
      exact ⟨rfl, rfl⟩

theorem receiveFrame_ok {limits : Limits} {wrongMagic : Bytes}
    {check : FrameHeader → Result Unit} {stream payload rest : Bytes} {header : FrameHeader}
    (h : receiveFrame limits wrongMagic check stream = .ok ((header, payload), rest)) :
    stream = (frameMessage header payload).encode ++ rest ∧ check header = .ok () ∧
      header = (frameMessage header payload).header ∧
      payload.length ≤ limits.maxFramePayload ∧ payload.length < 2 ^ 32 := by
  unfold receiveFrame at h
  obtain ⟨front, after, hfront, h⟩ := bind_ok h
  obtain ⟨_, _, hstep, h⟩ := bind_ok h
  obtain ⟨hmagic, rfl⟩ := refuseIf_ok hstep
  obtain ⟨_, _, hstep, h⟩ := bind_ok h
  obtain ⟨hvalid, rfl⟩ := ofResult_ok hstep
  obtain ⟨_, _, hstep, h⟩ := bind_ok h
  obtain ⟨hcheck, rfl⟩ := ofResult_ok hstep
  obtain ⟨body, left, hbody, h⟩ := bind_ok h
  obtain ⟨_, _, hstep, h⟩ := bind_ok h
  obtain ⟨hverify, rfl⟩ := ofResult_ok hstep
  cases h
  obtain ⟨hlength, rfl⟩ := recvExact_ok hfront
  obtain ⟨hcount, rfl⟩ := recvExact_ok hbody
  have hparts : FrameParts limits front body (parseHeader front)
      (((front ++ body).drop headerBytes).take (parseHeader front).payloadLength.toNat) :=
    ⟨hlength, by simpa using hmagic, rfl, hvalid, hcount, hverify, rfl⟩
  refine ⟨?_, hcheck, hparts.header_eq, hparts.bounds⟩
  rw [← List.append_assoc]
  exact congrArg (· ++ rest) hparts.encode_eq

section Frames

variable {limits : Limits} {payload stream rest : Bytes} {header : FrameHeader}

theorem receive_frame (h : receive limits stream = .frame header payload rest) :
    stream = (frameMessage header payload).encode ++ rest ∧
      header = (frameMessage header payload).header ∧
      payload.length ≤ limits.maxFramePayload ∧ payload.length < 2 ^ 32 := by
  unfold receive at h
  cases hread : receiveRequest limits stream with
  | error e =>
      rw [hread] at h
      simp only at h
      split at h <;> cases h
  | ok read =>
      rw [hread] at h
      cases h
      obtain ⟨hstream, -, hheader⟩ := receiveFrame_ok hread
      exact ⟨hstream, hheader⟩

theorem receive_encode {message : Message} (hlength : message.payload.length < 2 ^ 32)
    (hpayload : message.payload.length ≤ limits.maxFramePayload) (rest : Bytes) :
    receive limits (message.encode ++ rest) =
      .frame message.header message.payload rest := by
  have hread : receiveRequest limits (message.encode ++ rest) =
      .ok ((message.header, message.payload), rest) :=
    receiveFrame_encode hlength rfl hpayload rest
  rw [receive, hread]

end Frames

/-- When a request is dispatched, the counters of the runtime then, and whether the response
can be sent. -/
structure Visit where
  now : UInt64
  stats : FabricStats
  sent : Bool := true

/-- The reply to one frame, and the connection after it. -/
def answerFrame (c : Connection) (visit : Visit) (message : Message) : Message × Connection :=
  let next := c.receive visit.now message.header message.payload
  (replyMessage next.node visit.stats message.requestId
    (c.node.dispatch visit.now message.header message.payload).1, next)

/-- A peer whose greeting was refused gets no further service, nor does one that no longer
takes a response. -/
def hangsUp (visit : Visit) (message reply : Message) : Bool :=
  (message.op = Op.hello.code ∧ reply.op = Op.error.code) ∨
    (visit.sent = false ∧ reply.op = Op.response.code)

/-- Read and answer frames, `room` at most; `visits` belong to them in turn. -/
def handleFrames : (room : Nat) → (visits : Nat → Visit) → Connection → Bytes →
    List Message × Connection
  | 0, _, c, _ => ([], c)
  | room + 1, visits, c, stream =>
      if c.node.stopping then ([], c)
      else
        match receive c.node.options.limits stream with
        | .closed => ([], c)
        | .refused requestId e => ([⟨Op.error.code, requestId, encodeErrorReply e⟩], c)
        | .frame header payload rest =>
            let (reply, next) := answerFrame c (visits 0) (frameMessage header payload)
            if hangsUp (visits 0) (frameMessage header payload) reply then ([reply], next)
            else
              let (replies, last) := handleFrames room (fun n => visits (n + 1)) next rest
              (reply :: replies, last)

/-- Serve a connection until it ends, and expire the session it was about. -/
def handleConnection (visits : Nat → Visit) (now : UInt64) (node : FabricNode)
    (stream : Bytes) : Bytes × FabricNode :=
  let (replies, c) :=
    handleFrames node.options.limits.maxRequestsPerConnection visits { node } stream
  (replies.flatMap Message.encode, c.close now)

def answerAll : List (Visit × Message) → Connection → List Message × Connection
  | [], c => ([], c)
  | (visit, message) :: rest, c =>
      let (reply, next) := answerFrame c visit message
      let (replies, last) := answerAll rest next
      (reply :: replies, last)

theorem options_answer {α : Type} (node : FabricNode) (reply : α → Reply)
    (result : Result α × FabricRuntime) : (node.answer reply result).2.options = node.options := by
  obtain ⟨status, r⟩ := result
  cases status <;> rfl

theorem options_decoded {α : Type} {node : FabricNode} {result : Result α}
    {body : α → Result Reply × FabricNode} (h : ∀ a, (body a).2.options = node.options) :
    (node.decoded result body).2.options = node.options := by
  cases result with
  | error e => rfl
  | ok a => exact h a

theorem options_serve (node : FabricNode) (now : UInt64) (op : UInt16) (session : Session)
    (inner : Bytes) : (node.serve now op session inner).2.options = node.options := by
  unfold FabricNode.serve
  simp only
  split
  all_goals first
    | rfl
    | exact options_decoded fun _ => options_answer _ _ _
    | exact options_decoded fun _ => rfl
    | exact options_answer _ _ _
    | (split <;> rfl)

theorem options_dispatch (node : FabricNode) (now : UInt64) (header : FrameHeader)
    (payload : Bytes) : (node.dispatch now header payload).2.options = node.options := by
  unfold FabricNode.dispatch
  split
  · refine options_decoded fun request => ?_
    split <;> rfl
  · exact options_decoded fun request => options_serve _ _ _ _ _

/-- What made a connection end, with room for so many more requests. -/
inductive Ends (room : Nat) (c : Connection) (tail : Bytes) : List Message → Prop
  | limited (h : room = 0) : Ends room c tail []
  | stopping (h : c.node.stopping = true) : Ends room c tail []
  | closed (h : receive c.node.options.limits tail = .closed) : Ends room c tail []
  | refused (requestId : UInt64) (e : Status)
      (h : receive c.node.options.limits tail = .refused requestId e) :
      Ends room c tail [⟨Op.error.code, requestId, encodeErrorReply e⟩]
  | hungUp (visit : Visit) (message reply : Message) (h : hangsUp visit message reply = true) :
      Ends room c tail []

theorem receive_nil (limits : Limits) : receive limits [] = .closed := rfl

theorem handleFrames_nil (room : Nat) (visits : Nat → Visit) (c : Connection) :
    handleFrames room visits c [] = ([], c) := by
  cases room with
  | zero => rfl
  | succ room =>
      rw [handleFrames, receive_nil]
      split <;> rfl

/-- The frames a connection serves, where they stop and what is said then. -/
structure Serves (room : Nat) (visits : Nat → Visit) (c : Connection) (stream : Bytes)
    (served : List (Visit × Message)) (tail : Bytes) (closing : List Message) : Prop where
  room_le : served.length ≤ room
  visits_eq : served.map Prod.fst = (List.range served.length).map visits
  stream_eq : stream = (served.map Prod.snd).flatMap Message.encode ++ tail
  bounds : ∀ message ∈ served.map Prod.snd,
    message.payload.length ≤ c.node.options.limits.maxFramePayload
  frames : handleFrames room visits c stream =
    ((answerAll served c).1 ++ closing, (answerAll served c).2)
  alone : handleFrames room visits c ((served.map Prod.snd).flatMap Message.encode) =
    answerAll served c
  ends : Ends (room - served.length) (answerAll served c).2 tail closing

theorem serves_none {room : Nat} {visits : Nat → Visit} {c : Connection} {stream : Bytes}
    {closing : List Message} (hframes : handleFrames room visits c stream = (closing, c))
    (hends : Ends room c stream closing) : Serves room visits c stream [] stream closing where
  room_le := Nat.zero_le room
  visits_eq := rfl
  stream_eq := rfl
  bounds := by simp
  frames := hframes
  alone := handleFrames_nil room visits c
  ends := hends

/-- The frames at the front of the stream are answered in turn; then the connection ends. -/
theorem handleFrames_serves (room : Nat) (visits : Nat → Visit) (c : Connection)
    (stream : Bytes) :
    ∃ served tail closing, Serves room visits c stream served tail closing := by
  induction room generalizing visits c stream with
  | zero => exact ⟨[], stream, [], serves_none rfl (.limited rfl)⟩
  | succ room ih =>
      by_cases hstopping : c.node.stopping = true
      · refine ⟨[], stream, [], serves_none ?_ (.stopping hstopping)⟩
        simp [handleFrames, hstopping]
      · cases hreceive : receive c.node.options.limits stream with
        | closed =>
            refine ⟨[], stream, [], serves_none ?_ (.closed hreceive)⟩
            simp [handleFrames, hstopping, hreceive]
        | refused requestId e =>
            refine ⟨[], stream, _, serves_none ?_ (.refused requestId e hreceive)⟩
            simp [handleFrames, hstopping, hreceive]
        | frame header payload rest =>
            obtain ⟨hstream, hheader, hpayload, hlength⟩ := receive_frame hreceive
            have hagain (rest : Bytes) : receive c.node.options.limits
                ((frameMessage header payload).encode ++ rest) = .frame header payload rest := by
              rw [receive_encode hlength hpayload, ← hheader]
              rfl
            have halone := hagain []
            rw [List.append_nil] at halone
            generalize hanswer : answerFrame c (visits 0) (frameMessage header payload) = answer
            obtain ⟨reply, next⟩ := answer
            have hoptions : next.node.options = c.node.options := by
              have hnext := congrArg (fun a => a.2.node.options) hanswer
              exact hnext.symm.trans (options_dispatch _ _ _ _)
            by_cases hhang : hangsUp (visits 0) (frameMessage header payload) reply = true
            · refine ⟨[(visits 0, frameMessage header payload)], rest, [], ?_, rfl, ?_, ?_, ?_,
                ?_, .hungUp _ _ _ hhang⟩
              · simp
              · simpa using hstream
              · simpa [frameMessage] using hpayload
              · simp [handleFrames, hstopping, hreceive, hanswer, hhang, answerAll]
              · simp [handleFrames, hstopping, halone, hanswer, hhang, answerAll]
            · obtain ⟨served, tail, closing, hserves⟩ := ih (fun n => visits (n + 1)) next rest
              refine ⟨(visits 0, frameMessage header payload) :: served, tail, closing,
                ?_, ?_, ?_, ?_, ?_, ?_, ?_⟩
              · exact Nat.succ_le_succ hserves.room_le
              · rw [List.map_cons, hserves.visits_eq, List.length_cons,
                  List.range_succ_eq_map, List.map_cons, List.map_map]
                rfl
              · rw [List.map_cons, List.flatMap_cons, List.append_assoc, ← hserves.stream_eq,
                  hstream]
              · intro message hmessage
                rcases List.mem_cons.mp hmessage with rfl | htail
                · exact hpayload
                · rw [← hoptions]
                  exact hserves.bounds message htail
              · simp [handleFrames, hstopping, hreceive, hanswer, hhang, answerAll,
                  hserves.frames]
              · simp [handleFrames, hstopping, hagain, hanswer, hhang, answerAll, hserves.alone]
              · simpa only [answerAll, hanswer, List.length_cons, Nat.succ_sub_succ] using
                  hserves.ends

theorem course_answerAll (served : List (Visit × Message)) (c : Connection) :
    Course c (answerAll served c).2 := by
  induction served generalizing c with
  | nil => exact .refl
  | cons entry served ih =>
      obtain ⟨visit, message⟩ := entry
      exact .head (.frame c visit.now message.header message.payload)
        (ih (c.receive visit.now message.header message.payload))

end PriorityFabric.Streams
