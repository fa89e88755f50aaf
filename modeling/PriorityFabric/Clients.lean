import PriorityFabric.Streams

/-!
The client library: requests as they are sent, replies as they are understood, and the calls
they stand for.
-/

namespace PriorityFabric.Clients

open PriorityFabric.Lib.LittleEndian
open PriorityFabric.Lib.ByteReader
open PriorityFabric.Basics
open PriorityFabric.Ident
open PriorityFabric.Model
open PriorityFabric.Codec
open PriorityFabric.Codec.Decoder (IdReadable readsIff_id readsIff_u64 run_of_readsIff)
open PriorityFabric.ModelCodec
open PriorityFabric.QueryCodec
open PriorityFabric.DecisionCodec
open PriorityFabric.Durability
open PriorityFabric.Runtime
open PriorityFabric.Runtime.FabricRuntime
open PriorityFabric.Wire
open PriorityFabric.Node
open PriorityFabric.Replies
open PriorityFabric.Streams

/-- The client's state while it is connected. -/
structure NodeClient where
  limits : Limits := {}
  session : Session := {}
  nextRequestId : UInt64 := 1

/-- The calls of the client library. -/
inductive Request where
  | hello (publisher : PublisherId) (boot : BootId) (label : Bytes)
  | defineClass (definition : PriorityClassDef)
  | defineScope (definition : PolicyScopeDef)
  | definePolicy (definition : PolicyDef)
  | defineSubject (definition : SubjectDef)
  | assign (assignment : PriorityAssignment)
  | retire (id : PriorityAssignmentId) (reason : Bytes)
  | advanceEpoch (reason : Bytes)
  | fence (publisher : PublisherId) (boot : BootId) (reason : Bytes)
  | evaluate (query : PriorityQuery)
  | checkpoint
  | stats
  | integrity
  | ping
  | shutdown

def Request.op : Request → Op
  | hello _ _ _ => .hello
  | defineClass _ => .defineClass
  | defineScope _ => .defineScope
  | definePolicy _ => .definePolicy
  | defineSubject _ => .defineSubject
  | assign _ => .assign
  | retire _ _ => .retire
  | advanceEpoch _ => .advanceEpoch
  | fence _ _ _ => .fence
  | evaluate _ => .query
  | checkpoint => .checkpoint
  | stats => .stats
  | integrity => .integrity
  | ping => .ping
  | shutdown => .shutdown

def maxLabel : Nat := 128
def maxReason : Nat := 512

def encodeHello (request : HelloRequest) : Bytes :=
  encodeId request.publisher ++
    (encodeBoot request.boot ++
    (Encoder.str (boundText request.clientLabel maxLabel) ++ Encoder.u64 request.nonce))

def encodeRetireRequest (id : PriorityAssignmentId) (reason : Bytes) : Bytes :=
  encodeId id ++ Encoder.str (boundText reason maxReason)

def encodeFenceRequest (publisher : PublisherId) (boot : BootId) (reason : Bytes) : Bytes :=
  encodeId publisher ++ (encodeBoot boot ++ Encoder.str (boundText reason maxReason))

def encodeReason (reason : Bytes) : Bytes := Encoder.str (boundText reason maxReason)

def Request.inner : Request → Bytes
  | hello _ _ _ => []
  | defineClass d => encodeClassDefinition d
  | defineScope d => encodeScopeDefinition d
  | definePolicy d => encodePolicyDefinition d
  | defineSubject d => encodeSubjectDefinition d
  | assign a => encodeAssignment a
  | retire id reason => encodeRetireRequest id reason
  | advanceEpoch reason => encodeReason reason
  | fence publisher boot reason => encodeFenceRequest publisher boot reason
  | evaluate query => encodeQuery query
  | checkpoint | stats | integrity | ping | shutdown => []

namespace NodeClient

/-- A greeting is sent by itself, everything else behind the session block. -/
def body (c : NodeClient) : Request → Bytes
  | .hello publisher boot label =>
      encodeHello ⟨publisher, boot, boundText label maxLabel, c.nextRequestId⟩
  | request => encodeSessionRequest c.session request.inner

def message (c : NodeClient) (request : Request) : Message :=
  ⟨request.op.code, c.nextRequestId, c.body request⟩

def sent (c : NodeClient) : NodeClient := { c with nextRequestId := c.nextRequestId + 1 }

end NodeClient

/-- Calls the library refuses before anything is sent. -/
def Request.refusal : Request → Option Status
  | hello publisher boot _ =>
      if publisher.valid = false ∨ boot.valid = false then
        some (makeError .invalidArgument
          (text "the handshake needs a publisher id and a boot id"))
      else none
  | _ => none

inductive Answer where
  | hello (response : HelloResponse)
  | generation (generation : Generation)
  | epoch (epoch : FabricEpoch)
  | decision (decision : PriorityDecision)
  | stats (stats : FabricStats) (state : StateStats)
  | integrity (report : IntegrityReport)
  | done

/-- The client's reading of the payload of a reply. -/
def understand (limits : Limits) (request : Request) (payload : Bytes) : Result Answer :=
  match request with
  | .hello _ _ _ => (decodeHelloResponse payload limits).map .hello
  | .defineClass _ | .defineScope _ | .definePolicy _ | .defineSubject _ | .assign _
  | .retire _ _ | .checkpoint => (decodeGeneration payload).map .generation
  | .advanceEpoch _ => (decodeEpoch payload).map .epoch
  | .evaluate _ => (decodeDecision payload limits).map .decision
  | .stats => (decodeStatsReply payload limits).map fun reply => .stats reply.stats reply.state
  | .integrity => (decodeIntegrityReply payload).map .integrity
  | .fence _ _ _ | .ping | .shutdown => .ok .done

theorem isFailure_iff {code : StatusCode} : code.isFailure = true ↔ code ≠ .ok := by
  cases code <;> decide

/-- The payload of a response, or the error that an error frame carries.  An error frame with
the code of success makes a status that is ok, and there is no payload beside it. -/
def payloadOf (op : UInt16) (payload : Bytes) : Result (Option Bytes) :=
  if op = Op.error.code then
    match decodeErrorReply payload with
    | .error e => .error e
    | .ok reply =>
        if hfailed : reply.code.isFailure = true then
          .error (makeError reply.code reply.message hfailed)
        else .ok none
  else .ok (some payload)

/-- The calls that ask of a reply no more than that it is ok. -/
def Request.payloadless : Request → Bool
  | fence _ _ _ | ping | shutdown => true
  | _ => false

/-- The exception of a call that takes the value of a result without one; it leaves the call
in the place of a status. -/
def badOptionalAccess : Status := makeError .internal (text "bad optional access")

/-- The granted session is kept for the calls that follow. -/
def settle (c : NodeClient) : Request → Answer → NodeClient
  | .hello publisher boot _, .hello response =>
      { c with session := ⟨publisher, boot, response.epoch, response.token⟩ }
  | _, _ => c

/-- What a call comes to, given the reply frame. -/
def conclude (c : NodeClient) (request : Request) (op : UInt16) (payload : Bytes) :
    Result Answer × NodeClient :=
  match payloadOf op payload with
  | .error e => (.error e, c)
  | .ok none =>
      if request.payloadless then (.ok .done, c) else (.error badOptionalAccess, c)
  | .ok (some payload) =>
      match understand c.limits request payload with
      | .error e => (.error e, c)
      | .ok answer => (.ok answer, settle c request answer)

/-- What a call comes to, given the bytes of the stream back, which may be any. -/
def roundTrip (c : NodeClient) (request : Request) (stream : Bytes) :
    Result Answer × NodeClient :=
  match receiveReply c.limits c.nextRequestId stream with
  | .error e => (.error e, c.sent)
  | .ok ((header, payload), _) => conclude c.sent request header.op payload

theorem checkReply_ok {requestId : UInt64} {header : FrameHeader}
    (h : checkReply requestId header = .ok ()) :
    (header.op = Op.response.code ∨ header.op = Op.error.code) ∧
      header.requestId = requestId := by
  simp only [checkReply, bind_eq_ok, failIf_eq_ok, exists_const] at h
  obtain ⟨hop, hid⟩ := h
  refine ⟨?_, not_not.mp hid⟩
  by_contra hneither
  rw [not_or] at hneither
  exact hop hneither

theorem roundTrip_encode {c : NodeClient} (request : Request) {message : Message}
    (hcheck : checkReply c.nextRequestId message.header = .ok ())
    (hlength : message.payload.length < 2 ^ 32)
    (hpayload : message.payload.length ≤ c.limits.maxFramePayload) (rest : Bytes) :
    roundTrip c request (message.encode ++ rest) =
      conclude c.sent request message.op message.payload := by
  unfold roundTrip receiveReply
  rw [receiveFrame_encode hlength hcheck hpayload rest]
  rfl

end PriorityFabric.Clients
