import PriorityFabric.Clients

/-!
A call over the wire is the call itself.

What the client library answers is what the runtime of the node would have answered to the
same call made in its process, and the node is left as that call leaves it.
-/

namespace PriorityFabric.RemoteCalls

open PriorityFabric.Lib.LittleEndian
open PriorityFabric.Lib.ByteReader
open PriorityFabric.Basics
open PriorityFabric.Ident
open PriorityFabric.Model
open PriorityFabric.Codec
open PriorityFabric.Codec.Decoder (IdReadable readsIff_u64 run_of_readsIff)
open PriorityFabric.ModelCodec
open PriorityFabric.QueryCodec
open PriorityFabric.DecisionCodec
open PriorityFabric.Runtime
open PriorityFabric.Runtime.FabricRuntime
open PriorityFabric.Wire
open PriorityFabric.Node
open PriorityFabric.Connections
open PriorityFabric.Replies
open PriorityFabric.Streams
open PriorityFabric.Clients
open PriorityFabric.Lifetimes (Fresh)
open PriorityFabric.Calls (firstSession)
open PriorityFabric.CommitRuns (openStore_empty)
open PriorityFabric.Authority (creatingRuntime fresh_startRuntime)

def answerWith {α : Type} (node : FabricNode) (toAnswer : α → Answer)
    (result : Result α × FabricRuntime) : Result Answer × FabricNode :=
  (result.1.map toAnswer, node.withRuntime result.2)

def locally (node : FabricNode) (visit : Visit) (session : Session) :
    Request → Result Answer × FabricNode
  | .hello publisher boot _ =>
      let granted := node.runtime.grantAuthority visit.now publisher boot
      answerWith node (fun session : Session => .hello
        { nodeId := node.nodeId, nodeBoot := node.nodeBoot, epoch := session.epoch,
          token := session.token, stateGeneration := granted.2.image.generation,
          nodePid := node.pid }) granted
  | .defineClass d => answerWith node .generation (node.runtime.defineClass visit.now session d)
  | .defineScope d => answerWith node .generation (node.runtime.defineScope visit.now session d)
  | .definePolicy d => answerWith node .generation (node.runtime.definePolicy visit.now session d)
  | .defineSubject d =>
      answerWith node .generation (node.runtime.defineSubject visit.now session d)
  | .assign a => answerWith node .generation (node.runtime.assign visit.now session a)
  | .retire id reason =>
      answerWith node .generation (node.runtime.retireAssignment visit.now session id reason)
  | .advanceEpoch reason =>
      answerWith node .epoch (node.runtime.advanceEpoch visit.now session reason)
  | .fence publisher boot reason =>
      answerWith node (fun _ => .done)
        (node.runtime.fence visit.now session publisher boot reason)
  | .evaluate query => (.ok (.decision (FabricNode.evaluate node.runtime query)), node)
  | .checkpoint => answerWith node .generation node.runtime.checkpointRuntime
  | .stats => (.ok (.stats visit.stats (stateStats node.runtime)), node)
  | .integrity =>
      (.ok (.integrity (storedReport node.runtime.integrityReport.1)),
        node.withRuntime node.runtime.integrityReport.2)
  | .ping => (.ok .done, node)
  | .shutdown =>
      if node.options.allowRemoteShutdown = false then
        (.error (makeError .unauthorized
          (text "this node does not accept remote shutdown requests")), node)
      else (.ok .done, { node with stopping := true })

/-- What the node can decode of a request, within its limits. -/
def Readable (limits : Limits) : Request → Prop
  | .hello publisher _ _ => IdReadable limits publisher
  | .defineClass d => RankProper d.precedence ∧ ClassReadable limits d
  | .defineScope d => ScopeReadable limits d
  | .definePolicy d => PolicyReadable limits d
  | .defineSubject d => SubjectReadable limits d
  | .assign a => AssignmentReadable limits a
  | .retire id reason => IdReadable limits id ∧ reason.length ≤ limits.maxNoteLength
  | .advanceEpoch reason => reason.length ≤ limits.maxNoteLength
  | .fence publisher _ reason =>
      IdReadable limits publisher ∧ reason.length ≤ limits.maxNoteLength
  | .evaluate query => query.maxExplanationSteps < 2 ^ 32 ∧ QueryReadable limits query
  | .checkpoint | .stats | .integrity | .ping | .shutdown => True

/-- A greeting needs no session; everything else names a publisher in its session block. -/
def SessionReadable (limits : Limits) (session : Session) : Request → Prop
  | .hello _ _ _ => True
  | _ => IdReadable limits session.publisher ∧
      (encodeSession session).length ≤ limits.maxRecordPayload

structure Carried (limits : Limits) (c : NodeClient) (request : Request) : Prop where
  session : SessionReadable limits c.session request
  readable : Readable limits request
  frame : (c.body request).length ≤ limits.maxFramePayload

/-- What the client can decode of an answer, within its limits. -/
def Delivered (limits : Limits) (node : FabricNode) : Result Answer → Prop
  | .ok (.hello response) => IdReadable limits response.nodeId
  | .ok (.decision decision) => DecisionWithin limits maxCode decision
  | .ok (.stats _ _) => IdReadable limits node.nodeId
  | _ => True

section Requests

variable {limits : Limits}

theorem decodeHello_encode {publisher : PublisherId} (boot : BootId) (label : Bytes)
    (nonce : UInt64) (h : IdReadable limits publisher) :
    decodeHello (encodeHello ⟨publisher, boot, label, nonce⟩) limits =
      .ok ⟨publisher, boot, boundText label maxLabel, nonce⟩ :=
  run_of_readsIff (ReadsIff.bind_true (reads_id h) <|
    ReadsIff.bind_true (readsIff_decodeBoot _) <|
    ReadsIff.bind_true (readsIff_boundText _ _ (by decide)) <|
    ReadsIff.bind_last (readsIff_u64 _) fun _ => ReadsIff.pure_of_eq rfl) ⟨trivial, trivial⟩

variable (hlimits : limitsWithinCompiledCeiling limits = true)
include hlimits

theorem reads_reason {reason : Bytes} (h : reason.length ≤ limits.maxNoteLength) :
    ReadsIff (Decoder.str limits.maxNoteLength) (Encoder.str (boundText reason maxReason)) reason
      True := by
  have hnote : limits.maxNoteLength ≤ maxReason := (limits_bounds_of_within hlimits).2.2.1
  rw [boundText_of_le (h.trans hnote)]
  exact reads_str h (lt_of_le_of_lt hnote (by decide))

theorem decodeReason_encode {reason : Bytes} (h : reason.length ≤ limits.maxNoteLength) :
    decodeReason (encodeReason reason) limits = .ok reason :=
  run_of_readsIff (reads_reason hlimits h) trivial

theorem decodeRetireRequest_encode {id : PriorityAssignmentId} {reason : Bytes}
    (hid : IdReadable limits id) (h : reason.length ≤ limits.maxNoteLength) :
    decodeRetireRequest (encodeRetireRequest id reason) limits = .ok (id, reason) :=
  run_of_readsIff (ReadsIff.bind_true (reads_id hid) <|
    ReadsIff.bind_last (reads_reason hlimits h) fun _ => ReadsIff.pure_of_eq rfl)
    ⟨trivial, trivial⟩

theorem decodeFenceRequest_encode {publisher : PublisherId} (boot : BootId) {reason : Bytes}
    (hid : IdReadable limits publisher) (h : reason.length ≤ limits.maxNoteLength) :
    decodeFenceRequest (encodeFenceRequest publisher boot reason) limits =
      .ok ⟨publisher, boot, reason⟩ :=
  run_of_readsIff (ReadsIff.bind_true (reads_id hid) <|
    ReadsIff.bind_true (readsIff_decodeBoot _) <|
    ReadsIff.bind_last (reads_reason hlimits h) fun _ => ReadsIff.pure_of_eq rfl)
    ⟨trivial, trivial⟩

end Requests

section Replies

variable {c : NodeClient} {request : Request} {node : FabricNode} {visit : Visit}
  {requestId : UInt64}

theorem conclude_replyMessage (c : NodeClient) (request : Request) (node : FabricNode)
    (visit : Visit) (requestId : UInt64) (result : Result Reply) :
    (conclude c request (replyMessage node visit.stats requestId result).op
      (replyMessage node visit.stats requestId result).payload).1 =
      result.bind fun reply =>
        understand c.limits request (encodeReply node visit.stats reply) := by
  cases result with
  | error e =>
      simp only [conclude, payloadOf, if_true, replyMessage, decodeErrorReply_encode,
        dif_pos e.failed, makeError_message]
      rfl
  | ok reply =>
      have hop : Op.response.code ≠ Op.error.code := by decide
      simp only [conclude, payloadOf, replyMessage, hop, if_false, Except.bind]
      split <;> simp_all

theorem fst_answer {α : Type} (node : FabricNode) (reply : α → Reply)
    (result : Result α × FabricRuntime) : (node.answer reply result).1 = result.1.map reply := by
  obtain ⟨status, r⟩ := result
  cases status <;> rfl

/-- The reply carries the answer: the client reads the result of the call. -/
def Conveys (c : NodeClient) (request : Request) (visit : Visit)
    (served : Result Reply × FabricNode) (called : Result Answer × FabricNode) : Prop :=
  (served.1.bind fun reply =>
    understand c.limits request (encodeReply served.2 visit.stats reply)) = called.1 ∧
    served.2 = called.2

theorem conveys_answer {α : Type} {toReply : α → Reply} {toAnswer : α → Answer}
    {result : Result α × FabricRuntime}
    (h : ∀ a, result.1 = .ok a → understand c.limits request
      (encodeReply (node.withRuntime result.2) visit.stats (toReply a)) = .ok (toAnswer a)) :
    Conveys c request visit (node.answer toReply result) (answerWith node toAnswer result) := by
  obtain ⟨status, r⟩ := result
  cases status with
  | error e => exact ⟨rfl, rfl⟩
  | ok a => exact ⟨h a rfl, rfl⟩

theorem conveys_decoded {α : Type} {result : Result α} {a : α}
    {body : α → Result Reply × FabricNode} {called : Result Answer × FabricNode}
    (hdecoded : result = .ok a) (h : Conveys c request visit (body a) called) :
    Conveys c request visit (node.decoded result body) called := by
  rw [hdecoded]
  exact h

end Replies

theorem op_ne_hello (c : NodeClient) {request : Request} (hop : request.op ≠ .hello) :
    (c.message request).header.op ≠ Op.hello.code := by
  change request.op.code ≠ Op.hello.code
  intro h
  have hback := congrArg Op.ofCode? h
  rw [Op.ofCode?_code, Op.ofCode?_code, Option.some.injEq] at hback
  exact hop hback

theorem dispatch_session {node : FabricNode} {c : NodeClient} {request : Request} (now : UInt64)
    (hlimits : limitsWithinCompiledCeiling node.options.limits = true)
    (hop : request.op ≠ .hello) (hsession : IdReadable node.options.limits c.session.publisher ∧
      (encodeSession c.session).length ≤ node.options.limits.maxRecordPayload)
    (hbody : c.body request = encodeSessionRequest c.session request.inner) :
    node.dispatch now (c.message request).header (c.message request).payload =
      node.serve now request.op.code c.session request.inner := by
  have hrecord : node.options.limits.maxRecordPayload < 2 ^ 32 := by
    have hbound := (limits_bounds_of_within hlimits).2.2.2.1
    omega
  have hpayload : (c.message request).payload = encodeSessionRequest c.session request.inner :=
    hbody
  rw [FabricNode.dispatch, if_neg (op_ne_hello c hop), hpayload,
    decodeSessionRequest_encode _ hsession.1 hsession.2 hrecord]
  rfl

section Call

variable {node : FabricNode} {c : NodeClient} {request : Request} {visit : Visit}
  (hnode : limitsWithinCompiledCeiling node.options.limits = true)
  (hclient : limitsWithinCompiledCeiling c.limits = true)
  (hcarried : Carried node.options.limits c request)
  (hdelivered : Delivered c.limits node (locally node visit c.session request).1)
include hnode hclient hcarried hdelivered

/-- The node serves a request with the call itself, and its reply conveys the result. -/
theorem conveys_locally :
    Conveys c request visit
      (node.dispatch visit.now (c.message request).header (c.message request).payload)
      (locally node visit c.session request) := by
  have hgeneration (g : Generation) : (decodeGeneration (encodeGeneration g)).map
      Answer.generation = .ok (.generation g) := by
    rw [decodeGeneration_encode]
    rfl
  obtain ⟨hsession, hreadable, -⟩ := hcarried
  cases request with
  | hello publisher boot label =>
      have hdispatch : node.dispatch visit.now (c.message (.hello publisher boot label)).header
          (c.message (.hello publisher boot label)).payload =
            node.greet visit.now (c.body (.hello publisher boot label)) := rfl
      rw [hdispatch]
      refine conveys_decoded (decodeHello_encode boot _ _ hreadable) ?_
      generalize hgranted : node.runtime.grantAuthority visit.now publisher boot = granted
      obtain ⟨status, r⟩ := granted
      simp only [locally, hgranted] at hdelivered ⊢
      cases status with
      | error e => exact ⟨rfl, rfl⟩
      | ok session =>
          refine ⟨?_, rfl⟩
          have hread := decodeHelloResponse_encode hdelivered
          simp only [Except.bind, understand, encodeReply]
          exact congrArg (Except.map Answer.hello) hread
  | defineClass d =>
      rw [dispatch_session visit.now hnode (by simp [Request.op]) hsession rfl]
      exact conveys_decoded (decodeClassDefinition_encode hnode hreadable.1 hreadable.2)
        (conveys_answer fun g _ => hgeneration g)
  | defineScope d =>
      rw [dispatch_session visit.now hnode (by simp [Request.op]) hsession rfl]
      exact conveys_decoded (decodeScopeDefinition_encode hnode hreadable)
        (conveys_answer fun g _ => hgeneration g)
  | definePolicy d =>
      rw [dispatch_session visit.now hnode (by simp [Request.op]) hsession rfl]
      exact conveys_decoded (decodePolicyDefinition_encode hnode hreadable)
        (conveys_answer fun g _ => hgeneration g)
  | defineSubject d =>
      rw [dispatch_session visit.now hnode (by simp [Request.op]) hsession rfl]
      exact conveys_decoded (decodeSubjectDefinition_encode hnode hreadable)
        (conveys_answer fun g _ => hgeneration g)
  | assign a =>
      rw [dispatch_session visit.now hnode (by simp [Request.op]) hsession rfl]
      exact conveys_decoded (decodeAssignment_encode hnode hreadable)
        (conveys_answer fun g _ => hgeneration g)
  | retire id reason =>
      rw [dispatch_session visit.now hnode (by simp [Request.op]) hsession rfl]
      exact conveys_decoded (decodeRetireRequest_encode hnode hreadable.1 hreadable.2)
        (conveys_answer fun g _ => hgeneration g)
  | advanceEpoch reason =>
      rw [dispatch_session visit.now hnode (by simp [Request.op]) hsession rfl]
      refine conveys_decoded (decodeReason_encode hnode hreadable) (conveys_answer fun e _ => ?_)
      exact congrArg (Except.map Answer.epoch) (decodeEpoch_encode e)
  | fence publisher boot reason =>
      rw [dispatch_session visit.now hnode (by simp [Request.op]) hsession rfl]
      exact conveys_decoded (decodeFenceRequest_encode hnode boot hreadable.1 hreadable.2)
        (conveys_answer fun _ _ => rfl)
  | evaluate query =>
      rw [dispatch_session visit.now hnode (by simp [Request.op]) hsession rfl]
      have hquery : decodeQuery (encodeQuery query) node.options.limits = .ok query :=
        run_of_readsIff (readsIff_readQuery _ hreadable.1) hreadable.2
      refine conveys_decoded hquery ⟨?_, rfl⟩
      exact congrArg (Except.map Answer.decision)
        (decodeDecision_encodeDecision hclient hdelivered)
  | checkpoint =>
      rw [dispatch_session visit.now hnode (by simp [Request.op]) hsession rfl]
      exact conveys_answer fun g _ => hgeneration g
  | stats =>
      rw [dispatch_session visit.now hnode (by simp [Request.op]) hsession rfl]
      have hid : IdReadable c.limits node.nodeId := hdelivered
      have hread (reply : StatsReply) (hnodeId : reply.nodeId = node.nodeId) :
          decodeStatsReply (encodeStatsReply reply) c.limits = .ok reply :=
        decodeStatsReply_encode (by rwa [hnodeId])
      exact ⟨congrArg (Except.map fun reply : StatsReply => Answer.stats reply.stats reply.state)
        (hread _ rfl), rfl⟩
  | integrity =>
      rw [dispatch_session visit.now hnode (by simp [Request.op]) hsession rfl]
      exact ⟨congrArg (Except.map Answer.integrity) (decodeIntegrityReply_encode _), rfl⟩
  | ping =>
      rw [dispatch_session visit.now hnode (by simp [Request.op]) hsession rfl]
      exact ⟨rfl, rfl⟩
  | shutdown =>
      rw [dispatch_session visit.now hnode (by simp [Request.op]) hsession rfl]
      have hserve : node.serve visit.now Op.shutdown.code c.session [] =
          if node.options.allowRemoteShutdown = false then
            (.error (makeError .unauthorized
              (text "this node does not accept remote shutdown requests")), node)
          else (.ok .empty, { node with stopping := true }) := rfl
      change Conveys c .shutdown visit (node.serve visit.now Op.shutdown.code c.session []) _
      rw [hserve, locally]
      split <;> exact ⟨rfl, rfl⟩

end Call

theorem frame_bound_of_within {limits : Limits} (h : limitsWithinCompiledCeiling limits = true) :
    limits.maxFramePayload < 2 ^ 32 := by
  simp only [limitsWithinCompiledCeiling, Bool.and_eq_true, decide_eq_true_eq] at h
  simp only [compiledLimitsCeiling] at h
  omega

theorem checkReply_replyMessage (node : FabricNode) (stats : FabricStats) (requestId : UInt64)
    (result : Result Reply) :
    checkReply requestId (replyMessage node stats requestId result).header = .ok () := by
  simp only [checkReply, bind_eq_ok, failIf_eq_ok, exists_const]
  cases result with
  | error e => exact ⟨fun h => h.2 rfl, fun h => h rfl⟩
  | ok reply => exact ⟨fun h => h.1 rfl, fun h => h rfl⟩

/-- The client after a call: it keeps the session of a greeting that was answered. -/
def after (c : NodeClient) (request : Request) : Result Answer → NodeClient
  | .ok answer => settle c request answer
  | .error _ => c

theorem snd_conclude (c : NodeClient) (request : Request) (op : UInt16) (payload : Bytes) :
    (conclude c request op payload).2 = after c request (conclude c request op payload).1 := by
  unfold conclude
  cases payloadOf op payload with
  | error e => rfl
  | ok answered =>
      cases answered with
      | none =>
          cases request <;> rfl
      | some payload =>
          cases hunderstood : understand c.limits request payload with
          | error e => simp only [hunderstood, after]
          | ok answer => simp only [hunderstood, after]

theorem conclude_answerFrame {node : FabricNode} {c : NodeClient} {request : Request}
    {visit : Visit} (hconveys : Conveys c request visit
      (node.dispatch visit.now (c.message request).header (c.message request).payload)
      (locally node visit c.session request)) :
    conclude c.sent request (answerFrame { node } visit (c.message request)).1.op
        (answerFrame { node } visit (c.message request)).1.payload =
      ((locally node visit c.session request).1,
        after c.sent request (locally node visit c.session request).1) := by
  have hconclude := conclude_replyMessage c.sent request
    (answerFrame { node } visit (c.message request)).2.node visit c.nextRequestId
    (node.dispatch visit.now (c.message request).header (c.message request).payload).1
  have hfirst := hconclude.trans hconveys.1
  refine Prod.ext hfirst ?_
  exact (snd_conclude _ _ _ _).trans (congrArg (after c.sent request) hfirst)

/-- The node reads the request from the front of whatever it is sent, and the client reads the
reply from the front of whatever it is sent back; what the client is told is what the call
comes to in the process of the node, and the node is left as by that call. -/
theorem remote_call_is_local {node : FabricNode} {c : NodeClient} {request : Request}
    {visit : Visit} (hnode : limitsWithinCompiledCeiling node.options.limits = true)
    (hclient : limitsWithinCompiledCeiling c.limits = true)
    (hcarried : Carried node.options.limits c request)
    (hdelivered : Delivered c.limits node (locally node visit c.session request).1)
    (hreply : (answerFrame { node } visit (c.message request)).1.payload.length ≤
      c.limits.maxFramePayload) (more more' : Bytes) :
    receive node.options.limits ((c.message request).encode ++ more) =
        .frame (c.message request).header (c.message request).payload more ∧
      roundTrip c request ((answerFrame { node } visit (c.message request)).1.encode ++ more') =
        ((locally node visit c.session request).1,
          after c.sent request (locally node visit c.session request).1) ∧
      (answerFrame { node } visit (c.message request)).2.node =
        (locally node visit c.session request).2 := by
  have hconveys := conveys_locally hnode hclient hcarried hdelivered
  have hcheck : checkReply c.nextRequestId
      (answerFrame { node } visit (c.message request)).1.header = .ok () :=
    checkReply_replyMessage _ _ _ _
  have hcalled := lt_of_le_of_lt hcarried.frame (frame_bound_of_within hnode)
  have hanswered := lt_of_le_of_lt hreply (frame_bound_of_within hclient)
  refine ⟨receive_encode hcalled hcarried.frame more, ?_, hconveys.2⟩
  exact (roundTrip_encode request hcheck hanswered hreply more').trans
    (conclude_answerFrame hconveys)

theorem length_encodeErrorReply_le (status : Status) :
    (encodeErrorReply status).length ≤ 1030 := by
  have hbound : (boundText status.message maxReplyText).length ≤ 1024 :=
    length_boundText_le _ _
  have hstored : storedText (boundText status.message maxReplyText) =
      boundText status.message maxReplyText := storedText_of_lt (by omega)
  rw [encodeErrorReply, List.length_append, Encoder.length_str, hstored]
  simp only [Encoder.length_u16]
  omega

/-- The client of a publisher that holds the first session. -/
def writer : NodeClient := { session := firstSession }

theorem carried_plainClass : Carried {} writer (.defineClass plainClass) where
  session := ⟨⟨by decide, by decide⟩, by rw [length_encodeSession]; decide⟩
  readable := ⟨.inr ⟨rfl, by decide⟩, ⟨by decide, by decide⟩, fun _ => by decide,
    ⟨by decide, by simp [plainClass]⟩, by decide⟩
  frame := by decide

theorem length_generation_reply (node : FabricNode) (stats : FabricStats) (requestId : UInt64)
    (result : Result Generation) :
    (replyMessage node stats requestId (result.map .generation)).payload.length ≤ 1030 := by
  cases result with
  | error e => exact length_encodeErrorReply_le e
  | ok g =>
      have hlength : (encodeGeneration g).length = 8 := by
        rw [encodeGeneration, Encoder.length_u64]
      change (encodeGeneration g).length ≤ 1030
      omega

theorem delivered_generation {limits : Limits} {node : FabricNode} (result : Result Generation) :
    Delivered limits node (result.map Answer.generation) := by
  cases result with
  | error e => trivial
  | ok g => trivial

/-- A class is defined over the wire as it is in the process of the node. -/
theorem remote_call_is_local_class :
    ∃ node : FabricNode, Fresh node.runtime ∧
      roundTrip writer (.defineClass plainClass)
          (answerFrame { node } ⟨0, {}, true⟩ (writer.message (.defineClass plainClass))).1.encode =
        ((locally node ⟨0, {}, true⟩ firstSession (.defineClass plainClass)).1,
          after writer.sent (.defineClass plainClass)
            (locally node ⟨0, {}, true⟩ firstSession (.defineClass plainClass)).1) := by
  obtain ⟨opened, hopen⟩ := openStore_empty
  have hfresh : Fresh (startRuntime creatingRuntime opened) :=
    fresh_startRuntime (by simp) hopen
  have hlimits : limitsWithinCompiledCeiling ({} : Limits) = true := by decide
  have hnode : limitsWithinCompiledCeiling
      ({ runtime := startRuntime creatingRuntime opened } : FabricNode).options.limits = true :=
    hlimits
  refine ⟨{ runtime := startRuntime creatingRuntime opened }, hfresh, ?_⟩
  have hcalled (hreply : (answerFrame
      { node := { runtime := startRuntime creatingRuntime opened } } ⟨0, {}, true⟩
      (writer.message (.defineClass plainClass))).1.payload.length ≤
        writer.limits.maxFramePayload) :=
    (@remote_call_is_local _ _ _ ⟨0, {}, true⟩ hnode hlimits carried_plainClass
      (delivered_generation _) hreply [] []).2.1
  rw [List.append_nil] at hcalled
  refine hcalled ?_
  have hserved : (FabricNode.dispatch { runtime := startRuntime creatingRuntime opened } 0
      (writer.message (.defineClass plainClass)).header
      (writer.message (.defineClass plainClass)).payload).1 =
        ((startRuntime creatingRuntime opened).defineClass 0 firstSession plainClass).1.map
          Reply.generation := by
    rw [dispatch_session 0 hnode (by decide) carried_plainClass.session rfl]
    have hread := decodeClassDefinition_encode hnode carried_plainClass.readable.1
      carried_plainClass.readable.2
    change (FabricNode.decoded _ (decodeClassDefinition _ _) _).1 = _
    rw [show decodeClassDefinition (Request.defineClass plainClass).inner _ = _ from hread]
    exact fst_answer _ _ _
  unfold answerFrame
  rw [hserved]
  exact (length_generation_reply _ _ _ _).trans (by decide)

end PriorityFabric.RemoteCalls
