import PriorityFabric.Authority
import PriorityFabric.Wire

/-!
A fabric node and what it does with one request.

Every runtime call of an answer is made under the runtime's lock.  A greeting and a statistics
request make two such calls, all other requests one.  Replies are modelled before they are
encoded, and the counters of a statistics reply are left out.
-/

namespace PriorityFabric.Node

open PriorityFabric.Lib.LittleEndian
open PriorityFabric.Basics
open PriorityFabric.Ident
open PriorityFabric.Model
open PriorityFabric.ModelCodec
open PriorityFabric.QueryCodec
open PriorityFabric.State
open PriorityFabric.Apply
open PriorityFabric.Readable
open PriorityFabric.Durability
open PriorityFabric.Store
open PriorityFabric.StateDirectory
open PriorityFabric.Committing
open PriorityFabric.Serving
open PriorityFabric.Runtime
open PriorityFabric.Runtime.FabricRuntime
open PriorityFabric.Calls
open PriorityFabric.Lifetimes
open PriorityFabric.Authority
open PriorityFabric.Wire

structure NodeOptions where
  limits : Limits := {}
  fenceOnDisconnect : Bool := false
  allowRemoteShutdown : Bool := true

structure FabricNode where
  runtime : FabricRuntime
  options : NodeOptions := {}
  nodeId : PublisherId := {}
  nodeBoot : BootId := {}
  pid : UInt64 := 0
  stopping : Bool := false

structure HelloResponse where
  nodeId : PublisherId
  nodeBoot : BootId
  epoch : FabricEpoch
  token : FencingToken
  stateGeneration : Generation
  nodePid : UInt64

/-- What a request is answered with. -/
inductive Reply where
  | hello (response : HelloResponse)
  | generation (generation : Generation)
  | epoch (epoch : FabricEpoch)
  | decision (decision : PriorityDecision)
  | stats
  | integrity (report : IntegrityReport)
  | audit (entries : List AuditEntry)
  | empty

namespace FabricNode

def withRuntime (node : FabricNode) (runtime : FabricRuntime) : FabricNode := { node with runtime }

def answer {α : Type} (node : FabricNode) (reply : α → Reply) :
    Result α × FabricRuntime → Result Reply × FabricNode
  | (.error e, r) => (.error e, node.withRuntime r)
  | (.ok a, r) => (.ok (reply a), node.withRuntime r)

/-- Go on with what was decoded, or refuse the request. -/
def decoded {α : Type} (node : FabricNode) (result : Result α)
    (body : α → Result Reply × FabricNode) : Result Reply × FabricNode :=
  match result with
  | .error e => (.error e, node)
  | .ok a => body a

def refused (node : FabricNode) (op : UInt16) : Result Reply × FabricNode :=
  (.error (makeError .protocolError (text "operation '" ++ opName op ++
    text "' is not valid in this position")), node)

/-- The last audit entries, at most `bound` of them. -/
def auditTail (image : StateImage) (bound : Nat) : List AuditEntry :=
  image.audit.drop (image.audit.length - min bound image.audit.length)

/-- A runtime that is closed answers no query. -/
def evaluate (r : FabricRuntime) (query : PriorityQuery) : PriorityDecision :=
  if r.closed then
    Evaluate.sealed
      { outcome := .rejected
        reasonCode := text "runtime_closed"
        reason := text "the runtime is closed and no longer answers authoritatively"
        resolution := text "none"
        epoch := r.image.epoch
        stateGeneration := r.image.generation }
  else Evaluate.evaluateQuery r.image query

/-- Answer one request that came with a session block. -/
def serve (node : FabricNode) (now : UInt64) (op : UInt16) (session : Session) (inner : Bytes) :
    Result Reply × FabricNode :=
  let limits := node.options.limits
  let r := node.runtime
  match Op.ofCode? op with
  | some .defineClass => node.decoded (decodeClassDefinition inner limits) fun d =>
      node.answer .generation (r.defineClass now session d)
  | some .defineScope => node.decoded (decodeScopeDefinition inner limits) fun d =>
      node.answer .generation (r.defineScope now session d)
  | some .definePolicy => node.decoded (decodePolicyDefinition inner limits) fun d =>
      node.answer .generation (r.definePolicy now session d)
  | some .defineSubject => node.decoded (decodeSubjectDefinition inner limits) fun d =>
      node.answer .generation (r.defineSubject now session d)
  | some .assign => node.decoded (decodeAssignment inner limits) fun a =>
      node.answer .generation (r.assign now session a)
  | some .retire => node.decoded (decodeRetireRequest inner limits) fun request =>
      node.answer .generation (r.retireAssignment now session request.1 request.2)
  | some .query => node.decoded (decodeQuery inner limits) fun query =>
      (.ok (.decision (evaluate r query)), node)
  | some .advanceEpoch => node.decoded (decodeReason inner limits) fun reason =>
      node.answer .epoch (r.advanceEpoch now session reason)
  | some .fence => node.decoded (decodeFenceRequest inner limits) fun request =>
      node.answer (fun _ => .empty)
        (r.fence now session request.publisher request.boot request.reason)
  | some .stats => (.ok .stats, node)
  | some .checkpoint => node.answer .generation r.checkpointRuntime
  | some .integrity => (.ok (.integrity r.integrityReport.1), node.withRuntime r.integrityReport.2)
  | some .audit => (.ok (.audit (auditTail r.image (min limits.maxAuditReturn
      r.limits.maxAuditReturn))), node)
  | some .ping => (.ok .empty, node)
  | some .shutdown =>
      if node.options.allowRemoteShutdown = false then
        (.error (makeError .unauthorized
          (text "this node does not accept remote shutdown requests")), node)
      else (.ok .empty, { node with stopping := true })
  | some .hello | some .helloAck | some .response | some .error | none => node.refused op

/-- A publisher introduces itself and gets its authority. -/
def greet (node : FabricNode) (now : UInt64) (payload : Bytes) : Result Reply × FabricNode :=
  node.decoded (decodeHello payload node.options.limits) fun request =>
    match node.runtime.grantAuthority now request.publisher request.boot with
    | (.error e, r) => (.error e, node.withRuntime r)
    | (.ok session, r) =>
        (.ok (.hello { nodeId := node.nodeId, nodeBoot := node.nodeBoot, epoch := session.epoch,
                       token := session.token, stateGeneration := r.image.generation,
                       nodePid := node.pid }), node.withRuntime r)

def dispatch (node : FabricNode) (now : UInt64) (header : FrameHeader) (payload : Bytes) :
    Result Reply × FabricNode :=
  if header.op = Op.hello.code then node.greet now payload
  else node.decoded (decodeSessionRequest payload node.options.limits) fun request =>
    node.serve now header.op request.1 request.2

end FabricNode

end PriorityFabric.Node
