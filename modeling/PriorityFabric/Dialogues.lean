import PriorityFabric.Lib.Exchanges
import PriorityFabric.RemoteCalls

/-!
One node and any number of clients.

The clients make their calls at any time, the bytes of their streams arrive in pieces of any
size, and between two requests the node may be called in its own process, end a connection or
be stopped.  A round trip of a client may fail at any time, and the client may call again; what
it reads after that is left open, for its stream may no longer be in step.  A request is put on
the stream as a whole or not at all, and frames of 4 GiB and more are left out.
-/

namespace PriorityFabric.Dialogues

open PriorityFabric.Lib.Exchanges (Protocol Fronted ReadsBack Pipe Peer World Step Executes
  answered Paired TookEffect)
open PriorityFabric.Lib.LittleEndian (Bytes)
open PriorityFabric.Basics
open PriorityFabric.Ident
open PriorityFabric.Codec
open PriorityFabric.Runtime
open PriorityFabric.Wire
open PriorityFabric.Node
open PriorityFabric.Calls (Call perform)
open PriorityFabric.Connections
open PriorityFabric.Replies
open PriorityFabric.Streams
open PriorityFabric.Clients
open PriorityFabric.RemoteCalls
open PriorityFabric.Lifetimes (Fresh)
open PriorityFabric.Runtime.FabricRuntime (startRuntime)
open PriorityFabric.CommitRuns (openStore_empty)
open PriorityFabric.Authority (creatingRuntime fresh_startRuntime)

/-! ## Messages on a stream -/

def anyFrame : Limits := { maxFramePayload := 2 ^ 32 }

def readMessage (bytes : Bytes) : Option (Message × Bytes) :=
  match receive anyFrame bytes with
  | .frame header payload rest => some (frameMessage header payload, rest)
  | .refused _ _ | .closed => none

theorem readMessage_encode {message : Message} (hlength : message.payload.length < 2 ^ 32)
    (rest : Bytes) : readMessage (message.encode ++ rest) = some (message, rest) := by
  rw [readMessage, receive_encode hlength hlength.le]
  rfl

theorem readMessage_some {bytes rest : Bytes} {message : Message}
    (h : readMessage bytes = some (message, rest)) :
    bytes = message.encode ++ rest ∧ message.payload.length < 2 ^ 32 := by
  unfold readMessage at h
  cases hreceive : receive anyFrame bytes with
  | closed =>
      rw [hreceive] at h
      cases h
  | refused requestId e =>
      rw [hreceive] at h
      cases h
  | frame header payload left =>
      rw [hreceive] at h
      cases h
      obtain ⟨hbytes, -, -, hlength⟩ := receive_frame hreceive
      exact ⟨hbytes, hlength⟩

theorem fronted_readMessage : Fronted readMessage where
  nil := rfl
  append h more := by
    obtain ⟨rfl, hlength⟩ := readMessage_some h
    rw [List.append_assoc, readMessage_encode hlength]

theorem readsBack_readMessage {message : Message} (hlength : message.payload.length < 2 ^ 32) :
    ReadsBack readMessage Message.encode message := by
  intro rest rest' message' h
  rw [readMessage_encode hlength] at h
  cases h
  exact ⟨rfl, rfl⟩

theorem readMessage_of_receive {limits : Limits} {bytes payload rest : Bytes}
    {header : FrameHeader} (h : receive limits bytes = .frame header payload rest) :
    readMessage bytes = some (frameMessage header payload, rest) := by
  obtain ⟨hbytes, -, -, hlength⟩ := receive_frame h
  rw [hbytes]
  exact readMessage_encode hlength rest

theorem readMessage_of_receiveReply {limits : Limits} {requestId : UInt64}
    {bytes payload rest : Bytes} {header : FrameHeader}
    (h : receiveReply limits requestId bytes = .ok ((header, payload), rest)) :
    readMessage bytes = some (frameMessage header payload, rest) := by
  obtain ⟨hbytes, -, -, -, hlength⟩ := receiveFrame_ok h
  rw [hbytes]
  exact readMessage_encode hlength rest

/-! ## What the node answers -/

/-- The circumstances of an answer.  The state generation in the reply to a greeting is read in
a step of its own, as are the counters in the reply to a request for statistics. -/
structure Turn extends Visit where
  generation : Generation := ⟨0⟩

def greetedAt (generation : Generation) : Reply → Reply
  | .hello response => .hello { response with stateGeneration := generation }
  | reply => reply

/-- What a message comes to: one with more than a frame may carry is refused. -/
def outcome (node : FabricNode) (turn : Turn) (message : Message) :
    Result Reply × FabricNode :=
  match validateFrameHeader message.header node.options.limits with
  | .error e => (.error e, node)
  | .ok () =>
      let served := node.dispatch turn.now message.header message.payload
      (if message.op = Op.hello.code then served.1.map (greetedAt turn.generation)
        else served.1, served.2)

/-- The reply to a message, and the node after it. -/
def respond (node : FabricNode) (turn : Turn) (message : Message) : Message × FabricNode :=
  let served := outcome node turn message
  (replyMessage served.2 turn.stats message.requestId served.1, served.2)

theorem outcome_cases (node : FabricNode) (turn : Turn) (message : Message) :
    (outcome node turn message).2 = node ∨ (outcome node turn message).2 =
      (node.dispatch turn.now message.header message.payload).2 := by
  unfold outcome
  split
  · exact .inl rfl
  · exact .inr rfl

theorem options_outcome (node : FabricNode) (turn : Turn) (message : Message) :
    (outcome node turn message).2.options = node.options := by
  rcases outcome_cases node turn message with hsame | hdispatch
  · rw [hsame]
  · rw [hdispatch, options_dispatch]

theorem length_refusal {node : FabricNode} (turn : Turn) {message : Message} {e : Status}
    (h : validateFrameHeader message.header node.options.limits = .error e) :
    (respond node turn message).1.payload.length < 2 ^ 32 := by
  have houtcome : outcome node turn message = (.error e, node) := by
    rw [outcome, h]
  rw [respond, houtcome]
  exact lt_of_le_of_lt (length_encodeErrorReply_le e) (by decide)

/-! ## The exchange of messages -/

/-- The fabric protocol: messages one after another, each answered by the node. -/
def fabric : Protocol FabricNode Message Message where
  encodeRequest := Message.encode
  encodeReply := Message.encode
  readRequest := readMessage
  readReply _ := readMessage
  sends message := message.payload.length < 2 ^ 32
  serves node request reply node' := reply.payload.length < 2 ^ 32 ∧
    ∃ turn, respond node turn request = (reply, node')

/-- What the node does besides answering: a call in its own process, or to expire a session,
and stopping. -/
inductive OwnMove : FabricNode → FabricNode → Prop
  | call (node : FabricNode) (now : UInt64) (call : Call) :
      OwnMove node (node.withRuntime (perform node.runtime now call).2)
  | stop (node : FabricNode) : OwnMove node { node with stopping := true }

theorem framed_fabric : fabric.Framed where
  requests := fronted_readMessage
  replies _ := fronted_readMessage
  readsBack_request _ hsends := readsBack_readMessage hsends
  readsBack_reply _ _ _ _ _ hserves := readsBack_readMessage hserves.1

theorem options_executes {ι : Type} {start node : FabricNode}
    {log : List (ι × Message × Message)} (h : Executes fabric OwnMove start log node) :
    node.options = start.options := by
  induction h with
  | nil => rfl
  | serve h i hserves ih =>
      obtain ⟨-, turn, hrespond⟩ := hserves
      cases hrespond
      exact (options_outcome _ _ _).trans ih
  | move h hmoves ih =>
      cases hmoves with
      | call now call => exact ih
      | stop => exact ih

/-! ## Calls -/

/-- A client, the calls it has sent, each with the client that made it, and what they came to
as long as every round trip brought a reply.  One whose round trip failed is astray. -/
structure Talker where
  client : NodeClient
  calls : List (NodeClient × Request) := []
  results : List (Result Answer) := []
  astray : Bool := false

/-- The node, its clients, and those whose connection the node has ended. -/
structure System (ι : Type) where
  world : World ι FabricNode Message Message
  talkers : ι → Talker
  ended : Set ι := ∅

section Systems

variable {ι : Type} [DecidableEq ι]

namespace System

/-- The request is sent, and the client waits. -/
def call (s : System ι) (i : ι) (request : Request) : System ι :=
  { s with
    world := s.world.send fabric i ((s.talkers i).client.message request)
    talkers := Function.update s.talkers i { s.talkers i with
      client := (s.talkers i).client.sent
      calls := (s.talkers i).calls ++ [((s.talkers i).client, request)] } }

/-- The request could not be sent; its number is used up. -/
def callUnsent (s : System ι) (i : ι) : System ι :=
  { s with
    talkers := Function.update s.talkers i { s.talkers i with
      client := (s.talkers i).client.sent } }

def answer (s : System ι) (i : ι) (turn : Turn) (message : Message) (rest : Bytes) :
    System ι :=
  { s with
    world := s.world.answer fabric i message (respond s.world.server turn message).1 rest
      (respond s.world.server turn message).2 }

/-- The node refuses a frame of this client by its header, and ends the connection: what is
still to come does not matter. -/
def refuse (s : System ι) (i : ι) (turn : Turn) (message : Message) (rest : Bytes) :
    System ι :=
  let count := (s.world.peers i).up.transit.length
  { ({ s with world := s.world.arriveUp i count } : System ι).answer i turn message rest with
    ended := s.ended ∪ {i} }

/-- The call returns what the client concludes from the reply. -/
def finish (s : System ι) (i : ι) (request : Request) (header : FrameHeader)
    (payload rest : Bytes) : System ι :=
  { s with
    world := s.world.read i (frameMessage header payload) rest
    talkers := Function.update s.talkers i { s.talkers i with
      client := (conclude (s.talkers i).client request header.op payload).2
      results := (s.talkers i).results ++
        [(conclude (s.talkers i).client request header.op payload).1] } }

/-- The round trip fails, and the client goes on. -/
def fail (s : System ι) (i : ι) : System ι :=
  { s with talkers := Function.update s.talkers i { s.talkers i with astray := true } }

/-- The client is given a session to call under, which may be any. -/
def setSession (s : System ι) (i : ι) (session : Session) : System ι :=
  { s with
    talkers := Function.update s.talkers i { s.talkers i with
      client := { (s.talkers i).client with session } } }

end System

/-- A client that waits for no reply: its last call returned. -/
def Idle (talker : Talker) : Prop :=
  talker.astray = true ∨ talker.calls.length = talker.results.length

inductive Event : System ι → System ι → Prop
  | call (s : System ι) (i : ι) (request : Request) (hidle : Idle (s.talkers i))
      (hrefusal : request.refusal = none)
      (hsize : ((s.talkers i).client.body request).length < 2 ^ 32) :
      Event s (s.call i request)
  | callUnsent (s : System ι) (i : ι) (hidle : Idle (s.talkers i)) : Event s (s.callUnsent i)
  | arriveUp (s : System ι) (i : ι) (count : Nat) :
      Event s { s with world := s.world.arriveUp i count }
  | arriveDown (s : System ι) (i : ι) (count : Nat) :
      Event s { s with world := s.world.arriveDown i count }
  | answer (s : System ι) (i : ι) (turn : Turn) {header : FrameHeader} {payload rest : Bytes}
      (hserved : i ∉ s.ended)
      (hread : receive s.world.server.options.limits (s.world.peers i).up.arrived =
        .frame header payload rest)
      (hsize : (respond s.world.server turn (frameMessage header payload)).1.payload.length <
        2 ^ 32) :
      Event s (s.answer i turn (frameMessage header payload) rest)
  | refuse (s : System ι) (i : ι) (turn : Turn) {message : Message} {rest : Bytes} {e : Status}
      (hserved : i ∉ s.ended) (harrived : headerBytes ≤ (s.world.peers i).up.arrived.length)
      (hsent : readMessage (s.world.peers i).up.bytes = some (message, rest))
      (hrefused : validateFrameHeader message.header s.world.server.options.limits = .error e) :
      Event s (s.refuse i turn message rest)
  | hangUp (s : System ι) (i : ι) : Event s { s with ended := s.ended ∪ {i} }
  | finish (s : System ι) (i : ι) {caller : NodeClient} {request : Request}
      {header : FrameHeader} {payload rest : Bytes} (hsteady : (s.talkers i).astray = false)
      (hcall : (s.talkers i).calls[(s.talkers i).results.length]? = some (caller, request))
      (hread : receiveReply caller.limits caller.nextRequestId
        (s.world.peers i).down.arrived = .ok ((header, payload), rest)) :
      Event s (s.finish i request header payload rest)
  | fail (s : System ι) (i : ι) : Event s (s.fail i)
  | setSession (s : System ι) (i : ι) (session : Session) (hidle : Idle (s.talkers i)) :
      Event s (s.setSession i session)
  | own (s : System ι) {node : FabricNode} (hmove : OwnMove s.world.server node) :
      Event s { s with world := { s.world with server := node } }

/-- Everything that can come about from a node and clients that are connected to it. -/
abbrev Unfolds (start : FabricNode) (clients : ι → NodeClient) : System ι → Prop :=
  Relation.ReflTransGen Event
    { world := { server := start }, talkers := fun i => { client := clients i } }

/-! ## Every run is a run of the exchange -/

/-- The calls of a client are the requests it has sent, and their results are read off the
replies it has got. -/
structure Tallies (talker : Talker) (peer : Peer Message Message) : Prop where
  sent : peer.sent.map Prod.fst = talker.calls.map fun call => call.1.message call.2
  got : peer.got.length = talker.results.length
  least : talker.results.length ≤ talker.calls.length
  one : talker.astray = false → talker.calls.length ≤ talker.results.length + 1
  pending : talker.astray = false → ∀ call : NodeClient × Request,
    talker.calls[talker.results.length]? = some call → talker.client = call.1.sent
  concluded : ∀ (k : Nat) (call : NodeClient × Request) (reply : Message)
    (result : Result Answer), talker.calls[k]? = some call →
      (peer.got.map Prod.fst)[k]? = some reply → talker.results[k]? = some result →
        result = (conclude call.1.sent call.2 reply.op reply.payload).1

theorem tallies_start (client : NodeClient) :
    Tallies { client } ({} : Peer Message Message) where
  sent := rfl
  got := rfl
  least := Nat.zero_le 0
  one _ := Nat.zero_le 1
  pending _ call h := by simp at h
  concluded k call reply result h := by simp at h

variable {talker : Talker} {peer : Peer Message Message}

theorem Tallies.congr (h : Tallies talker peer) {peer' : Peer Message Message}
    (hsent : peer'.sent = peer.sent) (hgot : peer'.got = peer.got) : Tallies talker peer' where
  sent := by rw [hsent, h.sent]
  got := by rw [hgot, h.got]
  least := h.least
  one := h.one
  pending := h.pending
  concluded := by
    rw [hgot]
    exact h.concluded

theorem Tallies.asked (h : Tallies talker peer) {caller : NodeClient} {request : Request}
    (hcall : talker.calls[talker.results.length]? = some (caller, request)) :
    ∃ stamp, peer.sent[peer.got.length]? = some (caller.message request, stamp) := by
  have hrequest : (peer.sent.map Prod.fst)[peer.got.length]? = some (caller.message request) := by
    rw [h.sent, h.got, List.getElem?_map, hcall]
    rfl
  rw [List.getElem?_map, Option.map_eq_some_iff] at hrequest
  obtain ⟨⟨message, stamp⟩, hfound, rfl⟩ := hrequest
  exact ⟨stamp, hfound⟩

theorem Tallies.call (h : Tallies talker peer) (request : Request) (hidle : Idle talker)
    (stamp : Nat) (up : Pipe) :
    Tallies
      { talker with
        client := talker.client.sent, calls := talker.calls ++ [(talker.client, request)] }
      { peer with
        sent := peer.sent ++ [(talker.client.message request, stamp)], up := up } := by
  have hleast := h.least
  refine ⟨?_, h.got, ?_, ?_, ?_, ?_⟩
  · simp only [List.map_append, h.sent, List.map_cons, List.map_nil]
  · simp only [List.length_append, List.length_singleton]
    omega
  · intro hsteady
    have hlast := hidle.resolve_left (by simp [show talker.astray = false from hsteady])
    simp only [List.length_append, List.length_singleton]
    omega
  · intro hsteady call hcall
    have hlast := hidle.resolve_left (by simp [show talker.astray = false from hsteady])
    simp only at hcall
    rw [← hlast, List.getElem?_concat_length, Option.some.injEq] at hcall
    rw [← hcall]
  · intro k call reply result hcall hreply hresult
    have hk : k < talker.calls.length :=
      lt_of_lt_of_le (List.getElem?_eq_some_iff.mp hresult).1 hleast
    simp only at hcall
    rw [List.getElem?_append_left hk] at hcall
    exact h.concluded k call reply result hcall hreply hresult

theorem Tallies.withClient (h : Tallies talker peer) (hidle : Idle talker)
    (client : NodeClient) : Tallies { talker with client } peer := by
  refine ⟨h.sent, h.got, h.least, h.one, ?_, h.concluded⟩
  intro hsteady call hcall
  have hlast := hidle.resolve_left (by simp [show talker.astray = false from hsteady])
  simp only [← hlast, List.getElem?_eq_none le_rfl] at hcall
  cases hcall

theorem Tallies.fail (h : Tallies talker peer) :
    Tallies { talker with astray := true } peer where
  sent := h.sent
  got := h.got
  least := h.least
  one hsteady := by cases hsteady
  pending hsteady := by cases hsteady
  concluded := h.concluded

theorem Tallies.finish (h : Tallies talker peer) {caller : NodeClient} {request : Request}
    (hsteady : talker.astray = false)
    (hcall : talker.calls[talker.results.length]? = some (caller, request))
    (header : FrameHeader) (payload : Bytes) (stamp : Nat) (down : Pipe) :
    Tallies
      { talker with
        client := (conclude talker.client request header.op payload).2
        results := talker.results ++ [(conclude talker.client request header.op payload).1] }
      { peer with
        down := down, got := peer.got ++ [(frameMessage header payload, stamp)] } := by
  have hlast : talker.calls.length = talker.results.length + 1 := by
    have hlt := (List.getElem?_eq_some_iff.mp hcall).1
    have hone := h.one hsteady
    omega
  refine ⟨h.sent, ?_, ?_, ?_, ?_, ?_⟩
  · simp only [List.length_append, List.length_singleton, h.got]
  · simp only [List.length_append, List.length_singleton]
    omega
  · intro _
    simp only [List.length_append, List.length_singleton]
    omega
  · intro _ call hnext
    have hlt := (List.getElem?_eq_some_iff.mp hnext).1
    simp only [List.length_append, List.length_singleton] at hlt
    omega
  · intro k call reply result hk hreply hresult
    simp only [List.map_append, List.map_cons, List.map_nil] at hreply
    rcases Nat.lt_trichotomy k talker.results.length with hold | rfl | hbeyond
    · rw [List.getElem?_append_left hold] at hresult
      rw [List.getElem?_append_left (by rwa [List.length_map, h.got])] at hreply
      exact h.concluded k call reply result hk hreply hresult
    · have hnumber : talker.results.length = (peer.got.map Prod.fst).length := by
        rw [List.length_map, h.got]
      rw [List.getElem?_concat_length, Option.some.injEq] at hresult
      rw [hnumber, List.getElem?_concat_length, Option.some.injEq] at hreply
      rw [hcall, Option.some.injEq] at hk
      subst hk hresult hreply
      rw [h.pending hsteady _ hcall]
      rfl
    · have hlt : k < talker.calls.length := (List.getElem?_eq_some_iff.mp hk).1
      omega

variable {start : FabricNode} {clients : ι → NodeClient} {s s' : System ι}

theorem Event.step (h : Event s s')
    (htallies : ∀ i, Tallies (s.talkers i) (s.world.peers i)) :
    Relation.ReflTransGen (Step fabric OwnMove) s.world s'.world := by
  cases h with
  | call i request hidle hrefusal hsize =>
      exact .single (.send s.world i ((s.talkers i).client.message request) hsize)
  | arriveUp i count => exact .single (.arriveUp s.world i count)
  | arriveDown i count => exact .single (.arriveDown s.world i count)
  | answer i turn hserved hread hsize =>
      exact .single (.answer s.world i (readMessage_of_receive hread) ⟨hsize, turn, rfl⟩)
  | refuse i turn hserved harrived hsent hrefused =>
      refine .tail (.single (.arriveUp s.world i (s.world.peers i).up.transit.length))
        (.answer _ i ?_ ⟨length_refusal turn hrefused, turn, rfl⟩)
      rw [World.peers_arriveUp, Pipe.deliver, List.take_length]
      exact hsent
  | finish i hsteady hcall hread =>
      obtain ⟨stamp, hasked⟩ := (htallies i).asked hcall
      exact .single (.read s.world i hasked (readMessage_of_receiveReply hread))
  | callUnsent i hidle => exact .refl
  | hangUp i => exact .refl
  | fail i => exact .refl
  | setSession i session hidle => exact .refl
  | own hmove => exact .single (.move s.world hmove)

theorem tallies_update {talkers : ι → Talker} {peers : ι → Peer Message Message}
    (h : ∀ i, Tallies (talkers i) (peers i)) {i : ι} {talker : Talker}
    {peer : Peer Message Message} (hnew : Tallies talker peer) (j : ι) :
    Tallies (Function.update talkers i talker j) (Function.update peers i peer j) := by
  rcases eq_or_ne j i with rfl | hne
  · simpa only [Function.update_self] using hnew
  · simpa only [Function.update_of_ne hne] using h j

theorem tallies_peer {talkers : ι → Talker} {peers : ι → Peer Message Message}
    (h : ∀ i, Tallies (talkers i) (peers i)) {i : ι} {peer : Peer Message Message}
    (hsent : peer.sent = (peers i).sent) (hgot : peer.got = (peers i).got) (j : ι) :
    Tallies (talkers j) (Function.update peers i peer j) := by
  rcases eq_or_ne j i with rfl | hne
  · rw [Function.update_self]
    exact (h j).congr hsent hgot
  · rw [Function.update_of_ne hne]
    exact h j

theorem tallies_talker {talkers : ι → Talker} {peers : ι → Peer Message Message}
    (h : ∀ i, Tallies (talkers i) (peers i)) {i : ι} {talker : Talker}
    (hnew : Tallies talker (peers i)) (j : ι) :
    Tallies (Function.update talkers i talker j) (peers j) := by
  have hupdated := tallies_update (i := i) h hnew j
  rwa [Function.update_eq_self] at hupdated

theorem Event.tallies (hevent : Event s s')
    (h : ∀ i, Tallies (s.talkers i) (s.world.peers i)) (j : ι) :
    Tallies (s'.talkers j) (s'.world.peers j) := by
  cases hevent with
  | call i request hidle hrefusal hsize =>
      exact tallies_update h ((h i).call request hidle _ _) j
  | arriveUp i count => refine tallies_peer h ?_ ?_ j <;> rfl
  | arriveDown i count => refine tallies_peer h ?_ ?_ j <;> rfl
  | answer i turn hserved hread hsize => refine tallies_peer h ?_ ?_ j <;> rfl
  | refuse i turn hserved harrived hsent hrefused =>
      have harrive : ∀ k, Tallies (s.talkers k) (Function.update s.world.peers i
          { s.world.peers i with
            up := (s.world.peers i).up.deliver (s.world.peers i).up.transit.length } k) :=
        tallies_peer h rfl rfl
      refine tallies_peer harrive ?_ ?_ j <;> rfl
  | finish i hsteady hcall hread => exact tallies_update h ((h i).finish hsteady hcall _ _ _ _) j
  | callUnsent i hidle => exact tallies_talker h ((h i).withClient hidle _) j
  | fail i => exact tallies_talker h (h i).fail j
  | setSession i session hidle => exact tallies_talker h ((h i).withClient hidle _) j
  | hangUp i => exact h j
  | own hmove => exact h j

theorem Unfolds.reachable (h : Unfolds start clients s) :
    Lib.Exchanges.Reachable fabric OwnMove start s.world ∧
      ∀ i, Tallies (s.talkers i) (s.world.peers i) := by
  induction h with
  | refl => exact ⟨.refl, fun i => tallies_start (clients i)⟩
  | tail _ hevent ih => exact ⟨ih.1.trans (hevent.step ih.2), hevent.tallies ih.2⟩

/-! ## What the clients can rely on -/

/-- The answer to a greeting, with the state generation that was read for it. -/
def heard (turn : Turn) : Request → Result Answer → Result Answer
  | .hello _ _ _, .ok (.hello response) =>
      .ok (.hello { response with stateGeneration := turn.generation })
  | _, result => result

theorem outcome_carried {node : FabricNode} {c : NodeClient} {request : Request} (turn : Turn)
    (hnode : limitsWithinCompiledCeiling node.options.limits = true)
    (hcarried : Carried node.options.limits c request) :
    outcome node turn (c.message request) =
      let served := node.dispatch turn.now (c.message request).header (c.message request).payload
      (if request.op.code = Op.hello.code then served.1.map (greetedAt turn.generation)
        else served.1, served.2) := by
  have hvalid : validateFrameHeader (c.message request).header node.options.limits = .ok () :=
    validateFrameHeader_header
      (lt_of_le_of_lt hcarried.frame (frame_bound_of_within hnode)) hcarried.frame
  rw [outcome, hvalid]
  rfl

theorem heard_greeting {node : FabricNode} {c : NodeClient} {turn : Turn}
    {publisher : PublisherId} {boot : BootId} {label : Bytes}
    (hcarried : Carried node.options.limits c (.hello publisher boot label))
    (hdelivered : Delivered c.limits node
      (locally node turn.toVisit c.session (.hello publisher boot label)).1) :
    let served := node.dispatch turn.now (c.message (.hello publisher boot label)).header
      (c.message (.hello publisher boot label)).payload
    ((served.1.map (greetedAt turn.generation)).bind fun reply =>
      understand c.sent.limits (.hello publisher boot label)
        (encodeReply served.2 turn.stats reply)) =
      heard turn (.hello publisher boot label)
        (locally node turn.toVisit c.session (.hello publisher boot label)).1 := by
  intro served
  have hserved : served = node.greet turn.now (c.body (.hello publisher boot label)) := rfl
  have hdecode : decodeHello (c.body (.hello publisher boot label)) node.options.limits =
      .ok ⟨publisher, boot, boundText (boundText label maxLabel) maxLabel, c.nextRequestId⟩ :=
    decodeHello_encode boot _ _ hcarried.readable
  rw [hserved, FabricNode.greet, hdecode]
  simp only [FabricNode.decoded]
  generalize hgranted : node.runtime.grantAuthority turn.now publisher boot = granted
  obtain ⟨status, r⟩ := granted
  simp only [locally, hgranted] at hdelivered ⊢
  cases status with
  | error e => rfl
  | ok session =>
      let response : HelloResponse :=
        { nodeId := node.nodeId, nodeBoot := node.nodeBoot, epoch := session.epoch,
          token := session.token, stateGeneration := turn.generation, nodePid := node.pid }
      have hread : decodeHelloResponse (encodeHelloResponse response) c.limits = .ok response :=
        decodeHelloResponse_encode hdelivered
      exact congrArg (Except.map Answer.hello) hread

/-- What the node answers to a call conveys what the call comes to in its process. -/
theorem respond_locally {node : FabricNode} {c : NodeClient} {request : Request} {turn : Turn}
    (hnode : limitsWithinCompiledCeiling node.options.limits = true)
    (hclient : limitsWithinCompiledCeiling c.limits = true)
    (hcarried : Carried node.options.limits c request)
    (hdelivered : Delivered c.limits node (locally node turn.toVisit c.session request).1) :
    (conclude c.sent request (respond node turn (c.message request)).1.op
        (respond node turn (c.message request)).1.payload).1 =
        heard turn request (locally node turn.toVisit c.session request).1 ∧
      (respond node turn (c.message request)).2 =
        (locally node turn.toVisit c.session request).2 := by
  have houtcome := outcome_carried turn hnode hcarried
  have hconclude := conclude_replyMessage c.sent request (outcome node turn (c.message request)).2
    turn.toVisit c.nextRequestId (outcome node turn (c.message request)).1
  obtain ⟨hbind, hafter⟩ := conveys_locally hnode hclient hcarried hdelivered
  refine ⟨hconclude.trans ?_, (congrArg Prod.snd houtcome).trans hafter⟩
  rw [houtcome]
  by_cases hhello : request.op = .hello
  · cases request with
    | hello publisher boot label =>
        exact heard_greeting hcarried hdelivered
    | _ => cases hhello
  · have hop : request.op.code ≠ Op.hello.code := op_ne_hello c hhello
    simp only [hop, if_false]
    refine hbind.trans ?_
    cases request with
    | hello publisher boot label => exact absurd rfl hhello
    | _ => rfl

/-- A call that returned has its place in the log, and its result is read off the reply. -/
theorem Unfolds.returned (h : Unfolds start clients s) {i : ι} {k : Nat} {caller : NodeClient}
    {request : Request} {result : Result Answer}
    (hcall : (s.talkers i).calls[k]? = some (caller, request))
    (hresult : (s.talkers i).results[k]? = some result) :
    ∃ p reply before after, TookEffect fabric OwnMove start s.world i k p
        (caller.message request) reply before after ∧
      result = (conclude caller.sent request reply.op reply.payload).1 := by
  obtain ⟨hreachable, htallies⟩ := h.reachable
  have hread : k < (s.world.peers i).got.length := by
    rw [(htallies i).got]
    exact (List.getElem?_eq_some_iff.mp hresult).1
  obtain ⟨⟨reply, n⟩, hentry⟩ : ∃ entry, (s.world.peers i).got[k] = entry := ⟨_, rfl⟩
  have hgot : (s.world.peers i).got[k]? = some (reply, n) := by
    rw [List.getElem?_eq_getElem hread, hentry]
  obtain ⟨p, message, before, after, heffect⟩ := hreachable.tookEffect framed_fabric hgot
  obtain ⟨stamp, hsent, -⟩ := heffect.sent
  have hmessage : message = caller.message request := by
    have hfirst := congrArg (·[k]?) (htallies i).sent
    simp only [List.getElem?_map, hsent, hcall, Option.map_some, Option.some.injEq] at hfirst
    exact hfirst
  subst hmessage
  have hreply : ((s.world.peers i).got.map Prod.fst)[k]? = some reply := by
    rw [List.getElem?_map, hgot]
    rfl
  exact ⟨p, reply, before, after, heffect,
    (htallies i).concluded k _ _ _ hcall hreply hresult⟩

/-- However the calls of the clients interleave, every call that returned before a round trip
of its client failed took effect at one moment between its sending and its return, and returned
what the node answered then: what the same call comes to in the process of the node.  The state
generation told to a greeting is of a moment of its own. -/
theorem calls_take_effect (h : Unfolds start clients s) {i : ι} {k : Nat} {caller : NodeClient}
    {request : Request} {result : Result Answer}
    (hcall : (s.talkers i).calls[k]? = some (caller, request))
    (hresult : (s.talkers i).results[k]? = some result) :
    ∃ p node turn, TookEffect fabric OwnMove start s.world i k p (caller.message request)
        (respond node turn (caller.message request)).1 node
        (respond node turn (caller.message request)).2 ∧
      result = (conclude caller.sent request
        (respond node turn (caller.message request)).1.op
        (respond node turn (caller.message request)).1.payload).1 ∧
      (limitsWithinCompiledCeiling start.options.limits = true →
        limitsWithinCompiledCeiling caller.limits = true →
        Carried start.options.limits caller request →
        Delivered caller.limits node (locally node turn.toVisit caller.session request).1 →
          result = heard turn request (locally node turn.toVisit caller.session request).1 ∧
          (respond node turn (caller.message request)).2 =
            (locally node turn.toVisit caller.session request).2) := by
  obtain ⟨p, reply, node, after, heffect, hconcluded⟩ := h.returned hcall hresult
  obtain ⟨-, turn, hrespond⟩ := heffect.serves
  cases hrespond
  refine ⟨p, node, turn, heffect, hconcluded, ?_⟩
  intro hnode hclient hcarried hdelivered
  have hoptions : node.options = start.options := options_executes heffect.executes
  rw [← hoptions] at hnode hcarried
  obtain ⟨hheard, hafter⟩ := respond_locally hnode hclient hcarried hdelivered
  exact ⟨hconcluded.trans hheard, hafter⟩

end Systems

/-! ## One call from beginning to end -/

section OneCall

variable {ι : Type} [DecidableEq ι] (s : System ι) (i : ι) (request : Request) (turn : Turn)

/-- The client has called, and the node has got the request. -/
def asked : System ι :=
  let sent := s.call i request
  let count := ((s.talkers i).client.message request).encode.length
  { sent with world := sent.world.arriveUp i count }

/-- What the node answers if it answers at once. -/
def replyTo : Message :=
  (respond s.world.server turn ((s.talkers i).client.message request)).1

/-- The request was answered, and the client has got the reply. -/
def replied : System ι :=
  let answered := (asked s i request).answer i turn ((s.talkers i).client.message request) []
  let count := (replyTo s i request turn).encode.length
  { answered with world := answered.world.arriveDown i count }

def returned : System ι :=
  (replied s i request turn).finish i request (replyTo s i request turn).header
    (replyTo s i request turn).payload []

/-- The client is served, and nothing is on its way between it and the node. -/
def Quiet : Prop := (s.world.peers i).up = {} ∧ (s.world.peers i).down = {} ∧ i ∉ s.ended

variable {s i request turn}

theorem up_asked (hquiet : Quiet s i) : ((asked s i request).world.peers i).up =
    { arrived := ((s.talkers i).client.message request).encode } := by
  unfold asked System.call
  rw [World.peers_arriveUp, World.peers_send, hquiet.1]
  exact Pipe.deliver_push _

theorem down_asked (hquiet : Quiet s i) : ((asked s i request).world.peers i).down = {} := by
  unfold asked System.call
  rw [World.peers_arriveUp, World.peers_send]
  exact hquiet.2.1

theorem up_replied (hquiet : Quiet s i) :
    ((replied s i request turn).world.peers i).up = {} := by
  unfold replied System.answer
  rw [World.peers_arriveDown, World.peers_answer, up_asked hquiet]

theorem down_replied (hquiet : Quiet s i) :
    ((replied s i request turn).world.peers i).down =
      { arrived := (replyTo s i request turn).encode } := by
  unfold replied System.answer
  rw [World.peers_arriveDown, World.peers_answer, down_asked hquiet]
  exact Pipe.deliver_push _

theorem talkers_replied : (replied s i request turn).talkers i =
    { s.talkers i with
      client := (s.talkers i).client.sent
      calls := (s.talkers i).calls ++ [((s.talkers i).client, request)] } :=
  Function.update_self _ _ _

theorem talkers_returned : (returned s i request turn).talkers i =
    { s.talkers i with
      client := (conclude (s.talkers i).client.sent request
        (replyTo s i request turn).op (replyTo s i request turn).payload).2
      calls := (s.talkers i).calls ++ [((s.talkers i).client, request)]
      results := (s.talkers i).results ++ [(conclude (s.talkers i).client.sent request
        (replyTo s i request turn).op (replyTo s i request turn).payload).1] } := by
  unfold returned System.finish
  simp only [Function.update_self]
  rw [talkers_replied]
  rfl

theorem quiet_returned (hquiet : Quiet s i) : Quiet (returned s i request turn) i := by
  unfold Quiet returned System.finish
  rw [World.peers_read, up_replied hquiet, down_replied hquiet]
  exact ⟨rfl, rfl, hquiet.2.2⟩

/-- A request of this size is asked and answered, and the call returns. -/
structure Fits (s : System ι) (i : ι) (request : Request) (turn : Turn) : Prop where
  refusal : request.refusal = none
  body : ((s.talkers i).client.body request).length < 2 ^ 32
  limit : ((s.talkers i).client.body request).length ≤
    s.world.server.options.limits.maxFramePayload
  reply : (replyTo s i request turn).payload.length < 2 ^ 32
  answer : (replyTo s i request turn).payload.length ≤ (s.talkers i).client.limits.maxFramePayload

theorem events_returned (hquiet : Quiet s i)
    (hsteady : (s.talkers i).astray = false)
    (hidle : (s.talkers i).calls.length = (s.talkers i).results.length)
    (h : Fits s i request turn) :
    Relation.ReflTransGen Event s (returned s i request turn) := by
  have hcheck : checkReply (s.talkers i).client.nextRequestId
      (replyTo s i request turn).header = .ok () := checkReply_replyMessage _ _ _ _
  have hsent := @receive_encode s.world.server.options.limits
    ((s.talkers i).client.message request) h.body h.limit []
  have hback := @receiveFrame_encode _ h.reply (s.talkers i).client.limits
    (text "the reply does not carry the fabric magic") _ hcheck h.answer []
  have hup : ((asked s i request).world.peers i).up.arrived =
      ((s.talkers i).client.message request).encode := congrArg Pipe.arrived (up_asked hquiet)
  have hdown : ((replied s i request turn).world.peers i).down.arrived =
      (replyTo s i request turn).encode := congrArg Pipe.arrived (down_replied hquiet)
  rw [List.append_nil] at hsent hback
  rw [← hup] at hsent
  rw [← hdown] at hback
  have hanswer : Event (asked s i request)
      ((asked s i request).answer i turn ((s.talkers i).client.message request) []) :=
    .answer (asked s i request) i turn hquiet.2.2 hsent h.reply
  have hsteady' : ((replied s i request turn).talkers i).astray = false := by
    rw [talkers_replied]
    exact hsteady
  have hpending : ((replied s i request turn).talkers i).calls[
      ((replied s i request turn).talkers i).results.length]? =
        some ((s.talkers i).client, request) := by
    rw [talkers_replied]
    simp only [← hidle, List.getElem?_concat_length]
  exact .tail (.tail (.tail (.tail (.tail .refl (.call s i request (.inr hidle) h.refusal h.body))
    (.arriveUp _ i _)) hanswer) (.arriveDown _ i _))
    (.finish (replied s i request turn) i hsteady' hpending hback)

end OneCall

theorem carried_ping : Carried {} writer .ping where
  session := carried_plainClass.session
  readable := trivial
  frame := by decide

/-- A node, and one client that is connected to it. -/
def alone (node : FabricNode) (client : NodeClient) : System Unit where
  world := { server := node }
  talkers := fun _ => { client }

theorem unfolds_ping :
    ∃ (start : FabricNode) (s : System Unit), Fresh start.runtime ∧
      Unfolds start (fun _ => writer) s ∧
      (s.talkers ()).calls[0]? = some (writer, .ping) ∧
      ∃ result, (s.talkers ()).results[0]? = some result := by
  obtain ⟨opened, hopen⟩ := openStore_empty
  have hfresh : Fresh (startRuntime creatingRuntime opened) :=
    fresh_startRuntime (by simp) hopen
  generalize hstart : ({ runtime := startRuntime creatingRuntime opened } : FabricNode) = start
  have hlimits : start.options.limits = {} := by
    rw [← hstart]
  have hserved : start.dispatch 0 (writer.message .ping).header (writer.message .ping).payload =
      (.ok .empty, start) := by
    rw [dispatch_session 0 (by rw [hlimits]; decide) (by decide)
      (by rw [hlimits]; exact carried_ping.session) rfl]
    rfl
  have houtcome : outcome start { now := 0, stats := {} } (writer.message .ping) =
      (.ok .empty, start) := by
    rw [outcome_carried _ (by rw [hlimits]; decide) (by rw [hlimits]; exact carried_ping)]
    exact congrArg (fun served => (served.1, served.2)) hserved
  have hpayload : (replyTo (alone start writer) () .ping
      { now := 0, stats := {} }).payload = [] := by
    change (replyMessage _ _ _ (outcome start _ (writer.message .ping)).1).payload = []
    rw [houtcome]
    rfl
  have hfits : Fits (alone start writer) () .ping { now := 0, stats := {} } := by
    refine ⟨rfl, lt_of_le_of_lt carried_ping.frame (by decide), ?_, ?_, ?_⟩
    · have hlimit := carried_ping.frame
      rwa [← hlimits] at hlimit
    · rw [hpayload]
      decide
    · rw [hpayload]
      exact Nat.zero_le _
  refine ⟨start, returned (alone start writer) () .ping { now := 0, stats := {} },
    by rwa [← hstart], ?_, ?_⟩
  · exact events_returned ⟨rfl, rfl, fun h => h.elim⟩ rfl rfl hfits
  · rw [talkers_returned]
    exact ⟨rfl, _, rfl⟩

theorem calls_take_effect_ping :
    ∃ (start : FabricNode) (s : System Unit) (p : Nat) (node : FabricNode) (turn : Turn),
      Fresh start.runtime ∧
      TookEffect fabric OwnMove start s.world () 0 p (writer.message .ping)
        (respond node turn (writer.message .ping)).1 node
        (respond node turn (writer.message .ping)).2 := by
  obtain ⟨start, s, hfresh, hunfolds, hcall, result, hresult⟩ := unfolds_ping
  obtain ⟨p, node, turn, heffect, -⟩ := calls_take_effect hunfolds hcall hresult
  exact ⟨start, s, p, node, turn, hfresh, heffect⟩

end PriorityFabric.Dialogues
