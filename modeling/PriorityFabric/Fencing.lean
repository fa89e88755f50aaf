import PriorityFabric.Dialogues

/-!
One writer for each publisher, across all clients.

A greeting that was answered hands out a token.  From then on a write under a session of the
same publisher is accepted only with that token and boot, or with a later token.
-/

namespace PriorityFabric.Fencing

open PriorityFabric.Lib.LittleEndian (Bytes)
open PriorityFabric.Lib.ByteReader
open PriorityFabric.Lib.Exchanges (Executes TookEffect)
open PriorityFabric.Basics
open PriorityFabric.Ident
open PriorityFabric.Model
open PriorityFabric.State
open PriorityFabric.Store (normalizeImage)
open PriorityFabric.Codec
open PriorityFabric.Codec.Decoder (IdReadable readsIff_id readsIff_u64 run_of_readsIff
  run_refuses_of_readsIff readsIff_blob)
open PriorityFabric.ModelCodec
open PriorityFabric.Apply hiding perform
open PriorityFabric.Runtime
open PriorityFabric.Runtime.FabricRuntime
open PriorityFabric.Calls (Call perform)
open PriorityFabric.Lifetimes
open PriorityFabric.Authority
open PriorityFabric.Wire
open PriorityFabric.Node
open PriorityFabric.Connections
open PriorityFabric.Replies
open PriorityFabric.Streams
open PriorityFabric.Clients
open PriorityFabric.RemoteCalls
open PriorityFabric.Dialogues
open PriorityFabric.Store (openStore)
open PriorityFabric.CommitRuns (openStore_empty creating zeroKey somePublisher)
open PriorityFabric.Calls (someBoot firstSession)

/-- Every live grant of the publisher is this one or has a later token. -/
structure Fronting (session : Session) (image : StateImage) : Prop where
  issued : session.token.value.toNat < image.nextFencingToken.toNat
  latest : ∀ (k : Incarnation) (entry : AuthorityEntry), image.authority[k]? = some entry →
    k.publisher = session.publisher → entry.state = .granted →
      (k.boot = session.boot ∧ entry.token = session.token) ∨
        session.token.value.toNat < entry.token.value.toNat

section Grants

variable {session : Session} {a b : StateImage}

theorem fronting_of_current (hsound : Sound a) (h : Current a session) : Fronting session a := by
  obtain ⟨-, entry, hentry, hgranted, -, htoken⟩ := h
  refine ⟨?_, ?_⟩
  · rw [← htoken]
    exact UInt64.lt_iff_toNat_lt.mp (hsound.below _ entry hentry)
  · intro k entry' hentry' hpublisher hgranted'
    have hk := hsound.one k _ entry' entry hentry' hentry hpublisher hgranted' hgranted
    subst hk
    rw [hentry] at hentry'
    cases hentry'
    exact .inl ⟨rfl, htoken⟩

theorem Fronting.of_sameRecord (h : Fronting session a) (hsame : SameRecord b a) :
    Fronting session b := by
  refine ⟨?_, ?_⟩
  · rw [hsame.nextFencingToken]
    exact h.issued
  · rw [hsame.authority]
    exact h.latest

theorem Fronting.governed {mutation : Mutation} (h : Fronting session a)
    (hgoverned : Governed a mutation b) : Fronting session b := by
  refine ⟨h.issued.trans_le (ahead_of_governed hgoverned).token, ?_⟩
  intro k entry hentry hpublisher hgranted
  rcases origin_of_governed hgoverned hentry with
    ⟨old, hold, hsame, -, hstate⟩ | hnew | ⟨-, hfenced⟩
  · rw [hsame]
    exact h.latest k old hold hpublisher (hstate hgranted)
  · rw [hnew]
    exact .inr h.issued
  · rw [hfenced] at hgranted
    cases hgranted

theorem Fronting.normalize (h : Fronting session a) (hsame : SameRecord b (normalizeImage a)) :
    Fronting session b := by
  refine Fronting.of_sameRecord (a := normalizeImage a) ⟨h.issued, ?_⟩ hsame
  intro k entry hentry hpublisher hgranted
  exact absurd hgranted (not_granted_normalizeImage hentry)

theorem run_fronting {r r' : FabricRuntime} (hrun : Run r r') (h : Fronting session r.image) :
    Fronting session r'.image :=
  run_invariant_of_governed hrun (fun _ _ hsame h => h.of_sameRecord hsame)
    (fun _ _ _ hgoverned h => h.governed hgoverned)
    (fun _ _ hsame h => h.normalize hsame) h

end Grants

theorem run_outcome (node : FabricNode) (turn : Turn) (message : Message) :
    Run node.runtime (outcome node turn message).2.runtime := by
  rcases outcome_cases node turn message with hsame | hdispatch
  · rw [hsame]
  · rw [hdispatch]
    exact run_dispatch _ _ _ _

theorem run_executes {ι : Type} {start node : FabricNode} {log : List (ι × Message × Message)}
    (h : Executes fabric OwnMove start log node) : Run start.runtime node.runtime := by
  induction h with
  | nil => exact .refl
  | serve h i hserves ih =>
      obtain ⟨-, turn, hrespond⟩ := hserves
      cases hrespond
      exact ih.trans (run_outcome _ _ _)
  | move h hmoves ih =>
      cases hmoves with
      | call now call => exact ih.trans (.single (.call _ now call))
      | stop => exact ih

theorem eq_of_run {α : Type} {dec : Decoder α} {bytes : Bytes} {value found : α} {C : Prop}
    (hrun : Decoder.run dec bytes = .ok found) (h : ReadsIff dec bytes value C) :
    found = value := by
  by_cases hC : C
  · rw [run_of_readsIff h hC] at hrun
    cases hrun
    rfl
  · obtain ⟨e, he⟩ := run_refuses_of_readsIff h hC
    rw [he] at hrun
    cases hrun

theorem decodeHello_ok {limits : Limits} {publisher : PublisherId} {boot : BootId}
    {label : Bytes} {nonce : UInt64} {request : HelloRequest}
    (h : decodeHello (encodeHello ⟨publisher, boot, label, nonce⟩) limits = .ok request) :
    request = ⟨publisher, boot, boundText label maxLabel, nonce⟩ :=
  eq_of_run h (ReadsIff.bind (readsIff_id limits publisher) fun _ =>
    ReadsIff.bind_true (readsIff_decodeBoot _) <|
    ReadsIff.bind_true (readsIff_boundText _ _ (by decide)) <|
    ReadsIff.bind_last (readsIff_u64 _) fun _ => ReadsIff.pure_of_eq rfl)

theorem decodeHelloResponse_ok {limits : Limits} {response found : HelloResponse}
    (h : decodeHelloResponse (encodeHelloResponse response) limits = .ok found) :
    found = response :=
  eq_of_run h (ReadsIff.bind (readsIff_id limits response.nodeId) fun _ =>
    ReadsIff.bind_true (readsIff_decodeBoot _) <|
    ReadsIff.bind_true (readsIff_u64 _) <|
    ReadsIff.bind_true (readsIff_u64 _) <|
    ReadsIff.bind_true (readsIff_u64 _) <|
    ReadsIff.bind_last (readsIff_u64 _) fun _ => ReadsIff.pure_of_eq rfl)

theorem decodeSessionRequest_ok {limits : Limits} {session : Session} {inner : Bytes}
    {request : Session × Bytes}
    (h : decodeSessionRequest (encodeSessionRequest session inner) limits = .ok request) :
    request = (session, inner) := by
  have hlength : (encodeSession session).length < 2 ^ 32 := by
    have hid := session.publisher.length_value_le
    rw [length_encodeSession]
    omega
  have hblob := @readsIff_blob _ limits.maxRecordPayload _ _ _ _ hlength
    (run_of_readsIff (readsIff_decodeSession limits session))
    (run_refuses_of_readsIff (readsIff_decodeSession limits session))
  by_cases hreadable : (encodeSession session).length ≤ limits.maxRecordPayload ∧
      IdReadable limits session.publisher
  · have hread := (hblob inner).1 hreadable
    simp only [decodeSessionRequest, encodeSessionRequest, readAll, readSessionRequest, bind,
      StateT.bind, hread] at h
    cases h
    rfl
  · obtain ⟨e, he⟩ := (hblob inner).2 hreadable
    simp only [decodeSessionRequest, encodeSessionRequest, readAll, readSessionRequest, bind,
      StateT.bind, he] at h
    cases h

section Answers

variable {node : FabricNode} {c : NodeClient} {turn : Turn}

/-- An answer of the client comes from a reply the node made to a frame it accepted. -/
theorem reply_of_conclude {request : Request} {answer : Answer}
    (h : (conclude c.sent request (respond node turn (c.message request)).1.op
      (respond node turn (c.message request)).1.payload).1 = .ok answer) :
    ∃ reply, (node.dispatch turn.now (c.message request).header
        (c.message request).payload).1 = .ok reply ∧
      (respond node turn (c.message request)).2 = (node.dispatch turn.now
        (c.message request).header (c.message request).payload).2 ∧
      understand c.limits request (encodeReply (respond node turn (c.message request)).2
        turn.stats (if request.op.code = Op.hello.code then greetedAt turn.generation reply
          else reply)) = .ok answer := by
  have hconclude := conclude_replyMessage c.sent request
    (outcome node turn (c.message request)).2 turn.toVisit c.nextRequestId
    (outcome node turn (c.message request)).1
  have hbind := hconclude.symm.trans h
  cases hvalid : validateFrameHeader (c.message request).header node.options.limits with
  | error e =>
      simp only [outcome, hvalid] at hbind
      cases hbind
  | ok u =>
      have houtcome : outcome node turn (c.message request) =
          (if request.op.code = Op.hello.code then (node.dispatch turn.now
              (c.message request).header (c.message request).payload).1.map
                (greetedAt turn.generation)
            else (node.dispatch turn.now (c.message request).header
              (c.message request).payload).1,
            (node.dispatch turn.now (c.message request).header
              (c.message request).payload).2) := by
        rw [outcome, hvalid]
        rfl
      have hafter : (respond node turn (c.message request)).2 = (node.dispatch turn.now
          (c.message request).header (c.message request).payload).2 := by
        rw [respond, houtcome]
      rw [hafter]
      rw [houtcome] at hbind
      cases hreply : (node.dispatch turn.now (c.message request).header
          (c.message request).payload).1 with
      | error e =>
          rw [hreply] at hbind
          split at hbind <;> cases hbind
      | ok reply =>
          rw [hreply] at hbind
          refine ⟨reply, rfl, rfl, ?_⟩
          by_cases hhello : request.op.code = Op.hello.code
          · rw [if_pos hhello] at hbind ⊢
            exact hbind
          · rw [if_neg hhello] at hbind ⊢
            exact hbind

theorem granted_of_greeting {publisher : PublisherId} {boot : BootId} {label : Bytes}
    {response : HelloResponse}
    (h : (conclude c.sent (.hello publisher boot label)
      (respond node turn (c.message (.hello publisher boot label))).1.op
      (respond node turn (c.message (.hello publisher boot label))).1.payload).1 =
        .ok (.hello response)) :
    ∃ session, node.runtime.grantAuthority turn.now publisher boot = (.ok session,
        (respond node turn (c.message (.hello publisher boot label))).2.runtime) ∧
      response.token = session.token ∧ response.epoch = session.epoch := by
  obtain ⟨reply, hreply, hafter, hunderstood⟩ := reply_of_conclude h
  have hgreet : node.dispatch turn.now (c.message (.hello publisher boot label)).header
      (c.message (.hello publisher boot label)).payload =
        node.greet turn.now (c.body (.hello publisher boot label)) := rfl
  have hop : (Request.hello publisher boot label).op.code = Op.hello.code := rfl
  rw [hgreet] at hreply hafter
  rw [hop, if_pos rfl, hafter] at hunderstood
  rw [hafter]
  unfold FabricNode.greet at hreply hunderstood ⊢
  cases hdecode : decodeHello (c.body (.hello publisher boot label)) node.options.limits with
  | error e =>
      rw [hdecode] at hreply
      cases hreply
  | ok request =>
      have hrequest := decodeHello_ok hdecode
      subst hrequest
      rw [hdecode] at hreply hunderstood
      simp only [FabricNode.decoded] at hreply hunderstood ⊢
      cases hgrant : node.runtime.grantAuthority turn.now publisher boot with
      | mk status r' =>
          rw [hgrant] at hreply hunderstood
          cases status with
          | error e => cases hreply
          | ok session =>
              cases hreply
              refine ⟨session, rfl, ?_⟩
              simp only [understand, encodeReply, Except.map] at hunderstood
              split at hunderstood
              · cases hunderstood
              · rename_i found hfound
                cases hunderstood
                have hresponse := decodeHelloResponse_ok hfound
                subst hresponse
                exact ⟨rfl, rfl⟩

theorem session_of_grant {r r' : FabricRuntime} {now : UInt64} {publisher : PublisherId}
    {boot : BootId} {session : Session}
    (h : r.grantAuthority now publisher boot = (.ok session, r')) :
    session.publisher = publisher ∧ session.boot = boot := by
  rcases grantAuthority_ok h with ⟨entry, -, -, -, rfl, -⟩ | hgranted
  · exact ⟨rfl, rfl⟩
  · exact ⟨hgranted.publisher_eq, hgranted.boot_eq⟩

/-- The calls that change the state under the session of the client. -/
def writes : Request → Bool
  | .defineClass _ | .defineScope _ | .definePolicy _ | .defineSubject _ | .assign _
  | .retire _ _ | .advanceEpoch _ | .fence _ _ _ => true
  | .hello _ _ _ | .evaluate _ | .checkpoint | .stats | .integrity | .ping | .shutdown => false

theorem call_of_decoded {α : Type} {result : Result α} {body : α → Result Reply × FabricNode}
    {reply : Reply} (toCall : α → Call) (h : (node.decoded result body).1 = .ok reply) :
    ∃ call, result.toOption.map toCall = some call := by
  cases result with
  | error e => cases h
  | ok a => exact ⟨toCall a, rfl⟩

theorem call_of_write {request : Request} (hwrites : writes request = true) {now : UInt64}
    {session : Session} {inner : Bytes} {reply : Reply}
    (h : (node.serve now request.op.code session inner).1 = .ok reply) :
    ∃ call, Guarding.callOf node.options.limits request.op.code session inner = some call := by
  cases request with
  | defineClass d => exact call_of_decoded (.defineClass session) h
  | defineScope d => exact call_of_decoded (.defineScope session) h
  | definePolicy d => exact call_of_decoded (.definePolicy session) h
  | defineSubject d => exact call_of_decoded (.defineSubject session) h
  | assign a => exact call_of_decoded (.assign session) h
  | retire id reason =>
      exact call_of_decoded (fun request => .retireAssignment session request.1 request.2) h
  | advanceEpoch reason => exact call_of_decoded (.advanceEpoch session) h
  | fence publisher boot reason =>
      exact call_of_decoded
        (fun request => .fence session request.publisher request.boot request.reason) h
  | _ => cases hwrites

theorem current_of_write {request : Request} {reply : Reply} (hwrites : writes request = true)
    (h : (node.dispatch turn.now (c.message request).header
      (c.message request).payload).1 = .ok reply) :
    Current node.runtime.image c.session := by
  have hop : request.op ≠ .hello := by
    cases request with
    | hello publisher boot label => cases hwrites
    | _ => simp [Request.op]
  have hbody : (c.message request).payload = encodeSessionRequest c.session request.inner := by
    cases request with
    | hello publisher boot label => cases hwrites
    | _ => rfl
  rw [FabricNode.dispatch, if_neg (op_ne_hello c hop), hbody] at h
  cases hdecode : decodeSessionRequest (encodeSessionRequest c.session request.inner)
      node.options.limits with
  | error e =>
      rw [hdecode] at h
      cases h
  | ok decoded =>
      have hdecoded := decodeSessionRequest_ok hdecode
      subst hdecoded
      rw [hdecode] at h
      have hserve : (node.serve turn.now request.op.code c.session request.inner).1 =
          .ok reply := h
      obtain ⟨call, hcall⟩ := call_of_write hwrites hserve
      exact current_of_acceptedUnder (acceptedUnder_serve hcall hserve)

end Answers

def named (runtime : FabricRuntime) : FabricNode :=
  { runtime, nodeId := ⟨[97], wellFormed_a⟩ }

def greeted (node : FabricNode) : System Unit :=
  returned (alone node {}) () (.hello somePublisher someBoot []) { now := 0, stats := {} }

/-- Then it defines a class under the session it got. -/
def written (node : FabricNode) : System Unit :=
  returned (greeted node) () (.defineClass plainClass) { now := 0, stats := {} }

/-- A call of the only client is within these bounds. -/
def Small (s : System Unit) (request : Request) : Prop :=
  ((s.talkers ()).client.body request).length ≤ 4096 ∧
    (replyTo s () request { now := 0, stats := {} }).payload.length ≤ 4096 ∧
    s.world.server.options.limits.maxFramePayload = 4194304 ∧
    (s.talkers ()).client.limits.maxFramePayload = 4194304

instance (s : System Unit) (request : Request) : Decidable (Small s request) :=
  inferInstanceAs (Decidable (_ ∧ _))

theorem fits_of_small {s : System Unit} {request : Request} (hrefusal : request.refusal = none)
    (h : Small s request) : Fits s () request { now := 0, stats := {} } := by
  obtain ⟨hbody, hreply, hnode, hclient⟩ := h
  refine ⟨hrefusal, by omega, by omega, by omega, by omega⟩

def greets : Answer → Bool
  | .hello _ => true
  | _ => false

theorem exists_greeting {results : List (Result Answer)} (hlength : results.length = 2)
    (hgreeting : (results[0]?.bind (·.toOption)).any greets = true)
    (hanswer : (results[1]?.bind (·.toOption)).isSome = true) :
    ∃ response answer, results = [.ok (.hello response), .ok answer] := by
  obtain ⟨first, second, rfl⟩ := List.length_eq_two.mp hlength
  cases first with
  | error e => cases hgreeting
  | ok answer =>
      cases second with
      | error e => cases hanswer
      | ok answer' =>
          cases answer with
          | hello response => exact ⟨response, answer', rfl⟩
          | _ => cases hgreeting

theorem answered_creating :
    ∃ opened, openStore ∅ creatingRuntime.store zeroKey = .ok opened ∧
      Small (alone (named (startRuntime creatingRuntime opened)) {})
        (.hello somePublisher someBoot []) ∧
      Small (greeted (named (startRuntime creatingRuntime opened))) (.defineClass plainClass) ∧
      ((greeted (named (startRuntime creatingRuntime opened))).talkers ()).client.session =
        firstSession ∧
      ∃ response answer,
        ((written (named (startRuntime creatingRuntime opened))).talkers ()).results =
          [.ok (.hello response), .ok answer] := by
  obtain ⟨opened, hopen⟩ := openStore_empty
  have hfacts : ((openStore ∅ creating zeroKey).toOption.any fun opened =>
      let node := named (startRuntime creatingRuntime opened)
      decide (Small (alone node {}) (.hello somePublisher someBoot [])) &&
      decide (Small (greeted node) (.defineClass plainClass)) &&
      decide (((greeted node).talkers ()).client.session = firstSession) &&
      decide (((written node).talkers ()).results.length = 2) &&
      (((written node).talkers ()).results[0]?.bind (·.toOption)).any greets &&
      (((written node).talkers ()).results[1]?.bind (·.toOption)).isSome) = true := by
    decide +kernel
  rw [hopen] at hfacts
  simp only [Except.toOption, Option.any_some, Bool.and_eq_true, decide_eq_true_eq] at hfacts
  obtain ⟨⟨⟨⟨⟨hhello, hwrite⟩, hsession⟩, hlength⟩, hgreeting⟩, hanswer⟩ := hfacts
  exact ⟨opened, hopen, hhello, hwrite, hsession, exists_greeting hlength hgreeting hanswer⟩

end PriorityFabric.Fencing
