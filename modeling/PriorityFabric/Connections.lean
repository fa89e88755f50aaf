import PriorityFabric.Guarding
import PriorityFabric.Populations

/-!
A connection from its first frame to its close.

Calls of other connections come between the frames.  When the connection ends, the node may
advance the epoch under the session it last read off a payload, whether or not that session
was ever granted.
-/

namespace PriorityFabric.Connections

open PriorityFabric.Lib.LittleEndian
open PriorityFabric.Basics
open PriorityFabric.Ident
open PriorityFabric.Model
open PriorityFabric.State
open PriorityFabric.Validate
open PriorityFabric.Apply hiding perform
open PriorityFabric.ApplyFacts
open PriorityFabric.Readable
open PriorityFabric.Durability
open PriorityFabric.Store
open PriorityFabric.Committing
open PriorityFabric.CommitRuns
open PriorityFabric.Serving
open PriorityFabric.Runtime
open PriorityFabric.Runtime.FabricRuntime
open PriorityFabric.Calls
open PriorityFabric.Lifetimes
open PriorityFabric.Authority
open PriorityFabric.Decisions (evidenceBehind reaches_of_evidenceBehind)
open PriorityFabric.Wire
open PriorityFabric.Node
open PriorityFabric.Node.FabricNode
open PriorityFabric.ModelCodec
open PriorityFabric.QueryCodec
open PriorityFabric.Guarding

/-! ## Connections -/

/-- The request was accepted and changed the state under this session: a greeting hands it
out, any other request carries it. -/
inductive Accepts (node : FabricNode) (now : UInt64) (header : FrameHeader) (payload : Bytes)
    (session : Session) : Prop
  | greeted (request : HelloRequest) (response : HelloResponse)
      (hop : header.op = Op.hello.code)
      (hrequest : decodeHello payload node.options.limits = .ok request)
      (hreply : (node.dispatch now header payload).1 = .ok (.hello response))
      (hsession : session = ⟨request.publisher, request.boot, response.epoch, response.token⟩)
  | called (inner : Bytes) (call : Call) (reply : Reply) (hop : header.op ≠ Op.hello.code)
      (hrequest : decodeSessionRequest payload node.options.limits = .ok (session, inner))
      (hcall : callOf node.options.limits header.op session inner = some call)
      (hreply : (node.dispatch now header payload).1 = .ok reply)

/-- The node as a connection sees it, and what the connection remembers.  The sessions under
which something was accepted here are not part of the program's state. -/
structure Connection where
  node : FabricNode
  lastSession : Session := {}
  accepted : Set Session := ∅

namespace Connection

/-- The session to expire is the one of the last payload that starts with a session block. -/
def remembered (c : Connection) (payload : Bytes) : Session :=
  match decodeSessionRequest payload c.node.options.limits with
  | .error _ => c.lastSession
  | .ok request => request.1

def receive (c : Connection) (now : UInt64) (header : FrameHeader) (payload : Bytes) :
    Connection where
  node := (c.node.dispatch now header payload).2
  lastSession := c.remembered payload
  accepted := c.accepted ∪ { session | Accepts c.node now header payload session }

/-- The end of the connection; what the epoch advance returns is ignored. -/
def close (c : Connection) (now : UInt64) : FabricNode :=
  if c.node.options.fenceOnDisconnect = true ∧ sessionShapeValid c.lastSession = true ∧
      c.node.stopping = false then
    c.node.withRuntime (c.node.runtime.advanceEpoch now c.lastSession
      (text "publisher socket closed")).2
  else c.node

end Connection

/-- A frame of this connection, or what another connection or the node itself does. -/
inductive ConnectionStep : Connection → Connection → Prop
  | frame (c : Connection) (now : UInt64) (header : FrameHeader) (payload : Bytes) :
      ConnectionStep c (c.receive now header payload)
  | other (c : Connection) (now : UInt64) (call : Call) :
      ConnectionStep c { c with node := c.node.withRuntime (perform c.node.runtime now call).2 }
  | stop (c : Connection) : ConnectionStep c { c with node := { c.node with stopping := true } }

/-- Every course of one connection, up to its close. -/
abbrev Course := Relation.ReflTransGen ConnectionStep

/-! ## What a request does to the runtime -/

section Requests

variable {node : FabricNode} {now : UInt64} {r : FabricRuntime}

theorem runtime_answer {α : Type} (reply : α → Reply) (result : Result α × FabricRuntime) :
    (node.answer reply result).2.runtime = result.2 := by
  obtain ⟨status, r'⟩ := result
  cases status <;> rfl

theorem perform_ok_of_answer {α : Type} {reply : α → Reply} {answered : Reply}
    {result : Result α × FabricRuntime} {call : Call} (hcall : perform r now call = outcome result)
    (h : (node.answer reply result).1 = .ok answered) : (perform r now call).1 = none := by
  rw [hcall]
  obtain ⟨status, r'⟩ := result
  cases status with
  | error e => cases h
  | ok a => rfl

/-- The runtime after a request is that before it, or that after one call. -/
def Answers (r : FabricRuntime) (now : UInt64) (node' : FabricNode) : Prop :=
  node'.runtime = r ∨ ∃ call, node'.runtime = (perform r now call).2

theorem answers_answer {α : Type} {reply : α → Reply} {result : Result α × FabricRuntime}
    (call : Call) (hcall : perform r now call = outcome result) :
    Answers r now (node.answer reply result).2 := by
  refine .inr ⟨call, ?_⟩
  rw [runtime_answer, hcall, snd_outcome]

theorem answers_decoded {α : Type} {result : Result α} {body : α → Result Reply × FabricNode}
    (h : ∀ a, Answers node.runtime now (body a).2) :
    Answers node.runtime now (node.decoded result body).2 := by
  cases result with
  | error e => exact .inl rfl
  | ok a => exact h a

theorem answers_serve (op : UInt16) (session : Session) (inner : Bytes) :
    Answers node.runtime now (node.serve now op session inner).2 := by
  unfold serve
  cases Op.ofCode? op with
  | none => exact .inl rfl
  | some known =>
      cases known with
      | hello => exact .inl rfl
      | helloAck => exact .inl rfl
      | response => exact .inl rfl
      | error => exact .inl rfl
      | defineClass =>
          exact answers_decoded fun d => answers_answer (.defineClass session d) rfl
      | defineScope =>
          exact answers_decoded fun d => answers_answer (.defineScope session d) rfl
      | definePolicy =>
          exact answers_decoded fun d => answers_answer (.definePolicy session d) rfl
      | defineSubject =>
          exact answers_decoded fun d => answers_answer (.defineSubject session d) rfl
      | assign => exact answers_decoded fun a => answers_answer (.assign session a) rfl
      | retire =>
          exact answers_decoded fun request =>
            answers_answer (.retireAssignment session request.1 request.2) rfl
      | advanceEpoch =>
          exact answers_decoded fun reason => answers_answer (.advanceEpoch session reason) rfl
      | fence =>
          exact answers_decoded fun request =>
            answers_answer (.fence session request.publisher request.boot request.reason) rfl
      | query => exact answers_decoded fun query => .inl rfl
      | stats => exact .inl rfl
      | audit => exact .inl rfl
      | ping => exact .inl rfl
      | checkpoint => exact answers_answer .checkpoint rfl
      | integrity => exact .inr ⟨.integrityReport, rfl⟩
      | shutdown =>
          simp only
          split
          · exact .inl rfl
          · exact .inl rfl

theorem answers_greet (payload : Bytes) :
    Answers node.runtime now (node.greet now payload).2 := by
  refine answers_decoded fun request => .inr ⟨.grantAuthority request.publisher request.boot, ?_⟩
  rw [perform, snd_outcome]
  generalize node.runtime.grantAuthority now request.publisher request.boot = result
  obtain ⟨status, r'⟩ := result
  cases status <;> rfl

theorem run_dispatch (node : FabricNode) (now : UInt64) (header : FrameHeader)
    (payload : Bytes) : Run node.runtime (node.dispatch now header payload).2.runtime := by
  have hanswers : Answers node.runtime now (node.dispatch now header payload).2 := by
    unfold dispatch
    split
    · exact answers_greet payload
    · exact answers_decoded fun request => answers_serve _ _ _
  rcases hanswers with h | ⟨call, h⟩
  · rw [h]
  · rw [h]
    exact .single (.call _ now call)

end Requests

section Acceptance

variable {node : FabricNode} {now : UInt64} {session : Session} {call : Call} {reply : Reply}

/-- The call was accepted and is one under the session. -/
def AcceptedUnder (r : FabricRuntime) (now : UInt64) (session : Session) (call : Call) : Prop :=
  (perform r now call).1 = none ∧ actorOf call = some session

theorem acceptedUnder_decoded {α : Type} {result : Result α}
    {body : α → Result Reply × FabricNode} {toCall : α → Call}
    (hbody : ∀ a, (body a).1 = .ok reply → AcceptedUnder node.runtime now session (toCall a))
    (hcall : result.toOption.map toCall = some call)
    (hreply : (node.decoded result body).1 = .ok reply) :
    AcceptedUnder node.runtime now session call := by
  cases result with
  | error e => cases hcall
  | ok a =>
      cases hcall
      exact hbody a hreply

theorem acceptedUnder_answer {α : Type} {toReply : α → Reply}
    {result : Result α × FabricRuntime} (hcall : perform node.runtime now call = outcome result)
    (hactor : actorOf call = some session)
    (h : (node.answer toReply result).1 = .ok reply) :
    AcceptedUnder node.runtime now session call :=
  ⟨perform_ok_of_answer hcall h, hactor⟩

theorem acceptedUnder_serve {op : UInt16} {inner : Bytes}
    (hcall : callOf node.options.limits op session inner = some call)
    (hreply : (node.serve now op session inner).1 = .ok reply) :
    AcceptedUnder node.runtime now session call := by
  unfold serve at hreply
  unfold callOf at hcall
  generalize Op.ofCode? op = known at hcall hreply
  cases known with
  | none => cases hcall
  | some known =>
      cases known with
      | hello => cases hcall
      | helloAck => cases hcall
      | response => cases hcall
      | error => cases hcall
      | query => cases hcall
      | stats => cases hcall
      | audit => cases hcall
      | ping => cases hcall
      | checkpoint => cases hcall
      | integrity => cases hcall
      | shutdown => cases hcall
      | defineClass =>
          exact acceptedUnder_decoded (fun d => acceptedUnder_answer rfl rfl) hcall hreply
      | defineScope =>
          exact acceptedUnder_decoded (fun d => acceptedUnder_answer rfl rfl) hcall hreply
      | definePolicy =>
          exact acceptedUnder_decoded (fun d => acceptedUnder_answer rfl rfl) hcall hreply
      | defineSubject =>
          exact acceptedUnder_decoded (fun d => acceptedUnder_answer rfl rfl) hcall hreply
      | assign =>
          exact acceptedUnder_decoded (fun a => acceptedUnder_answer rfl rfl) hcall hreply
      | retire =>
          exact acceptedUnder_decoded (fun request => acceptedUnder_answer rfl rfl) hcall hreply
      | advanceEpoch =>
          exact acceptedUnder_decoded (fun reason => acceptedUnder_answer rfl rfl) hcall hreply
      | fence =>
          exact acceptedUnder_decoded (fun request => acceptedUnder_answer rfl rfl) hcall hreply

theorem current_of_acceptedUnder (h : AcceptedUnder node.runtime now session call) :
    Current node.runtime.image session := by
  by_contra hcurrent
  obtain ⟨⟨e, he⟩, -⟩ := refused_of_not_current h.2 hcurrent now
  rw [h.1] at he
  cases he

/-- A session under which something is accepted is of an epoch that has been reached. -/
theorem epoch_of_accepts {header : FrameHeader} {payload : Bytes}
    (h : Accepts node now header payload session) :
    session.epoch.value.toNat ≤
      (node.dispatch now header payload).2.runtime.image.epoch.value.toNat := by
  cases h with
  | greeted request response hop hrequest hreply hsession =>
      subst hsession
      rw [dispatch, if_pos hop, greet, hrequest] at hreply ⊢
      simp only [decoded] at hreply ⊢
      cases hgrant : node.runtime.grantAuthority now request.publisher request.boot with
      | mk status r' =>
          cases status with
          | error e =>
              rw [hgrant] at hreply
              cases hreply
          | ok session =>
              rw [hgrant] at hreply
              cases hreply
              have hcurrent := current_of_grantAuthority hgrant
              exact le_of_eq (congrArg (·.value.toNat) hcurrent.1.symm)
  | called inner call reply hop hrequest hcall hreply =>
      have hahead := (run_ahead (run_dispatch node now header payload)).epoch
      rw [dispatch, if_neg hop, hrequest] at hreply
      have hcurrent := current_of_acceptedUnder (acceptedUnder_serve hcall hreply)
      rw [← hcurrent.1]
      exact hahead

end Acceptance

/-! ## The course of a connection -/

/-- The runtime went through a run, and every session under which something was accepted is
of an epoch that has been reached. -/
structure Followed (start : FabricNode) (c : Connection) : Prop where
  run : Run start.runtime c.node.runtime
  reached : ∀ session ∈ c.accepted,
    session.epoch.value.toNat ≤ c.node.runtime.image.epoch.value.toNat

theorem Followed.step {start : FabricNode} {c c' : Connection} (h : Followed start c)
    (hstep : ConnectionStep c c') : Followed start c' := by
  cases hstep with
  | frame now header payload =>
      have hrun := run_dispatch c.node now header payload
      refine ⟨h.run.trans hrun, ?_⟩
      rintro session (hold | hnew)
      · exact (h.reached session hold).trans (run_ahead hrun).epoch
      · exact epoch_of_accepts hnew
  | other now call =>
      have hrun : Run c.node.runtime (perform c.node.runtime now call).2 :=
        .single (.call _ now call)
      refine ⟨h.run.trans hrun, ?_⟩
      intro session hsession
      exact (h.reached session hsession).trans (run_ahead hrun).epoch
  | stop => exact ⟨h.run, h.reached⟩

theorem followed_course {start : FabricNode} {c : Connection}
    (hcourse : Course { node := start } c) : Followed start c := by
  induction hcourse with
  | refl => exact ⟨.refl, fun session h => absurd h (Set.notMem_empty session)⟩
  | tail _ hstep ih => exact ih.step hstep

/-! ## The close -/

/-- The mutation a close commits under the session it remembers. -/
def closing (session : Session) (now : UInt64) : Mutation :=
  baseMutation session .advanceEpoch (text "publisher socket closed") now

/-- The session is the live grant of its incarnation, and the epoch advance it is to make gets
into the journal. -/
structure Expires (r : FabricRuntime) (now : UInt64) (session : Session) : Prop where
  shape : sessionShapeValid session = true
  running : r.closed = false
  current : Current r.image session
  journals : Journals r.state (closing session now)

theorem commit_of_journals {s : StoreState} {mutation : Mutation} {image : StateImage}
    (hjournals : Journals s mutation)
    (happly : applyMutation s.live (planOf s.live mutation) false = (.ok (), image)) :
    ∃ s', Store.commit s mutation = (.ok (), s') ∧ SameRecord s'.live image := by
  obtain ⟨⟨planned, hplan⟩, hsegment⟩ := hjournals
  obtain rfl := planCommit_eq_planOf hplan
  have hgeneration := generation_of_planned (planCommit_eq_ok_iff.mp hplan) happly
  have hjournal {t : StoreState} (hlive : t.live = s.live) (hopen : t.store.segmentOpen = true) :
      ∃ s', journalCommit t (planOf s.live mutation) .complete .complete = (.ok (), s') ∧
        SameRecord s'.live image := by
    rw [← hlive] at happly
    refine ⟨_, journalCommit_accepted hopen ?_ hgeneration, ⟨rfl, rfl, rfl, rfl, rfl, rfl, rfl,
      rfl, rfl⟩⟩
    rw [hlive] at happly ⊢
    exact happly
  unfold Store.commit commitWriting rollSegmentIfNeeded
  simp only [hplan]
  rcases hsegment with ⟨hroll, hopen⟩ | ⟨hroll, hroom⟩
  · rw [if_pos hroll]
    exact hjournal rfl hopen
  · rw [if_neg (not_lt.mpr hroll)]
    simp only [failIf, ge_iff_le, not_le.mpr hroom, if_false, bind, Except.bind, pure,
      Except.pure]
    exact hjournal rfl rfl

theorem checkAuthority_of_current {image : StateImage} {session : Session}
    (hshape : sessionShapeValid session = true) (hcurrent : Current image session)
    (op : MutationOp) (reason : Bytes) (now : UInt64) :
    checkAuthority image (baseMutation session op reason now) = .ok () := by
  simp only [sessionShapeValid, Bool.and_eq_true] at hshape
  obtain ⟨⟨⟨hpublisher, hboot⟩, hestablished⟩, -⟩ := hshape
  obtain ⟨hepoch, entry, hentry, hgranted, hentryEpoch, htoken⟩ := hcurrent
  simp only [checkAuthority, baseMutation, bind_eq_ok, failIf_eq_ok, exists_const, ne_eq,
    not_not, hepoch, hentry, hgranted, hentryEpoch, htoken]
  simp [hpublisher, hestablished, BootId.valid] at hboot ⊢
  exact hboot

theorem applyMutation_closing {store : DurableStore} {live : StateImage} {session : Session}
    {now : UInt64} (hplanned : Planned store live (closing session now)
      (planOf live (closing session now)))
    (hauthorized : checkAuthority live (closing session now) = .ok ()) :
    ∃ image, applyMutation live (planOf live (closing session now)) false = (.ok (), image) := by
  have hnext : live.generation.next ≠ none := by
    intro hnone
    have hset := hplanned.generation_set
    simp [plannedGeneration, closing, baseMutation, isIdempotent, hnone, Generation.isSet,
      Generation.unset] at hset
  have hepoch : live.epoch.next ≠ none := by
    have hvalid := hplanned.valid
    simpa [validateMutation, closing, baseMutation] using hvalid
  obtain ⟨epoch, hadvanced⟩ := Option.ne_none_iff_exists'.mp hepoch
  have hperform : Apply.perform
      (recordAccepted live (planOf live (closing session now))
        (plannedGeneration live (planOf live (closing session now))))
      (planOf live (closing session now))
      (provenanceOf live (planOf live (closing session now))
        (plannedGeneration live (planOf live (closing session now)))) = .ok
      { recordAccepted live (planOf live (closing session now))
          (plannedGeneration live (planOf live (closing session now))) with
        epoch
        authority := live.authority.map fun _ entry => expireStale epoch entry } := by
    simp only [Apply.perform, planOf, closing, baseMutation, Apply.advanceEpoch]
    have hsame := (sameRecord_recordAccepted live (planOf live (closing session now))
      (plannedGeneration live (planOf live (closing session now)))).epoch
    simp only [planOf, closing, baseMutation] at hsame
    rw [hsame, hadvanced]
    rfl
  exact ⟨_, applyMutation_eq_ok_iff.mpr ⟨_, ⟨hplanned.valid, fun _ _ => hauthorized, rfl,
    fun _ => hnext, fun _ => rfl⟩, .performed rfl hperform⟩⟩

/-- A close under a live session puts the epoch forward, and no grant survives it. -/
theorem advanceEpoch_of_expires {r : FabricRuntime} {now : UInt64} {session : Session}
    (h : Expires r now session) (hsound : Sound r.image) {closed : FabricRuntime}
    (hclosed : closed = (r.advanceEpoch now session (text "publisher socket closed")).2) :
    r.image.epoch.value.toNat < closed.image.epoch.value.toNat ∧
      ∀ (k : Incarnation) (entry : AuthorityEntry),
        closed.image.authority[k]? = some entry → entry.state ≠ .granted := by
  obtain ⟨planned, hplan⟩ := h.journals.1
  obtain rfl := planCommit_eq_planOf hplan
  obtain ⟨image, happly⟩ := applyMutation_closing (planCommit_eq_ok_iff.mp hplan)
    (checkAuthority_of_current h.shape h.current _ _ _)
  obtain ⟨s', hcommit, hsame⟩ := commit_of_journals h.journals happly
  have hrecord : SameRecord closed.image image := by
    rw [hclosed, FabricRuntime.advanceEpoch, underSession, if_neg (by simp [h.shape]),
      if_neg (by simp [h.running]), publish]
    have hreason : (if (text "publisher socket closed").isEmpty then text "epoch advanced"
        else text "publisher socket closed") = text "publisher socket closed" :=
      if_neg (by decide)
    rw [hreason]
    have hcommitted : commitMutation r.state (closing session now) =
        (.ok { entityGeneration := previewEntityGeneration r.state.live (closing session now),
               stateGeneration := s'.live.generation,
               noop := isIdempotent r.state.live (closing session now) }, s') := by
      simp only [commitMutation, hcommit]
    rw [closing] at hcommitted
    simp only [hcommitted]
    exact hsame
  cases applyMutation_governed happly with
  | kept hop => cases hop
  | granted provenance hop => cases hop
  | fenced publisher boot provenance hop => cases hop
  | advanced epoch hop hnext hepoch htoken hauthority =>
      refine ⟨?_, ?_⟩
      · rw [hrecord.epoch, hepoch, epoch_next_value hnext]
        exact Nat.lt_succ_self _
      · intro k entry hentry hgranted
        rw [hrecord.authority, hauthority, Std.ExtTreeMap.getElem?_map,
          Option.map_eq_some_iff] at hentry
        obtain ⟨old, hold, rfl⟩ := hentry
        have hkept := (lowered_expireStale epoch old).eq_of_granted hgranted
        rw [hkept] at hgranted
        have hcurrent := (hsound.current k old hold hgranted).1
        have hold_epoch : old.epoch = epoch := by
          by_contra hne
          rw [expireStale, if_pos ⟨hgranted, hne⟩] at hkept
          have hstate := congrArg AuthorityEntry.state hkept
          rw [hgranted] at hstate
          cases hstate
        have hvalue := epoch_next_value hnext
        rw [← hold_epoch, hcurrent] at hvalue
        exact absurd hvalue (Nat.ne_of_lt (Nat.lt_succ_self _))

/-! ## Lost writers -/

/-- The entry was published by the session's incarnation in the session's epoch. -/
def PublishedUnder (session : Session) (entry : AssignmentEntry) : Prop :=
  entry.provenance.publisher = session.publisher ∧ entry.provenance.boot = session.boot ∧
    entry.provenance.epoch = session.epoch

/-- No grant of the session's incarnation is older than this token, and nothing published
under the session stands behind a decision. -/
structure WriterLost (session : Session) (token : UInt64) (image : StateImage) : Prop where
  grants : ∀ entry,
    image.authority[Incarnation.mk session.publisher session.boot]? = some entry →
    entry.state = .granted → token.toNat ≤ entry.token.value.toNat
  evidence : ∀ query winner, evidenceBehind image query = some winner →
    ¬ PublishedUnder session winner.entry

/-- The writer has already been lost when the connection closes: it is fenced, or its epoch is
over and it holds no grant. -/
def AlreadyLost (image : StateImage) (session : Session) : Prop :=
  Fenced session.publisher session.boot image ∨
    session.epoch.value.toNat < image.epoch.value.toNat ∧ ∀ entry,
      image.authority[Incarnation.mk session.publisher session.boot]? = some entry →
        entry.state ≠ .granted

/-- Live grants of the incarnation hold this token or a later one. -/
structure Renewed (k : Incarnation) (token : UInt64) (image : StateImage) : Prop where
  issued : token.toNat ≤ image.nextFencingToken.toNat
  grants : ∀ entry, image.authority[k]? = some entry → entry.state = .granted →
    token.toNat ≤ entry.token.value.toNat

section Renewal

variable {k : Incarnation} {token : UInt64} {a b : StateImage}

theorem Renewed.of_sameRecord (h : Renewed k token a) (hsame : SameRecord b a) :
    Renewed k token b := by
  refine ⟨?_, ?_⟩
  · rw [hsame.nextFencingToken]
    exact h.issued
  · rw [hsame.authority]
    exact h.grants

theorem Renewed.governed {mutation : Mutation} (h : Renewed k token a)
    (hgoverned : Governed a mutation b) : Renewed k token b := by
  refine ⟨h.issued.trans (ahead_of_governed hgoverned).token, ?_⟩
  intro entry hentry hgranted
  rcases origin_of_governed hgoverned hentry with
    ⟨old, hold, htoken, -, hstate⟩ | hnew | ⟨-, hfenced⟩
  · rw [htoken]
    exact h.grants old hold (hstate hgranted)
  · rw [hnew]
    exact h.issued
  · rw [hfenced] at hgranted
    cases hgranted

theorem Renewed.normalize (h : Renewed k token a) (hsame : SameRecord b (normalizeImage a)) :
    Renewed k token b := by
  refine Renewed.of_sameRecord (a := normalizeImage a) ⟨h.issued, ?_⟩ hsame
  intro entry hentry hgranted
  exact absurd hgranted (not_granted_normalizeImage hentry)

theorem run_renewed {r r' : FabricRuntime} (hrun : Run r r') (h : Renewed k token r.image) :
    Renewed k token r'.image :=
  run_invariant_of_governed hrun (fun _ _ hsame h => h.of_sameRecord hsame)
    (fun _ _ _ hgoverned h => h.governed hgoverned)
    (fun _ _ hsame h => h.normalize hsame) h

theorem renewed_of_not_granted
    (h : ∀ entry, a.authority[k]? = some entry → entry.state ≠ .granted) :
    Renewed k a.nextFencingToken a :=
  ⟨Nat.le_refl _, fun entry hentry hgranted => absurd hgranted (h entry hentry)⟩

end Renewal

theorem evidence_epoch {image : StateImage} {query : PriorityQuery}
    {winner : Evaluate.Candidate} (h : evidenceBehind image query = some winner) :
    winner.entry.provenance.epoch = image.epoch := by
  obtain ⟨chain, -, hreaches⟩ := reaches_of_evidenceBehind h
  exact hreaches.bound.epoch

theorem writerLost_of_alreadyLost {r r' : FabricRuntime} {session : Session}
    (h : AlreadyLost r.image session) (hrun : Run r r') :
    WriterLost session r.image.nextFencingToken r'.image := by
  rcases h with hfenced | ⟨hover, hgone⟩
  · have hstays := run_fenced hrun hfenced
    refine ⟨?_, ?_⟩
    · intro entry hentry hgranted
      obtain ⟨fenced, hentry', hstate⟩ := hstays
      rw [hentry] at hentry'
      cases hentry'
      rw [hgranted] at hstate
      cases hstate
    · rintro query winner hwinner ⟨hpublisher, hboot, -⟩
      exact evidence_not_of_fenced hstays hwinner ⟨hpublisher, hboot⟩
  · refine ⟨(run_renewed hrun (renewed_of_not_granted hgone)).grants, ?_⟩
    rintro query winner hwinner ⟨-, -, hepoch⟩
    have hahead := (run_ahead hrun).epoch
    rw [← evidence_epoch hwinner, hepoch] at hahead
    omega

theorem run_close (c : Connection) (now : UInt64) :
    Run c.node.runtime (c.close now).runtime := by
  unfold Connection.close
  split
  · have hcall : Step c.node.runtime _ :=
      .call c.node.runtime now (.advanceEpoch c.lastSession (text "publisher socket closed"))
    rw [perform, snd_outcome] at hcall
    exact .single hcall
  · exact .refl

/-- With fencing on disconnect, after any course of a connection and while the node is not
stopping: when the session the connection last showed is a live grant under which the epoch
advance commits, or every writer of the connection had been lost before, then every writer
of the connection is lost, at the close and ever after. -/
theorem closing_loses_writers {fresh : FabricRuntime} {start : FabricNode} {c : Connection}
    {now : UInt64} {later : FabricRuntime} (hfresh : Fresh fresh)
    (hstart : Run fresh start.runtime) (hcourse : Course { node := start } c)
    (hfence : c.node.options.fenceOnDisconnect = true) (hstopping : c.node.stopping = false)
    (hcloses : Expires c.node.runtime now c.lastSession ∨
      ∀ session ∈ c.accepted, AlreadyLost c.node.runtime.image session)
    (hlater : Run (c.close now).runtime later) :
    ∀ session ∈ c.accepted,
      WriterLost session c.node.runtime.image.nextFencingToken later.image := by
  intro session hsession
  rcases hcloses with hexpires | hlost
  · have hfollowed := followed_course hcourse
    have hsound : Sound c.node.runtime.image :=
      run_sound (hstart.trans hfollowed.run) (sound_fresh.of_sameRecord hfresh)
    have hclosed : (c.close now).runtime = (c.node.runtime.advanceEpoch now c.lastSession
        (text "publisher socket closed")).2 := by
      rw [Connection.close, if_pos ⟨hfence, hexpires.shape, hstopping⟩]
      rfl
    obtain ⟨hepoch, hgone⟩ := advanceEpoch_of_expires hexpires hsound hclosed
    have hlost : AlreadyLost (c.close now).runtime.image session :=
      .inr ⟨(hfollowed.reached session hsession).trans_lt hepoch, fun entry => hgone _ entry⟩
    have hwriter := writerLost_of_alreadyLost hlost hlater
    refine ⟨?_, hwriter.evidence⟩
    intro entry hentry hgranted
    exact (run_ahead (run_close c now)).token.trans (hwriter.grants entry hentry hgranted)
  · exact writerLost_of_alreadyLost (hlost session hsession) ((run_close c now).trans hlater)

def plainClass : PriorityClassDef := { id := ⟨[97], wellFormed_a⟩, precedence := .make 7 }

/-- A node that fences on disconnect and has granted one publisher its authority. -/
def grantedNode (r : FabricRuntime) : FabricNode where
  runtime := (perform r 0 (.grantAuthority somePublisher someBoot)).2
  options := { fenceOnDisconnect := true }

/-- The publisher defines a class over the connection. -/
def writing (r : FabricRuntime) : Connection :=
  Connection.receive { node := grantedNode r } 0 { op := Op.defineClass.code }
    (encodeSessionRequest firstSession (encodeClassDefinition plainClass))

/-- Then comes a ping under a session nobody was granted. -/
def strayed (r : FabricRuntime) : Connection :=
  (writing r).receive 0 { op := Op.ping.code } (encodeSessionRequest stranger [])

theorem accepted_writing {r : FabricRuntime}
    (h : ((grantedNode r).dispatch 0 { op := Op.defineClass.code }
      (encodeSessionRequest firstSession (encodeClassDefinition plainClass))).1.isOk = true) :
    firstSession ∈ (writing r).accepted := by
  have hrequest : decodeSessionRequest (encodeSessionRequest firstSession
      (encodeClassDefinition plainClass)) {} =
        .ok (firstSession, encodeClassDefinition plainClass) := by
    refine decodeSessionRequest_encode _ ⟨by decide, by decide⟩ ?_ (by decide)
    rw [length_encodeSession]
    decide
  have hcall : (callOf {} Op.defineClass.code firstSession
      (encodeClassDefinition plainClass)).isSome = true := by decide
  obtain ⟨call, hcall⟩ := Option.isSome_iff_exists.mp hcall
  cases hreply : ((grantedNode r).dispatch 0 { op := Op.defineClass.code }
      (encodeSessionRequest firstSession (encodeClassDefinition plainClass))).1 with
  | error e =>
      rw [hreply] at h
      cases h
  | ok reply => exact .inr (.called _ call reply (by decide) hrequest hcall hreply)

theorem run_grantedNode (r : FabricRuntime) : Run r (grantedNode r).runtime :=
  .single (.call r 0 (.grantAuthority somePublisher someBoot))

theorem course_writing (r : FabricRuntime) : Course { node := grantedNode r } (writing r) :=
  .single (.frame _ _ _ _)

/-- A connection that only wrote loses its writer. -/
theorem closing_loses_writers_writing :
    ∃ r, Fresh r ∧ firstSession ∈ (writing r).accepted ∧
      WriterLost firstSession (writing r).node.runtime.image.nextFencingToken
        ((writing r).close 0).runtime.image := by
  obtain ⟨opened, hopen⟩ := openStore_empty
  have hfacts : (match openStore ∅ creating zeroKey with
      | .ok opened =>
          let r := startRuntime creatingRuntime opened
          let later := (writing r).node.runtime
          ((grantedNode r).dispatch 0 { op := Op.defineClass.code }
            (encodeSessionRequest firstSession (encodeClassDefinition plainClass))).1.isOk &&
          decide (later.closed = false ∧ later.image.epoch = ⟨1⟩ ∧
            (later.image.authority[Incarnation.mk somePublisher someBoot]?).map
              (fun entry => (entry.state, entry.epoch, entry.token)) =
                some (.granted, ⟨1⟩, ⟨1⟩) ∧
            (planCommit later.state.store later.state.live (closing firstSession 0)).isOk = true ∧
            later.state.store.segmentBytes < segmentRollBytes ∧
            later.state.store.segmentOpen = true ∧ (writing r).lastSession = firstSession ∧
            (writing r).node.options.fenceOnDisconnect = true ∧
            (writing r).node.stopping = false)
      | .error _ => false) = true := by decide +kernel
  rw [hopen] at hfacts
  simp only [Bool.and_eq_true, decide_eq_true_eq] at hfacts
  obtain ⟨hok, hclosed, hepoch, hentry, hplan, hbytes, hsegment, hlast, hfence, hstopping⟩ :=
    hfacts
  have hfresh : Fresh (startRuntime creatingRuntime opened) :=
    fresh_startRuntime (by simp) hopen
  have hexpires : Expires (writing (startRuntime creatingRuntime opened)).node.runtime 0
      (writing (startRuntime creatingRuntime opened)).lastSession := by
    rw [hlast]
    refine ⟨by decide, hclosed, ⟨hepoch, ?_⟩, ⟨?_, .inl ⟨hbytes, hsegment⟩⟩⟩
    · obtain ⟨entry, hfound, hfields⟩ := Option.map_eq_some_iff.mp hentry
      simp only [Prod.mk.injEq] at hfields
      exact ⟨entry, hfound, hfields.1, hfields.2.1, hfields.2.2⟩
    · cases hplanned : planCommit
          (writing (startRuntime creatingRuntime opened)).node.runtime.state.store
          (writing (startRuntime creatingRuntime opened)).node.runtime.state.live
          (closing firstSession 0) with
      | error e =>
          rw [hplanned] at hplan
          cases hplan
      | ok planned => exact ⟨planned, rfl⟩
  have haccepted := accepted_writing hok
  exact ⟨_, hfresh, haccepted, closing_loses_writers hfresh (run_grantedNode _)
    (course_writing _) hfence hstopping (.inl hexpires) .refl _ haccepted⟩

/-- After the stranger's ping the close fences nobody, and the writer keeps its grant. -/
theorem stray_ping_keeps_writer :
    ∃ r, Fresh r ∧ Run r (grantedNode r).runtime ∧
      Course { node := grantedNode r } (strayed r) ∧
      (strayed r).node.options.fenceOnDisconnect = true ∧ (strayed r).node.stopping = false ∧
      firstSession ∈ (strayed r).accepted ∧
      ¬ WriterLost firstSession (strayed r).node.runtime.image.nextFencingToken
        ((strayed r).close 0).runtime.image := by
  obtain ⟨opened, hopen⟩ := openStore_empty
  have hfacts : (match openStore ∅ creating zeroKey with
      | .ok opened =>
          let r := startRuntime creatingRuntime opened
          ((grantedNode r).dispatch 0 { op := Op.defineClass.code }
            (encodeSessionRequest firstSession (encodeClassDefinition plainClass))).1.isOk &&
          decide ((((strayed r).close 0).runtime.image.authority[
              Incarnation.mk somePublisher someBoot]?).map
              (fun entry => (entry.state, entry.token)) = some (.granted, ⟨1⟩) ∧
            1 < (strayed r).node.runtime.image.nextFencingToken ∧
            (strayed r).node.options.fenceOnDisconnect = true ∧
            (strayed r).node.stopping = false)
      | .error _ => false) = true := by decide +kernel
  rw [hopen] at hfacts
  simp only [Bool.and_eq_true, decide_eq_true_eq] at hfacts
  obtain ⟨hok, hentry, hnext, hfence, hstopping⟩ := hfacts
  refine ⟨startRuntime creatingRuntime opened, fresh_startRuntime (by simp) hopen,
    run_grantedNode _, (course_writing _).tail (.frame _ _ _ _), hfence, hstopping,
    .inl (accepted_writing hok), ?_⟩
  intro hlost
  obtain ⟨entry, hfound, hfields⟩ := Option.map_eq_some_iff.mp hentry
  simp only [Prod.mk.injEq] at hfields
  have holder := hlost.grants entry hfound hfields.1
  rw [hfields.2] at holder
  exact absurd (UInt64.lt_iff_toNat_lt.mp hnext) (not_lt.mpr holder)

end PriorityFabric.Connections
