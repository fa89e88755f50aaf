import PriorityFabric.DecisionCodec
import PriorityFabric.Node

/-!
What a node sends back, and the rest of the requests.

A statistics reply carries whatever the counters of the runtime are when it is made.
-/

namespace PriorityFabric.Replies

open PriorityFabric.Lib.LittleEndian
open PriorityFabric.Lib.ByteReader
open PriorityFabric.Basics
open PriorityFabric.Ident
open PriorityFabric.Hashing
open PriorityFabric.Model
open PriorityFabric.Codec
open PriorityFabric.Codec.Decoder (IdReadable readsIff_id readsIff_u8 readsIff_u64
  readsIff_boolean readsIff_str_of_lt run_of_readsIff)
open PriorityFabric.ModelCodec
open PriorityFabric.QueryCodec
open PriorityFabric.DecisionCodec
open PriorityFabric.State
open PriorityFabric.Runtime
open PriorityFabric.Wire
open PriorityFabric.Node

structure FabricStats where
  evaluations : UInt64 := 0
  evaluationsAssigned : UInt64 := 0
  evaluationsInherited : UInt64 := 0
  evaluationsOverridden : UInt64 := 0
  evaluationsConflict : UInt64 := 0
  evaluationsUnknown : UInt64 := 0
  evaluationsStale : UInt64 := 0
  evaluationsFenced : UInt64 := 0
  evaluationsRejected : UInt64 := 0
  mutationsAccepted : UInt64 := 0
  mutationsRejected : UInt64 := 0
  idempotentNoops : UInt64 := 0
  durableCommits : UInt64 := 0
  recoveries : UInt64 := 0
  epochAdvances : UInt64 := 0
  fencesIssued : UInt64 := 0
  authoritiesGranted : UInt64 := 0
  deriving DecidableEq, Repr

structure StateStats where
  classes : UInt64 := 0
  scopes : UInt64 := 0
  policies : UInt64 := 0
  subjects : UInt64 := 0
  assignments : UInt64 := 0
  retiredAssignments : UInt64 := 0
  publishers : UInt64 := 0
  fencedBoots : UInt64 := 0
  auditEntries : UInt64 := 0
  durableBytes : UInt64 := 0
  journalRecords : UInt64 := 0
  stateGeneration : Generation := .unset
  epoch : FabricEpoch := {}
  deriving DecidableEq

def stateStats (r : FabricRuntime) : StateStats where
  classes := UInt64.ofNat r.image.classes.size
  scopes := UInt64.ofNat r.image.scopes.size
  policies := UInt64.ofNat r.image.policies.size
  subjects := UInt64.ofNat r.image.subjects.size
  assignments := UInt64.ofNat r.image.assignments.size
  retiredAssignments :=
    UInt64.ofNat (r.image.assignments.toList.countP fun entry => entry.2.active = false)
  publishers := UInt64.ofNat r.image.authority.size
  fencedBoots :=
    UInt64.ofNat (r.image.authority.toList.countP fun entry => entry.2.state = .fenced)
  auditEntries := UInt64.ofNat r.image.audit.length
  durableBytes := UInt64.ofNat r.state.store.durableBytes
  journalRecords := UInt64.ofNat r.state.store.journalRecords
  stateGeneration := r.image.generation
  epoch := r.image.epoch

/-- The numbers of a statistics reply, in the order of the wire. -/
def statsFields (stats : FabricStats) (state : StateStats) : List UInt64 :=
  [stats.evaluations, stats.evaluationsAssigned, stats.evaluationsInherited,
    stats.evaluationsOverridden, stats.evaluationsConflict, stats.evaluationsUnknown,
    stats.evaluationsStale, stats.evaluationsFenced, stats.evaluationsRejected,
    stats.mutationsAccepted, stats.mutationsRejected, stats.idempotentNoops,
    stats.durableCommits, stats.recoveries, stats.epochAdvances, stats.fencesIssued,
    stats.authoritiesGranted,
    state.classes, state.scopes, state.policies, state.subjects, state.assignments,
    state.retiredAssignments, state.publishers, state.fencedBoots, state.auditEntries,
    state.durableBytes, state.journalRecords, state.stateGeneration.value, state.epoch.value]

def statsFieldCount : Nat := 30

def fabricStatsOf (fields : List UInt64) : FabricStats where
  evaluations := fields.getD 0 0
  evaluationsAssigned := fields.getD 1 0
  evaluationsInherited := fields.getD 2 0
  evaluationsOverridden := fields.getD 3 0
  evaluationsConflict := fields.getD 4 0
  evaluationsUnknown := fields.getD 5 0
  evaluationsStale := fields.getD 6 0
  evaluationsFenced := fields.getD 7 0
  evaluationsRejected := fields.getD 8 0
  mutationsAccepted := fields.getD 9 0
  mutationsRejected := fields.getD 10 0
  idempotentNoops := fields.getD 11 0
  durableCommits := fields.getD 12 0
  recoveries := fields.getD 13 0
  epochAdvances := fields.getD 14 0
  fencesIssued := fields.getD 15 0
  authoritiesGranted := fields.getD 16 0

def stateStatsOf (fields : List UInt64) : StateStats where
  classes := fields.getD 17 0
  scopes := fields.getD 18 0
  policies := fields.getD 19 0
  subjects := fields.getD 20 0
  assignments := fields.getD 21 0
  retiredAssignments := fields.getD 22 0
  publishers := fields.getD 23 0
  fencedBoots := fields.getD 24 0
  auditEntries := fields.getD 25 0
  durableBytes := fields.getD 26 0
  journalRecords := fields.getD 27 0
  stateGeneration := ⟨fields.getD 28 0⟩
  epoch := ⟨fields.getD 29 0⟩

structure StatsReply where
  stats : FabricStats
  state : StateStats
  nodeBoot : BootId
  nodeId : PublisherId

def encodeStatsReply (reply : StatsReply) : Bytes :=
  encodeId reply.nodeId ++
    (encodeBoot reply.nodeBoot ++ (statsFields reply.stats reply.state).flatMap Encoder.u64)

/-- Read `count` numbers one after the other. -/
def readFields : (count : Nat) → Decoder (List UInt64)
  | 0 => return []
  | count + 1 => do
      let field ← Decoder.u64
      let fields ← readFields count
      return field :: fields

def decodeStatsReply (payload : Bytes) (limits : Limits) : Result StatsReply :=
  Decoder.run (do
    let nodeId ← Decoder.id limits
    let nodeBoot ← decodeBoot
    let fields ← readFields statsFieldCount
    return { stats := fabricStatsOf fields, state := stateStatsOf fields, nodeBoot, nodeId })
    payload

theorem readsIff_readFields (fields : List UInt64) :
    ReadsIff (readFields fields.length) (fields.flatMap Encoder.u64) fields True := by
  induction fields with
  | nil => exact ReadsIff.pure []
  | cons field fields ih =>
      rw [List.flatMap_cons]
      refine ReadsIff.bind_true (readsIff_u64 field) ?_
      exact ReadsIff.congr (ReadsIff.bind_last ih fun _ => ReadsIff.pure _) (by simp)

theorem decodeStatsReply_encode {limits : Limits} {reply : StatsReply}
    (hnode : IdReadable limits reply.nodeId) :
    decodeStatsReply (encodeStatsReply reply) limits = .ok reply := by
  refine run_of_readsIff (ReadsIff.bind_true (reads_id hnode) <|
    ReadsIff.bind_true (readsIff_decodeBoot _) <|
    ReadsIff.bind_last (readsIff_readFields (statsFields reply.stats reply.state)) fun _ =>
    ReadsIff.pure_of_eq ?_) ⟨trivial, trivial⟩
  rfl

def maxReplyText : Nat := 1024

def Health.toNat : Health → Nat
  | .healthy => 0
  | .degraded => 1

def Health.ofNat? (n : Nat) : Option Health := [Health.healthy, Health.degraded][n]?

/-- The report as its counters hold it: they are 64 bits wide, and the detail is bounded. -/
def storedReport (report : IntegrityReport) : IntegrityReport :=
  { report with
    recordsScanned := (UInt64.ofNat report.recordsScanned).toNat
    recordsApplied := (UInt64.ofNat report.recordsApplied).toNat
    recordsRejected := (UInt64.ofNat report.recordsRejected).toNat
    unfinishedAttempts := (UInt64.ofNat report.unfinishedAttempts).toNat
    trailingBytesDiscarded := (UInt64.ofNat report.trailingBytesDiscarded).toNat
    detail := boundText report.detail maxReplyText }

def encodeIntegrityReply (report : IntegrityReport) : Bytes :=
  Encoder.boolean report.ok ++
    (Encoder.u8 (Health.toNat report.health) ++
    (Encoder.u64 (UInt64.ofNat report.recordsScanned) ++
    (Encoder.u64 (UInt64.ofNat report.recordsApplied) ++
    (Encoder.u64 (UInt64.ofNat report.recordsRejected) ++
    (Encoder.u64 (UInt64.ofNat report.unfinishedAttempts) ++
    (Encoder.u64 (UInt64.ofNat report.trailingBytesDiscarded) ++
    (Encoder.str (boundText report.detail maxReplyText) ++
    (encodeDigest report.stateDigest ++
    (Encoder.u64 report.stateGeneration.value ++
    Encoder.u64 report.epoch.value)))))))))

def decodeHealth : Decoder Health := do
  let value ← Decoder.u8
  match Health.ofNat? value with
  | some health => return health
  | none => refuse (makeError .protocolError (text "integrity reply carries an unknown health"))

def decodeIntegrityReply (payload : Bytes) : Result IntegrityReport :=
  Decoder.run (do
    let ok ← Decoder.boolean
    let health ← decodeHealth
    let scanned ← Decoder.u64
    let applied ← Decoder.u64
    let rejected ← Decoder.u64
    let unfinished ← Decoder.u64
    let discarded ← Decoder.u64
    let detail ← Decoder.str maxReplyText
    let stateDigest ← decodeDigest
    let generation ← Decoder.u64
    let epoch ← Decoder.u64
    return { ok, health, recordsScanned := scanned.toNat, recordsApplied := applied.toNat,
             recordsRejected := rejected.toNat, unfinishedAttempts := unfinished.toNat,
             trailingBytesDiscarded := discarded.toNat, detail, stateDigest,
             stateGeneration := ⟨generation⟩, epoch := ⟨epoch⟩ }) payload

theorem readsIff_decodeHealth (health : Health) :
    ReadsIff decodeHealth (Encoder.u8 (Health.toNat health)) health True := by
  have hbyte : Health.toNat health < 256 := by cases health <;> decide
  unfold decodeHealth
  refine ReadsIff.congr (ReadsIff.bind_last (D := True) (readsIff_u8 hbyte) fun _ => ?_)
    (by simp)
  cases health <;> exact ReadsIff.pure _

theorem readsIff_boundText (s : Bytes) (bound : Nat) (hbound : bound < 2 ^ 32) :
    ReadsIff (Decoder.str bound) (Encoder.str (boundText s bound)) (boundText s bound) True :=
  reads_str (length_boundText_le s bound) hbound

theorem decodeIntegrityReply_encode (report : IntegrityReport) :
    decodeIntegrityReply (encodeIntegrityReply report) = .ok (storedReport report) := by
  refine run_of_readsIff (ReadsIff.bind_true (readsIff_boolean _) <|
    ReadsIff.bind_true (readsIff_decodeHealth _) <|
    ReadsIff.bind_true (readsIff_u64 _) <|
    ReadsIff.bind_true (readsIff_u64 _) <|
    ReadsIff.bind_true (readsIff_u64 _) <|
    ReadsIff.bind_true (readsIff_u64 _) <|
    ReadsIff.bind_true (readsIff_u64 _) <|
    ReadsIff.bind_true (readsIff_boundText _ _ (by decide)) <|
    ReadsIff.bind_true (readsIff_decodeDigest _) <|
    ReadsIff.bind_true (readsIff_u64 _) <|
    ReadsIff.bind_last (readsIff_u64 _) fun _ => ReadsIff.pure_of_eq rfl) ⟨trivial, trivial⟩

/-- A status on the wire; the client builds the same status from it. -/
def encodeErrorReply (status : Status) : Bytes :=
  Encoder.u16 status.code.toNat ++ Encoder.str (boundText status.message maxReplyText)

def decodeReplyCode : Decoder StatusCode := do
  let value ← Decoder.u16
  match StatusCode.ofNat? value with
  | some code => return code
  | none => refuse (makeError .protocolError
      (text "error reply carries an undefined status code"))

/-- The error a node reports; the code may be any that is defined. -/
structure ErrorReply where
  code : StatusCode
  message : Bytes

def decodeErrorReply (payload : Bytes) : Result ErrorReply :=
  Decoder.run (do
    let code ← decodeReplyCode
    let message ← Decoder.str maxReplyText
    return { code, message }) payload

theorem readsIff_decodeReplyCode (code : StatusCode) :
    ReadsIff decodeReplyCode (Encoder.u16 code.toNat) code True := by
  have hcode : code.toNat < 65536 := lt_trans (StatusCode.toNat_lt code) (by norm_num)
  unfold decodeReplyCode
  refine ReadsIff.congr (ReadsIff.bind_last (D := True) (Decoder.readsIff_u16 hcode) fun _ => ?_)
    (by simp)
  simp only [StatusCode.ofNat?_toNat]
  exact ReadsIff.pure _

theorem boundText_of_le {s : Bytes} {limit : Nat} (h : s.length ≤ limit) :
    boundText s limit = s := by
  rw [boundText, if_pos h]

theorem makeError_message (status : Status) :
    makeError status.code status.message status.failed = status := by
  obtain ⟨code, hfailed, message, hbounded⟩ := status
  simp only [makeError, boundText_of_le hbounded]

theorem decodeErrorReply_encode (status : Status) :
    decodeErrorReply (encodeErrorReply status) = .ok ⟨status.code, status.message⟩ := by
  have hmessage : boundText status.message maxReplyText = status.message :=
    boundText_of_le status.bounded
  rw [encodeErrorReply, hmessage]
  refine run_of_readsIff (ReadsIff.bind_true (readsIff_decodeReplyCode _) <|
    ReadsIff.bind_last (reads_str status.bounded (by decide)) fun _ =>
    ReadsIff.pure_of_eq rfl) ⟨trivial, trivial⟩

def encodeGeneration (generation : Generation) : Bytes := Encoder.u64 generation.value

def decodeGeneration (payload : Bytes) : Result Generation :=
  Decoder.run (do return ⟨← Decoder.u64⟩) payload

def encodeEpoch (epoch : FabricEpoch) : Bytes := Encoder.u64 epoch.value

def decodeEpoch (payload : Bytes) : Result FabricEpoch :=
  Decoder.run (do return ⟨← Decoder.u64⟩) payload

theorem decodeGeneration_encode (generation : Generation) :
    decodeGeneration (encodeGeneration generation) = .ok generation :=
  run_of_readsIff (ReadsIff.map (f := Generation.mk) (readsIff_u64 generation.value)) trivial

theorem decodeEpoch_encode (epoch : FabricEpoch) :
    decodeEpoch (encodeEpoch epoch) = .ok epoch :=
  run_of_readsIff (ReadsIff.map (f := FabricEpoch.mk) (readsIff_u64 epoch.value)) trivial

def encodeHelloResponse (response : HelloResponse) : Bytes :=
  encodeId response.nodeId ++
    (encodeBoot response.nodeBoot ++
    (Encoder.u64 response.epoch.value ++
    (Encoder.u64 response.token.value ++
    (Encoder.u64 response.stateGeneration.value ++
    Encoder.u64 response.nodePid))))

def decodeHelloResponse (payload : Bytes) (limits : Limits) : Result HelloResponse :=
  Decoder.run (do
    let nodeId ← Decoder.id limits
    let nodeBoot ← decodeBoot
    let epoch ← Decoder.u64
    let token ← Decoder.u64
    let generation ← Decoder.u64
    let nodePid ← Decoder.u64
    return { nodeId, nodeBoot, epoch := ⟨epoch⟩, token := ⟨token⟩,
             stateGeneration := ⟨generation⟩, nodePid }) payload

theorem decodeHelloResponse_encode {limits : Limits} {response : HelloResponse}
    (hnode : IdReadable limits response.nodeId) :
    decodeHelloResponse (encodeHelloResponse response) limits = .ok response :=
  run_of_readsIff (ReadsIff.bind_true (reads_id hnode) <|
    ReadsIff.bind_true (readsIff_decodeBoot _) <|
    ReadsIff.bind_true (readsIff_u64 _) <|
    ReadsIff.bind_true (readsIff_u64 _) <|
    ReadsIff.bind_true (readsIff_u64 _) <|
    ReadsIff.bind_last (readsIff_u64 _) fun _ => ReadsIff.pure_of_eq rfl) ⟨trivial, trivial⟩

def encodeAuditReply (entries : List AuditEntry) : Bytes :=
  Encoder.u32 entries.length ++ entries.flatMap fun entry => Encoder.str (encodeAuditEntry entry)

/-- The payload of a reply.  A statistics reply is made from the node and its counters. -/
def encodeReply (node : FabricNode) (stats : FabricStats) : Reply → Bytes
  | .hello response => encodeHelloResponse response
  | .generation generation => encodeGeneration generation
  | .epoch epoch => encodeEpoch epoch
  | .decision decision => encodeDecision decision
  | .stats => encodeStatsReply
      { stats, state := stateStats node.runtime, nodeBoot := node.nodeBoot, nodeId := node.nodeId }
  | .integrity report => encodeIntegrityReply report
  | .audit entries => encodeAuditReply entries
  | .empty => []

/-- The frame a request is answered with: the reply, or the error. -/
def replyMessage (node : FabricNode) (stats : FabricStats) (requestId : UInt64) :
    Result Reply → Message
  | .ok reply => ⟨Op.response.code, requestId, encodeReply node stats reply⟩
  | .error e => ⟨Op.error.code, requestId, encodeErrorReply e⟩

end PriorityFabric.Replies
