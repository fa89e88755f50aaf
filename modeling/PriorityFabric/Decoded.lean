import PriorityFabric.Lib.ReaderResults
import PriorityFabric.StateRoundTrip

/-!
Every image the decoder accepts is within its bounds.
-/

namespace PriorityFabric.Decoded

open PriorityFabric.Lib.LittleEndian
open PriorityFabric.Lib.ByteReader
open PriorityFabric.Lib.KeyedTable
open PriorityFabric.Lib.ReaderResults
open PriorityFabric.Basics
open PriorityFabric.Ident
open PriorityFabric.Hashing
open PriorityFabric.Model
open PriorityFabric.Codec
open PriorityFabric.ModelCodec
open PriorityFabric.State
open PriorityFabric.StateCodec
open PriorityFabric.Bounds

variable {limits : Limits}

theorem yields_str (bound : Nat) : Yields (Decoder.str bound) fun s => s.length ≤ bound := by
  refine Yields.any fun length => Yields.bind (Yields.refuseIf _ _) fun _ hlength => ?_
  have hraw : Yields (Decoder.raw length) fun s => s.length = length := by
    unfold Decoder.raw Decoder.take
    exact Yields.takeBytes length _
  intro input s rest h
  rw [hraw input s rest h]
  simpa using hlength

theorem yields_blob {α : Type} {bound : Nat} {decode : Bytes → Result α} {Q : α → Prop}
    (h : ∀ payload a, decode payload = .ok a → Q a) : Yields (Decoder.blob bound decode) Q := by
  refine Yields.any fun payload => ?_
  intro input a rest hread
  cases hdecode : decode payload with
  | error e =>
      rw [hdecode] at hread
      cases hread
  | ok found =>
      rw [hdecode] at hread
      cases hread
      exact h payload a hdecode

theorem of_run {α : Type} {dec : Decoder α} {Q : α → Prop} (h : Yields dec Q) {payload : Bytes}
    {a : α} (hrun : Decoder.run dec payload = .ok a) : Q a :=
  Yields.readAll (Yields.bind h fun _ ha => Yields.any fun _ => Yields.pure ha) hrun

theorem yields_decodeIdList {tag : IdTag} (maxEntries : Nat) :
    Yields (decodeIdList limits maxEntries : Decoder (List (BasicId tag)))
      fun ids => ids.length ≤ maxEntries := by
  refine Yields.any fun count => Yields.bind (Yields.refuseIf _ _) fun _ hcount => ?_
  have hstep : ∀ n (out : List (BasicId tag)), out.length = n → Yields (do
      let id ← Decoder.id limits
      return out ++ [id]) fun out => out.length = n + 1 := by
    intro n out hn
    exact Yields.any fun id => Yields.pure (by simp [hn])
  intro input ids rest h
  have hlength := Yields.fold hstep count 0 [] rfl input ids rest h
  rw [hlength, Nat.zero_add]
  simpa using hcount

theorem yields_decodePrecedence : Yields decodePrecedence RankFits := by
  refine Yields.any fun assigned => Yields.any fun value => ?_
  split
  · refine Yields.pure ⟨?_, rfl⟩
    intro hdeclared
    cases hdeclared
  · refine Yields.bind (Yields.refuseIf _ _) fun _ hvalue => Yields.pure ⟨?_, rfl⟩
    intro _
    rw [decide_eq_false_iff_not] at hvalue
    simp only [PrecedenceRank.make, UInt32.toNat_ofNat']
    exact (Nat.mod_le _ _).trans (by omega)

theorem yields_decodeProvenance : Yields (decodeProvenance limits) ProvenanceFits :=
  Yields.any fun _ => Yields.any fun _ => Yields.any fun _ => Yields.any fun _ =>
    Yields.any fun _ => Yields.any fun _ => Yields.any fun _ =>
    Yields.bind (yields_str _) fun _ hop => Yields.pure hop

theorem yields_decodeProvenanceBlob :
    Yields (decodeProvenanceBlob limits) ProvenanceFits :=
  yields_blob fun _ _ hread => yields_decodeProvenance.readAll hread

theorem yields_decodeEntry {Def : Type} {decode : Bytes → Limits → Result Def}
    {Q : Def → Prop} (h : ∀ payload d, decode payload limits = .ok d → Q d) :
    Yields (decodeEntry limits decode)
      fun entry => Q entry.definition ∧ ProvenanceFits entry.provenance :=
  Yields.bind (yields_blob h) fun _ hdefinition =>
    Yields.bind yields_decodeProvenanceBlob fun _ hprovenance =>
      Yields.pure ⟨hdefinition, hprovenance⟩

theorem yields_classEntry :
    Yields (decodeEntry limits decodeClassDefinition) (ClassFits limits) := by
  have hread : Yields (readClassDefinition limits) fun d => RankFits d.precedence ∧
      d.inheritsFrom.length ≤ limits.maxInheritsFrom ∧
      d.description.length ≤ limits.maxDescriptionLength :=
    Yields.any fun _ => Yields.any fun _ => Yields.bind yields_decodePrecedence fun _ hrank =>
      Yields.any fun _ => Yields.bind (yields_decodeIdList _) fun _ hparents =>
      Yields.bind (yields_str _) fun _ hdescription => Yields.any fun _ =>
      Yields.pure ⟨hrank, hparents, hdescription⟩
  intro input entry rest h
  obtain ⟨⟨hrank, hparents, hdescription⟩, hprovenance⟩ :=
    yields_decodeEntry (fun _ _ => of_run hread) input entry rest h
  exact ⟨hrank, hdescription, hparents, hprovenance⟩

theorem yields_scopeEntry :
    Yields (decodeEntry limits decodeScopeDefinition) (ScopeFits limits) := by
  have hread : Yields (readScopeDefinition limits) fun d =>
      d.description.length ≤ limits.maxDescriptionLength :=
    Yields.any fun _ => Yields.any fun _ => Yields.any fun _ => Yields.any fun _ =>
      Yields.any fun _ => Yields.any fun _ => Yields.bind (yields_str _) fun _ hdescription =>
      Yields.pure hdescription
  intro input entry rest h
  obtain ⟨hdescription, hprovenance⟩ :=
    yields_decodeEntry (fun _ _ => of_run hread) input entry rest h
  exact ⟨hdescription, hprovenance⟩

theorem yields_policyEntry :
    Yields (decodeEntry limits decodePolicyDefinition) (PolicyFits limits) := by
  have hread : Yields (readPolicyDefinition limits) fun d =>
      d.visibleClasses.length ≤ limits.maxPolicyClasses ∧
        d.description.length ≤ limits.maxDescriptionLength :=
    Yields.any fun _ => Yields.any fun _ => Yields.any fun _ => Yields.any fun _ =>
      Yields.bind (yields_decodeIdList _) fun _ hvisible => Yields.any fun _ =>
      Yields.any fun _ => Yields.any fun _ => Yields.bind (yields_str _) fun _ hdescription =>
      Yields.pure ⟨hvisible, hdescription⟩
  intro input entry rest h
  obtain ⟨⟨hvisible, hdescription⟩, hprovenance⟩ :=
    yields_decodeEntry (fun _ _ => of_run hread) input entry rest h
  exact ⟨hdescription, hvisible, hprovenance⟩

theorem yields_subjectEntry :
    Yields (decodeEntry limits decodeSubjectDefinition) (SubjectFits limits) := by
  have hread : Yields (readSubjectDefinition limits) fun d =>
      d.inheritsFrom.length ≤ limits.maxInheritsFrom ∧
        d.description.length ≤ limits.maxDescriptionLength :=
    Yields.any fun _ => Yields.any fun _ => Yields.bind (yields_decodeIdList _) fun _ hparents =>
      Yields.bind (yields_str _) fun _ hdescription => Yields.pure ⟨hparents, hdescription⟩
  intro input entry rest h
  obtain ⟨⟨hparents, hdescription⟩, hprovenance⟩ :=
    yields_decodeEntry (fun _ _ => of_run hread) input entry rest h
  exact ⟨hdescription, hparents, hprovenance⟩

theorem yields_assignmentEntry :
    Yields (decodeAssignmentEntry limits) (AssignmentFits limits) := by
  have hread : Yields (readAssignment limits) fun d => d.note.length ≤ limits.maxNoteLength :=
    Yields.any fun _ => Yields.any fun _ => Yields.any fun _ => Yields.any fun _ =>
      Yields.any fun _ => Yields.any fun _ => Yields.any fun _ => Yields.any fun _ =>
      Yields.any fun _ => Yields.any fun _ => Yields.any fun _ => Yields.any fun _ =>
      Yields.bind (yields_str _) fun _ hnote => Yields.pure hnote
  exact Yields.bind (yields_blob fun _ _ => of_run hread) fun _ hnote =>
    Yields.bind yields_decodeProvenanceBlob fun _ hprovenance => Yields.any fun _ =>
    Yields.bind (yields_str _) fun _ hreason =>
    Yields.bind yields_decodeProvenanceBlob fun _ hretired =>
    Yields.pure ⟨hnote, hreason, hprovenance, hretired⟩

theorem yields_authorityEntry : Yields (decodeAuthorityEntry limits) AuthorityFits :=
  Yields.any fun _ => Yields.any fun _ => Yields.any fun _ => Yields.any fun _ =>
    Yields.any fun _ => Yields.bind yields_decodeProvenanceBlob fun _ hprovenance =>
    Yields.pure hprovenance

theorem yields_decodeAuditEntry : Yields decodeAuditEntry AuditFits :=
  Yields.any fun _ => Yields.bind (yields_str _) fun _ hop => Yields.any fun _ =>
    Yields.any fun _ =>
    Yields.bind (yields_blob fun _ _ => yields_decodeProvenance.readAll) fun _ hprovenance =>
    Yields.any fun _ => Yields.any fun _ => Yields.pure ⟨hop, hprovenance⟩

theorem yields_readEntityCount (bound : Nat) (what : Bytes) :
    Yields (readEntityCount bound what) fun count => count ≤ bound :=
  Yields.any fun _ => Yields.bind (Yields.refuseIf _ _) fun _ hcount =>
    Yields.pure (by simpa using hcount)

section Tables

variable {K V : Type} [Ord K] [Std.TransOrd K] [Std.LawfulEqOrd K] {key : V → K}
  {good : V → Prop} {table : Std.ExtTreeMap K V}

omit [Std.LawfulEqOrd K] in
theorem size_insertIfNew_le (k : K) (v : V) {n : Nat} (h : table.size ≤ n) :
    (table.insertIfNew k v).size ≤ n + 1 := by
  rw [Std.ExtTreeMap.size_insertIfNew]
  split <;> omega

theorem yields_decodeMap {bound : Nat} {what : Bytes} {decode : Decoder V}
    (hread : Yields decode good) :
    Yields (decodeMap bound what decode key)
      fun table => Keyed key good table ∧ table.size ≤ bound := by
  have hstep : ∀ n (table : Std.ExtTreeMap K V), (Keyed key good table ∧ table.size ≤ n) →
      Yields (do
        let entry ← decode
        return table.insertIfNew (key entry) entry)
        fun table => Keyed key good table ∧ table.size ≤ n + 1 := by
    rintro n table ⟨hkeyed, hsize⟩
    exact Yields.bind hread fun entry hentry =>
      Yields.pure ⟨hkeyed.insertIfNew hentry, size_insertIfNew_le _ _ hsize⟩
  refine Yields.bind (yields_readEntityCount bound what) fun count hcount => ?_
  intro input table rest h
  obtain ⟨hkeyed, hsize⟩ := Yields.fold hstep count 0 ∅ ⟨Keyed.empty, by simp⟩ input table rest h
  exact ⟨hkeyed, by omega⟩

end Tables

theorem yields_decodeAuthority :
    Yields (decodeAuthority limits) fun table => Keyed AuthorityEntry.key AuthorityFits table := by
  have hstep : ∀ (_ : Nat) (table : Std.ExtTreeMap Incarnation AuthorityEntry),
      Keyed AuthorityEntry.key AuthorityFits table → Yields (do
        let entry ← decodeAuthorityEntry limits
        refuseIf (table.size ≥ limits.maxPublishers * limits.maxBootsPerPublisher % 2 ^ 32)
          (makeError .limitExceeded
            (text "state image holds more authority records than the limit allows"))
        return table.insertIfNew ⟨entry.publisher, entry.boot⟩ entry)
        fun table => Keyed AuthorityEntry.key AuthorityFits table := by
    intro _ table hkeyed
    exact Yields.bind yields_authorityEntry fun entry hentry => Yields.any fun _ =>
      Yields.pure (hkeyed.insertIfNew hentry)
  refine Yields.any fun count => ?_
  exact Yields.fold hstep count 0 ∅ Keyed.empty

theorem yields_decodeAudit :
    Yields (decodeAudit limits) fun audit => audit.length ≤ limits.maxAuditEntries ∧
      ∀ entry ∈ audit, AuditFits entry := by
  have hstep : ∀ n (audit : List AuditEntry),
      (audit.length = n ∧ ∀ entry ∈ audit, AuditFits entry) → Yields (do
        let entry ← Decoder.blob limits.maxRecordPayload (Decoder.run decodeAuditEntry)
        return audit ++ [entry])
        fun audit => audit.length = n + 1 ∧ ∀ entry ∈ audit, AuditFits entry := by
    rintro n audit ⟨hlength, hfits⟩
    refine Yields.bind (yields_blob fun _ _ => of_run yields_decodeAuditEntry) fun entry hentry =>
      Yields.pure ⟨by simp [hlength], ?_⟩
    intro found hfound
    rcases List.mem_append.mp hfound with hold | hlast
    · exact hfits found hold
    · obtain rfl := List.mem_singleton.mp hlast
      exact hentry
  refine Yields.bind (yields_readEntityCount _ _) fun count hcount => ?_
  intro input audit rest h
  obtain ⟨hlength, hfits⟩ := Yields.fold hstep count 0 [] ⟨rfl, by simp⟩ input audit rest h
  exact ⟨by omega, hfits⟩

theorem yields_readState :
    Yields (readState limits) fun image => Bounded image ∧ image.limits = limits := by
  refine Yields.any fun _ => Yields.any fun _ => Yields.any fun _ => Yields.any fun _ =>
    Yields.any fun _ => Yields.any fun _ => Yields.any fun _ => Yields.any fun _ =>
    Yields.any fun _ => Yields.any fun _ => Yields.any fun _ =>
    Yields.bind (yields_decodeMap yields_classEntry) fun _ hclasses =>
    Yields.bind (yields_decodeMap yields_scopeEntry) fun _ hscopes =>
    Yields.bind (yields_decodeMap yields_policyEntry) fun _ hpolicies =>
    Yields.bind (yields_decodeMap yields_subjectEntry) fun _ hsubjects =>
    Yields.bind (yields_decodeMap yields_assignmentEntry) fun _ hassignments =>
    Yields.bind yields_decodeAuthority fun _ hauthority =>
    Yields.bind yields_decodeAudit fun _ haudit => Yields.pure ?_
  refine ⟨⟨⟨hclasses.1, hscopes.1, hpolicies.1, hsubjects.1, hassignments.1, hauthority⟩,
    ⟨hclasses.2, hscopes.2, hpolicies.2, hsubjects.2, hassignments.2, haudit.1⟩, haudit.2⟩, rfl⟩

theorem bounded_of_decodeState {payload : Bytes} {image : StateImage}
    (h : decodeState payload limits = .ok image) : Bounded image ∧ image.limits = limits := by
  unfold decodeState at h
  cases hrun : Decoder.run (readState limits) payload with
  | error e =>
      rw [hrun] at h
      cases h
  | ok found =>
      rw [hrun] at h
      cases h
      obtain ⟨hbounded, hlimits⟩ := of_run yields_readState hrun
      exact ⟨⟨{ hbounded.tables with }, { hbounded.sizes with }, hbounded.audit⟩, hlimits⟩

end PriorityFabric.Decoded
