import Dtn.Impl.Bp7.AdministrativeRecord
import Dtn.Proof.Bp7.RoundTrip

/-!
# Decoding an administrative record undoes encoding it

The arrays of a status report are as long as what is in them: an item has a
second element if it is asserted with a time, and a report has a fifth and a
sixth one if it is about a fragment. `BundleStatusReport.Plain` are the reports
that this form can say everything about, and these are read back
(`tryFrom_toVec_record`).
-/

namespace Dtn.Bp7

open Dtn.Cbor Seq

variable {d : Nat} {r : BundleStatusReport}

lemma reads_bool (b : Bool) : (Cbor.bool d).Reads (encBool b) b := fun r => by
  cases b <;> cases d <;> rfl

lemma reads_dtnTime (t : DtnTime) : (DtnTime.deserialize d).Reads t.serialize t :=
  (reads_u64 t.timestamp).bind_nil (.pure _)

lemma reads_next {α : Type} {p : Decoder α} {a : α} (h : (p d).Reads w a) (n : Nat) :
    ((definite d (n + 1)).next p).Reads w (some a, .definite d n) := fun r => by
  rw [next_definite_succ, h r, Outcome.ok_bind]

/-! ## Status items -/

/-- Only an asserted item has a time. -/
def BundleStatusItem.Plain (i : BundleStatusItem) : Prop := i.timestamp.isSome = true → i.isAsserted = true

lemma reads_statusItem {i : BundleStatusItem} (h : i.Plain) :
    (BundleStatusItem.deserialize (d + 1)).Reads i.serialize i := by
  obtain ⟨asserted, timestamp⟩ := i
  cases timestamp with
  | none =>
    have hread : (BundleStatusItem.visitSeq (.definite d 1)).Reads (encBool asserted)
        (⟨asserted, none⟩, .definite d 0) := by
      have hnone : BundleStatusItem.timestampField 1 asserted (.definite d 0) = pure (none, .definite d 0) :=
        if_neg (by simp)
      refine (reads_field (reads_bool asserted) _ 0).bind_nil ?_
      dsimp only
      rw [hnone]
      exact (Parser.Reads.pure _).bind_nil (.pure _)
    cases asserted <;> exact reads_seq (by decide) hread
  | some t =>
    obtain rfl : asserted = true := h rfl
    refine reads_seq (by decide) ((reads_field (reads_bool true) _ 1).bind ?_)
    exact (reads_next (reads_dtnTime t) 0).bind_nil (.pure _)

lemma reads_statusReason (reason : BundleStatusReason) :
    (BundleStatusReason.deserialize d).Reads (encU64 reason.toU64) reason := by
  have htry : BundleStatusReason.tryFrom reason.toU64 = some reason := by cases reason <;> rfl
  refine (reads_u64 reason.toU64).bind_nil ?_
  rw [htry]
  exact .pure _

structure BundleStatusInformation.Plain (i : BundleStatusInformation) : Prop where
  receivedBundle : i.receivedBundle.Plain
  forwardedBundle : i.forwardedBundle.Plain
  deliveredBundle : i.deliveredBundle.Plain
  deletedBundle : i.deletedBundle.Plain

lemma reads_statusInformation (h : i.Plain) : (BundleStatusInformation.deserialize (d + 2)).Reads i.serialize i := by
  refine reads_seq (by decide) ?_
  refine (reads_field (reads_statusItem h.receivedBundle) _ 3).bind ?_
  refine (reads_field (reads_statusItem h.forwardedBundle) _ 2).bind ?_
  refine (reads_field (reads_statusItem h.deliveredBundle) _ 1).bind ?_
  exact (reads_field (reads_statusItem h.deletedBundle) _ 0).bind_nil (.pure _)

/-! ## Status reports -/

/-- A report that its encoding leaves nothing out of. -/
structure BundleStatusReport.Plain (r : BundleStatusReport) : Prop where
  items : r.statusInformation.Plain
  fragment : r.fragmentOffset.isSome = r.fragmentLength.isSome

/-- The fields of a report, before those of a fragment. -/
def BundleStatusReport.fields (r : BundleStatusReport) : List UInt8 :=
  r.statusInformation.serialize ++ (encU64 r.reason.toU64 ++ (r.bundleSource.serialize ++
    r.bundleCreationTimestamp.serialize))

/-- Whatever the decoder of the fragment's fields reads behind the others. -/
lemma reads_reportFields (S : Serde) (h : r.Plain) (hsource : r.bundleSource.serialize.length < 2 ^ 64)
    (hk : k = 0 ∨ k = 2) (hfragment : (BundleStatusReport.fragmentFields (k + 4) (.definite (d + 2) k)).Reads w
      ((r.fragmentOffset, r.fragmentLength), .definite (d + 2) 0)) :
    (BundleStatusReport.visitSeq S (.definite (d + 2) (k + 4))).Reads (r.fields ++ w) (r, .definite (d + 2) 0) := by
  have hlength : ¬ (k + 4 ≠ 4 ∧ k + 4 ≠ 6) := by omega
  simp only [BundleStatusReport.visitSeq, sizeHint, hlength, if_false,
    BundleStatusReport.fields, List.append_assoc]
  refine (reads_field (reads_statusInformation h.items) _ (k + 3)).bind ?_
  refine (reads_field (reads_statusReason r.reason) _ (k + 2)).bind ?_
  refine (reads_field (reads_endpoint S hsource) _ (k + 1)).bind ?_
  refine (reads_field (reads_creationTimestamp r.bundleCreationTimestamp) _ k).bind ?_
  exact hfragment.bind_nil (.pure _)

lemma BundleStatusReport.serialize_none (h : r.fragmentOffset = none) : r.serialize = head 4 4 ++ r.fields := by
  simp only [serialize, h, fields]

lemma BundleStatusReport.serialize_some (ho : r.fragmentOffset = some offset) (hl : r.fragmentLength = some length) :
    r.serialize = head 4 6 ++ (r.fields ++ (encU64 offset ++ encU64 length)) := by
  simp only [serialize, ho, hl, fields]

lemma reads_report (S : Serde) (h : r.Plain)
    (hsource : r.bundleSource.serialize.length < 2 ^ 64) :
    (BundleStatusReport.deserialize S (d + 3)).Reads r.serialize r := by
  cases ho : r.fragmentOffset with
  | none =>
    have hl : r.fragmentLength = none := by simpa [ho] using h.fragment
    have hfragment : (BundleStatusReport.fragmentFields 4 (.definite (d + 2) 0)).Reads []
        ((r.fragmentOffset, r.fragmentLength), .definite (d + 2) 0) := by rw [ho, hl]; exact .pure _
    have hread := reads_seq (by decide) (reads_reportFields S h hsource (.inl rfl) hfragment)
    rw [List.append_nil] at hread
    rw [BundleStatusReport.serialize_none ho]
    exact hread
  | some offset =>
    obtain ⟨length, hl⟩ := Option.isSome_iff_exists.mp (h.fragment.symm.trans (by rw [ho]; rfl))
    have hfragment : (BundleStatusReport.fragmentFields 6 (.definite (d + 2) 2)).Reads (encU64 offset ++ encU64 length)
        ((r.fragmentOffset, r.fragmentLength), .definite (d + 2) 0) := by
      rw [ho, hl]
      exact (reads_field (reads_u64 offset) _ 1).bind ((reads_field (reads_u64 length) _ 0).bind_nil (.pure _))
    rw [BundleStatusReport.serialize_some ho hl]
    exact reads_seq (by decide) (reads_reportFields S h hsource (.inr rfl) hfragment)

/-! ## Records -/

lemma reads_record (S : Serde) (h : r.Plain) (hsource : r.bundleSource.serialize.length < 2 ^ 64) :
    (AdministrativeRecord.deserialize S (d + 4)).Reads (AdministrativeRecord.bundleStatusReport r).toVec
      (.bundleStatusReport r) := by
  have htype : (AdministrativeRecord.typeNumber (d + 3)).Reads (encU64 1) () := (reads_u64 1).bind_nil (.pure _)
  refine reads_seq (by decide) ((reads_field htype _ 1).bind ?_)
  exact (reads_field (reads_report S h hsource) _ 0).bind_nil (.pure _)

lemma length_bundleSource_le (r : BundleStatusReport) :
    r.bundleSource.serialize.length ≤ (AdministrativeRecord.bundleStatusReport r).toVec.length := by
  have hfields : r.bundleSource.serialize.length ≤ r.fields.length := by
    simp only [BundleStatusReport.fields, List.length_append]
    omega
  have hreport : r.fields.length ≤ r.serialize.length := by
    grind [BundleStatusReport.serialize, BundleStatusReport.fields]
  simp only [AdministrativeRecord.toVec, List.length_append]
  omega

/-- A status report whose times are those of asserted items, with both or none of the numbers of a
fragment, is decoded to what it was, if its encoding fits into memory. -/
theorem tryFrom_toVec_record (S : Serde) {r : BundleStatusReport}
    (hitems : ∀ i ∈ [r.statusInformation.receivedBundle, r.statusInformation.forwardedBundle,
      r.statusInformation.deliveredBundle, r.statusInformation.deletedBundle],
      i.timestamp.isSome = true → i.isAsserted = true) (hfragment : r.fragmentOffset.isSome = r.fragmentLength.isSome)
    (hfit : FitsInMemory (AdministrativeRecord.bundleStatusReport r).toVec) :
    AdministrativeRecord.tryFrom S (AdministrativeRecord.bundleStatusReport r).toVec = .ok (.bundleStatusReport r) := by
  simp only [List.forall_mem_cons] at hitems
  obtain ⟨h1, h2, h3, h4, -⟩ := hitems
  have hsource : r.bundleSource.serialize.length < 2 ^ 64 :=
    (length_bundleSource_le r).trans_lt (hfit.trans_lt (by decide))
  have hread := reads_record (d := 123) S ⟨⟨h1, h2, h3, h4⟩, hfragment⟩ hsource
  rw [AdministrativeRecord.tryFrom, fromSlice_of_reads hread]
  rfl

/-- A report about a fragment from an `ipn` endpoint, with an asserted item that has a time and one that has none. -/
def sampleReport : BundleStatusReport where
  statusInformation := ⟨⟨true, some ⟨123456789⟩⟩, ⟨false, none⟩, ⟨true, none⟩, ⟨false, none⟩⟩
  reason := .hopLimitExceeded
  bundleSource := .ipn ⟨7, 2⟩
  bundleCreationTimestamp := ⟨⟨5⟩, 6⟩
  fragmentOffset := some 1000
  fragmentLength := some 24

theorem tryFrom_toVec_sampleReport :
    AdministrativeRecord.tryFrom .plain (AdministrativeRecord.bundleStatusReport sampleReport).toVec =
      .ok (.bundleStatusReport sampleReport) :=
  tryFrom_toVec_record .plain (by decide) rfl (by unfold FitsInMemory; decide +kernel)

end Dtn.Bp7
