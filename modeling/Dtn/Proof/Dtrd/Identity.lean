import Dtn.Framework.Stamps
import Dtn.Proof.Dtrd.Entries

/-!
# The identity of new bundles

A new bundle is identified by its creation time and the sequence number that
the storage agent gives it. The agent remembers the last creation time only, so
it is a generator of the kind of `stamps` (`assigned_eq`), and two bundles get the
same pair if their equal creation times do not arrive one after another
(`timestamps_distinct_iff`).
-/

namespace Dtn.Dtrd.Storage

open Outcome Dtn.Bp7

variable {S : Serde}

/-- The creation time that a new bundle comes with. -/
def Message.creationTime (S : Serde) : Message → Option DtnTime
  | .storeNewBundle bs =>
    match Bundle.tryFrom S bs with
    | .ok b => some b.primaryBlock.creationTimestamp.creationTime
    | _ => none
  | _ => none

/-- The timestamp of the bundle that a message stored as a new one: it is the last one then. -/
def Message.assigned (d : Daemon) : Message → Option CreationTimestamp
  | .storeNewBundle _ => d.bundles.getLast?.map (·.primaryBlock.creationTimestamp)
  | _ => none

/-- The timestamps of the new bundles, in the order of the messages. -/
def Daemon.assigned (S : Serde) (d : Daemon) : List Message → Outcome Empty (List CreationTimestamp)
  | [] => .ok []
  | m :: ms => do
    let (d, _) ← d.handle S m
    let timestamps ← d.assigned S ms
    return (m.assigned d).toList ++ timestamps

namespace Daemon

variable {d d' : Daemon} {es : List Effect}
variable {bs : List UInt8} {r : StoredBundleRef}

/-! ## One message -/

lemma nextSequenceNumber_generator (d : Daemon) (t : DtnTime) :
    (d.nextSequenceNumber t).1.generator = nextStamp d.generator t ∧
      (d.nextSequenceNumber t).2 = (nextStamp d.generator t).2 := by grind [nextSequenceNumber, nextStamp, generator]

/-- A new bundle is stored with the next number of the generator. -/
lemma storeNewBundle_generator (h : d.storeNewBundle S bs = .ok (d', es)) (hfit : d'.Fits) :
    ∃ t, (Message.storeNewBundle bs).creationTime S = some t ∧ d'.generator = nextStamp d.generator t ∧
      (Message.storeNewBundle bs).assigned d' = some ⟨t, (nextStamp d.generator t).2⟩ := by
  obtain ⟨b, hb, h⟩ := bind_eq_ok.mp h
  have hb := unwrap_eq_ok.mp hb
  obtain ⟨_, -, h⟩ := bind_eq_ok.mp h
  split at h <;> [cases h; skip]
  split at h <;> [cases h; skip]
  obtain ⟨bs', hv, h⟩ := bind_eq_ok.mp h
  obtain ⟨y, hy, h⟩ := bind_eq_ok.mp h
  obtain ⟨⟨_, hdescribes⟩, hdata, -, -⟩ := StoredBundle.ofVec_eq_ok hy
  cases h
  generalize ht : b.primaryBlock.creationTimestamp.creationTime = t at *
  have hnext := nextSequenceNumber_generator d t
  obtain rfl : bs' = y.bundleData.bytes := by rw [hdata]
  -- what was encoded is what the entry describes
  have hshaped : (withSequenceNumber b (d.nextSequenceNumber t).2).Shaped := by
    obtain ⟨hne, hfragment, hflags, hproper⟩ := tryFrom_shaped hb
    exact ⟨hne, hfragment, hflags, hproper⟩
  have hyfit := hfit y (List.mem_append_right _ List.mem_cons_self)
  obtain ⟨-, rfl⟩ := hshaped.decoded (unwrap_eq_ok.mp hv) hyfit hdescribes.decoded
  refine ⟨t, by rw [Message.creationTime, hb, ← ht], hnext.1, ?_⟩
  rw [Message.assigned, List.getLast?_append, List.getLast?_singleton, Option.some_or, Option.map_some,
    hdescribes.primaryBlock, ← hnext.2, ← ht]
  rfl

lemma handle_generator (h : d.handle S m = .ok (d', es)) (hfit : d'.Fits) :
    (m.creationTime S = none ∧ m.assigned d' = none ∧ d'.generator = d.generator) ∨
    ∃ t, m.creationTime S = some t ∧ d'.generator = nextStamp d.generator t ∧
      m.assigned d' = some ⟨t, (nextStamp d.generator t).2⟩ := by
  cases m with
  | storeReceivedBundle => exact .inl ⟨rfl, rfl, (storeBundle_edits h).generator⟩
  | storeNewBundle => exact .inr (storeNewBundle_generator h hfit)
  | updateBundle => exact .inl ⟨rfl, rfl, (updateBundle_edits h).generator⟩
  | fragmentBundle => exact .inl ⟨rfl, rfl, (fragmentBundle_edits h).generator⟩

end Daemon

/-! ## Runs -/

/-- A timestamp as a pair. -/
def pairOf (c : CreationTimestamp) : DtnTime × UInt64 := (c.creationTime, c.sequenceNumber)

lemma pairOf_injective : Function.Injective pairOf := fun c c' h => by
  cases c; cases c'; cases h; rfl

lemma assigned_eq (h : (system S).Run d ms d') :
    ∃ timestamps, d.assigned S ms = .ok timestamps ∧
      timestamps.map pairOf = stamps d.generator (ms.filterMap (Message.creationTime S)) := by
  induction h with
  | nil => exact ⟨[], rfl, rfl⟩
  | @cons _ d1 _ m _ hstep _ ih =>
    obtain ⟨hfit, _, hm⟩ := hstep
    obtain ⟨timestamps, _, hpairs⟩ := ih
    refine ⟨(m.assigned d1).toList ++ timestamps, ?_, ?_⟩
    · simp_all [Daemon.assigned]
    · rcases Daemon.handle_generator hm hfit with ⟨htime, _, hgen⟩ | ⟨_, htime, hgen, hsome⟩
      · grind
      · rw [List.filterMap_cons_some htime, hsome, stamps, ← hgen, ← hpairs, hgen]
        rfl

/-- No two new bundles get the same timestamp exactly if equal creation times
arrive one after another, none of them more often than there are sequence numbers. -/
theorem timestamps_distinct_iff {d d' : Daemon} {ms : List Message} (hd : (system S).init d)
    (h : (system S).Run d ms d') :
    ∃ timestamps, d.assigned S ms = .ok timestamps ∧
      (timestamps.Nodup ↔ Consecutive (ms.filterMap (Message.creationTime S)) ∧
        ∀ t, (ms.filterMap (Message.creationTime S)).count t ≤ 2 ^ 64) := by
  obtain ⟨timestamps, hassigned, hpairs⟩ := assigned_eq h
  obtain ⟨-, endpoint, files, es, hstart⟩ := hd
  have hgen : d.generator = (none, 0) := by
    obtain ⟨sbs, -, hstart⟩ := bind_eq_ok.mp hstart
    cases hstart
    rfl
  rw [hgen] at hpairs
  refine ⟨timestamps, hassigned, ?_⟩
  rw [← List.nodup_map_iff pairOf_injective, hpairs, nodup_stamps_iff]

/-- A bundle that the node `ipn:1.0` creates at this time. -/
def createdAt (t : DtnTime) : Bundle :=
  { ordinary with primaryBlock := { ordinary.primaryBlock with
    sourceNode := .ipn ⟨1, 0⟩
    creationTimestamp := ⟨t, 0⟩ } }

/-- The message with this bundle. -/
def submit (t : DtnTime) : Message := .storeNewBundle (encoded (createdAt t))

/-- The clock steps back by one and then forward again. -/
theorem timestamps_collide :
    (storeOf [] 0).assigned .plain [submit ⟨2⟩, submit ⟨1⟩, submit ⟨2⟩] =
      .ok [⟨⟨2⟩, 0⟩, ⟨⟨1⟩, 0⟩, ⟨⟨2⟩, 0⟩] := by
  decide +kernel

/-- The agent after one message. -/
def handled (d : Daemon) (m : Message) : Daemon × List Effect :=
  match d.handle .plain m with
  | .ok x => x
  | _ => (d, [])

/-- Two bundles that are created at the same time, one after the other. -/
theorem timestamps_distinct_iff_twice :
    ∃ timestamps, (storeOf [] 0).assigned .plain [submit ⟨1⟩, submit ⟨1⟩] = .ok timestamps ∧
      (timestamps.Nodup ↔ Consecutive ([submit ⟨1⟩, submit ⟨1⟩].filterMap (Message.creationTime .plain)) ∧
        ∀ t, ([submit ⟨1⟩, submit ⟨1⟩].filterMap (Message.creationTime .plain)).count t ≤ 2 ^ 64) := by
  have hinit : (system .plain).init (storeOf [] 0) := ⟨by decide, .ipn ⟨1, 0⟩, [], [], rfl⟩
  have h1 : (system .plain).step (storeOf [] 0) (submit ⟨1⟩) (handled (storeOf [] 0) (submit ⟨1⟩)).1 :=
    ⟨by decide +kernel, (handled (storeOf [] 0) (submit ⟨1⟩)).2, by decide +kernel⟩
  have h2 : (system .plain).step (handled (storeOf [] 0) (submit ⟨1⟩)).1 (submit ⟨1⟩)
      (handled (handled (storeOf [] 0) (submit ⟨1⟩)).1 (submit ⟨1⟩)).1 :=
    ⟨by decide +kernel, (handled (handled (storeOf [] 0) (submit ⟨1⟩)).1 (submit ⟨1⟩)).2, by decide +kernel⟩
  exact timestamps_distinct_iff hinit (.cons h1 (.cons h2 .nil))

end Dtn.Dtrd.Storage
