import Dtn.Proof.Dtrd.Sizes

/-!
# What forwarding a bundle changes

`forward_bundle` decodes a stored bundle, edits two of its blocks and encodes it
again. `forwardBundle_frame` says what its bytes decode to: the bundle with this
node as its previous one, unless it is the source, and with one hop more
(`Forwarded`).
-/

namespace Dtn.Dtrd

open Dtn.Bp7 Protocol Storage Bundle

variable {S : Serde} {w : World}

/-- `b'` is what a node makes of `b` when it forwards it; `own` says that the node is its source. -/
structure Forwarded (endpoint : Endpoint) (own : Bool) (b b' : Bundle) : Prop where
  primaryBlock : b'.primaryBlock = b.primaryBlock
  payload : (b'.payloadData : Outcome Empty (List UInt8)) = b.payloadData
  edits : ∃ blocks, (if own then blocks = b.blocks else Bundle.Edits isPreviousNode
      (fun _ block => block = .previousNode ⟨endpoint⟩) (.previousNode ⟨endpoint⟩) b.blocks blocks) ∧
    Bundle.Edits isHopCount Bundle.Counted (.hopCount ⟨hopLimitDefault, 0⟩) blocks b'.blocks
  distinct : (b'.blocks.map (·.blockNumber)).Nodup

/-- Naming the previous node, unless this node is the source. -/
lemma forwarded_previous {b b1 : Bundle} {own : Bool}
    (hb1 : b1 = if own then b else b.setPreviousNode endpoint) :
    (b1 = b ∨ b.Adjusts b1) ∧ b1.hopCounts = b.hopCounts ∧
      (if own then b1.blocks = b.blocks else Bundle.Edits isPreviousNode
        (fun _ block => block = .previousNode ⟨endpoint⟩) (.previousNode ⟨endpoint⟩) b.blocks b1.blocks) := by
  cases own with
  | true => rw [if_pos rfl] at hb1; subst hb1; exact ⟨.inl rfl, rfl, rfl⟩
  | false =>
    rw [if_neg Bool.false_ne_true] at hb1
    subst hb1
    exact ⟨.inr (b.setPreviousNode_adjusts _), b.hopCounts_setPreviousNode _, b.setPreviousNode_edits _⟩

theorem forwardBundle_frame {c : Context} {r : StoredBundleRef} {b : Bundle} {bytes : List UInt8}
    (hb : tryFrom S r.bundleData.bytes = .ok b) (hcrc : b.NoCRC)
    (hdistinct : (b.blocks.map (·.blockNumber)).Nodup) (hnumbers : ∀ x ∈ b.blocks, x.blockNumber.toNat < 2 ^ 64 - 2)
    (hcounts : ∀ h ∈ b.hopCounts, h.count < 255) (hforward : c.forwardBundle S w r = .ok bytes)
    (hfit : FitsInMemory bytes) :
    ∃ own b', c.daemon.endpoint.matchesNode b.primaryBlock.sourceNode = (.ok own : Outcome BundleStatusReason Bool) ∧
      tryFrom S bytes = .ok b' ∧ Forwarded c.daemon.endpoint own b b' := by
  obtain ⟨b0, own, hlive, hb0, hown⟩ := forwardBundle_cases (c := c) (w := w) (r := r) (S := S)
    (by rw [hforward]; exact nofun)
  cases hb.symm.trans hb0
  obtain ⟨b1, hb1⟩ : ∃ b1, b1 = if own then b else b.setPreviousNode c.daemon.endpoint := ⟨_, rfl⟩
  obtain ⟨hadjusts, hhops, hedits⟩ := forwarded_previous hb1
  have heq := forwardBundle_of_own hlive hb hown hb1
  rw [hforward] at heq
  split at heq <;> [skip; cases heq]
  have hv := Outcome.unwrap_eq_ok.mp heq.symm
  have hinc := b1.incHopCount_adjusts hopLimitDefault
  have hcount := incHopCount_edits hopLimitDefault (by rw [hhops]; exact hcounts)
  generalize (b1.incHopCount hopLimitDefault).1 = b' at hv hinc hcount
  -- without checksums, the bytes decode to what was encoded
  have hshaped := tryFrom_shaped hb
  have hnumbered : Bundle.Numbered (2 ^ 64 - 3) b.blocks :=
    ⟨hdistinct, fun x hx => by have := hnumbers x hx; omega⟩
  obtain ⟨hs1, hc1, hp1, hd1, hn1⟩ : b1.Shaped ∧ b1.NoCRC ∧ b1.primaryBlock = b.primaryBlock ∧
      (b1.payloadData : Outcome Empty (List UInt8)) = b.payloadData ∧ Bundle.Numbered (2 ^ 64 - 3 + 1) b1.blocks := by
    rcases hadjusts with rfl | h
    · exact ⟨hshaped, hcrc, rfl, rfl, hnumbered.mono (Nat.le_succ _)⟩
    · exact ⟨h.shaped hshaped, h.noCRC hcrc, h.primaryBlock, h.payloadData, h.numbered hnumbered (by decide)⟩
  have hdecode := ((hinc.shaped hs1).regular (hinc.noCRC hc1)).tryFrom_eq (S := S) hv hfit
  exact ⟨own, b', hown, hdecode, hinc.primaryBlock.trans hp1, hinc.payloadData.trans hd1,
    ⟨b1.blocks, hedits, hcount⟩, (hinc.numbered hn1 (by decide)).distinct⟩

/-- The node `ipn:1.0` forwards `counted`, which has a hop count and gets a previous node. -/
theorem forwardBundle_frame_counted :
    ∃ own b', tryFrom .plain (forwarded (.ipn ⟨1, 0⟩) countedEntry) = .ok b' ∧
      Forwarded (.ipn ⟨1, 0⟩) own counted b' := by
  have hdecode : tryFrom .plain countedEntry.getRef.bundleData.bytes = .ok counted := by
    decide +kernel
  have hforward : Context.forwardBundle .plain ⟨fun _ => true, fun _ => true, ⟨0⟩⟩ ⟨.new (.ipn ⟨1, 0⟩), [], []⟩
      countedEntry.getRef = .ok (forwarded (.ipn ⟨1, 0⟩) countedEntry) := by decide +kernel
  have hfit : FitsInMemory (forwarded (.ipn ⟨1, 0⟩) countedEntry) := by decide +kernel
  obtain ⟨own, b', -, hb, h⟩ := forwardBundle_frame hdecode (by decide) (by decide) (by decide) (by decide)
    hforward hfit
  exact ⟨own, b', hb, h⟩

end Dtn.Dtrd
