import Dtn.Framework.Pending
import Dtn.Proof.Dtrd.Tables

/-!
# Connections of the protocol agent

Besides what its messages say, the protocol agent only drops connections to
actors that do not run any more (`handle_localConnections`). It drops those to
peers under the wrong name: a bundle that cannot be passed to the next hop ends
the connection to the bundle's destination. As long as no destination is
connected itself while it is reached over a next hop whose agent has stopped
(`Direct`), this makes no difference (`handle_remoteConnections`).
-/

namespace Dtn.Dtrd.Protocol

open Dtn.Bp7

variable {S : Serde} {w : World} {c c' : Context} {t t' t'' : Table Endpoint Nat} {m : Message}
variable {conn conn' : Endpoint → Option Nat} {k : Endpoint} {a : Nat} {pending : List (Option Nat)}
  {accepts : List Bool} {commands : List Command}

/-- What a message says about the client at an endpoint. -/
def Message.client (k : Endpoint) : Message → Option (Option Nat)
  | .eventClientConnected k' a => if k' = k then some (some a) else none
  | .eventClientDisconnected k' => if k' = k then some none else none
  | _ => none

/-- What a message says about the connection to a node. -/
def Message.peer (k : Endpoint) : Message → Option (Option Nat)
  | .eventPeerConnected k' a => if k' = k then some (some a) else none
  | .eventPeerDisconnected k' => if k' = k then some none else none
  | _ => none

/-- Only connections to actors that do not run are dropped. -/
def Drops (w : World) (conn conn' : Endpoint → Option Nat) : Prop :=
  ∀ k, conn' k = conn k ∨ conn' k = none ∧ ∃ a, conn k = some a ∧ w.running a = false

lemma Drops.refl (conn : Endpoint → Option Nat) : Drops w conn conn := fun _ => .inl rfl

lemma Drops.trans (h : Drops w conn conn') (h' : Drops w conn' conn'') : Drops w conn conn'' := by
  intro k
  rcases h' k with heq | ⟨hnone, a, ha, hclosed⟩
  · rw [heq]
    exact h k
  · rcases h k with heq | ⟨hnone', -⟩
    · exact .inr ⟨hnone, a, heq ▸ ha, hclosed⟩
    · cases hnone'.symm.trans ha

lemma Drops.remove (ha : t.get k = some a) (hclosed : w.running a = false) : Drops w t.get (t.remove k).get := by
  intro k'
  rw [Table.get_remove]
  split
  · grind
  · exact .inl rfl

/-- A connection to an actor that runs is still there after the messages on their way. -/
lemma Drops.settled (h : Drops w conn conn') (ha : settled (conn k) pending = some a)
    (hrunning : w.running a = true) : settled (conn' k) pending = some a := by
  rcases h k with heq | ⟨-, b, hb, hclosed⟩
  · rw [heq]
    exact ha
  · rcases settled_dichotomy pending with hcurrent | ⟨last, hlast⟩
    · grind
    · rw [hlast] at ha ⊢
      exact ha

lemma Drops.of_settled (h : Drops w conn conn') (ha : Dtn.settled (conn' k) pending = some a) :
    Dtn.settled (conn k) pending = some a := by
  rcases h k with heq | ⟨hnone, -⟩
  · rw [← heq]
    exact ha
  · rcases settled_dichotomy pending with hcurrent | ⟨last, hlast⟩
    · rw [hcurrent, hnone] at ha
      cases ha
    · rw [hlast] at ha ⊢
      exact ha

/-! ## Clients -/

lemma Move.localConnections (h : Move w c c') :
    Drops w c.daemon.localConnections.get c'.daemon.localConnections.get := by
  cases h with
  | report hd | deliver _ _ _ hd | forward _ _ _ hd | fragment _ _ _ _ hd | rotateLocal _ _ hd | rotateRemote _ _ hd
  | closeRemote _ _ _ hd => rw [hd]; exact .refl _
  | closeLocal hsender hclosed hd => rw [hd]; exact .remove hsender hclosed

lemma Moves.localConnections (h : Moves w c c') :
    Drops w c.daemon.localConnections.get c'.daemon.localConnections.get := by
  induction h with
  | refl => exact .refl _
  | tail _ h ih => exact ih.trans h.localConnections

lemma Takes.localConnections (h : Takes S w c m c') (k : Endpoint) :
    c'.daemon.localConnections.get k = (m.client k).getD (c.daemon.localConnections.get k) := by
  cases h with
  | clientConnected => grind [Message.client]
  | @clientDisconnected destination =>
    change (c.daemon.localConnections.remove destination).get k = _
    rw [Table.get_remove, Message.client]
    split <;> rfl
  | _ => rfl

lemma handle_localConnections {d d' : Daemon} (h : d.handle S w accepts m = .ok (d', commands)) :
    Drops w (fun k => (m.client k).getD (d.localConnections.get k)) d'.localConnections.get := by
  obtain ⟨_, hhandle, h⟩ := Outcome.bind_eq_ok.mp h
  cases h
  obtain ⟨_, _, hreported, htakes, hmoves⟩ := handle_takes hhandle
  intro k
  have h := hmoves.localConnections k
  rwa [htakes.localConnections, hreported.daemon] at h

/-! ## Peers -/

/-- A node that is reached over another one whose agent has stopped is not connected itself. -/
def Direct (w : World) (routes : Table Endpoint NexthopInfo) (conn : Endpoint → Option Nat) : Prop :=
  ∀ k ∈ routes.keys, ∀ route ∈ routes.get k, ∀ a ∈ conn route.nextHop, w.running a = false →
    route.nextHop = k ∨ conn k = none

instance (w : World) (routes : Table Endpoint NexthopInfo) (conn : Endpoint → Option Nat) :
    Decidable (Direct w routes conn) := by
  unfold Direct
  infer_instance

lemma Direct.drops (h : Direct w routes conn) (hd : Drops w conn conn') : Direct w routes conn' := by
  intro k hk route hroute a ha hclosed
  have ha' : conn route.nextHop = some a := by
    rcases hd route.nextHop with heq | ⟨hnone, -⟩
    · exact heq ▸ ha
    · cases hnone.symm.trans ha
  refine (h k hk route hroute a ha' hclosed).imp_right fun hnone => ?_
  rcases hd k with heq | ⟨hnone', -⟩
  · exact heq.trans hnone
  · exact hnone'

lemma Move.remoteConnections (h : Move w c c') (hd : Direct w c.daemon.remoteRoutes c.daemon.remoteConnections.get) :
    Drops w c.daemon.remoteConnections.get c'.daemon.remoteConnections.get := by
  cases h with
  | report hd | deliver _ _ _ hd | forward _ _ _ hd | fragment _ _ _ _ hd | rotateLocal _ _ hd | rotateRemote _ _ hd
  | closeLocal _ _ hd => rw [hd]; exact .refl _
  | @closeRemote destination route sender hroute hsender hclosed hd' =>
    rw [hd']
    have hkey : destination ∈ c.daemon.remoteRoutes.keys := List.mem_map_of_mem (Table.mem_of_get hroute)
    rcases hd destination hkey route hroute sender hsender hclosed with heq | hnone
    · exact .remove (heq ▸ hsender) hclosed
    · intro k
      left
      rw [Table.get_remove]
      split
      · rename_i hk
        rw [← hk, hnone]
      · rfl

lemma Moves.remoteConnections (h : Moves w c c')
    (hd : Direct w c.daemon.remoteRoutes c.daemon.remoteConnections.get) :
    Drops w c.daemon.remoteConnections.get c'.daemon.remoteConnections.get := by
  induction h with
  | refl => exact .refl _
  | @tail _ _ h1 h ih =>
    refine ih.trans (h.remoteConnections ?_)
    rw [Moves.remoteRoutes h1]
    exact hd.drops ih

lemma Takes.remoteConnections (h : Takes S w c m c') (k : Endpoint) :
    c'.daemon.remoteConnections.get k = (m.peer k).getD (c.daemon.remoteConnections.get k) := by
  cases h with
  | @peerConnected destination sender | @peerDisconnected destination => grind [Message.peer]
  | _ => rfl

/-- The connections to nodes, as a message finds them or leaves them. -/
def Message.connections (m : Message) (d : Daemon) (k : Endpoint) : Option Nat :=
  (m.peer k).getD (d.remoteConnections.get k)

lemma handle_remoteConnections (h : d.handle S w accepts m = .ok (d', commands))
    (hd : Direct w (m.table d) (m.connections d)) : Drops w (m.connections d) d'.remoteConnections.get := by
  obtain ⟨_, hhandle, h⟩ := Outcome.bind_eq_ok.mp h
  cases h
  obtain ⟨_, c2, hreported, htakes, hmoves⟩ := handle_takes hhandle
  have hconnections : c2.daemon.remoteConnections.get = m.connections d := by
    funext k
    rw [htakes.remoteConnections, hreported.daemon]
    rfl
  rw [← hconnections]
  refine hmoves.remoteConnections ?_
  rw [hconnections, htakes.remoteRoutes, hreported.daemon]
  exact hd

end Dtn.Dtrd.Protocol
