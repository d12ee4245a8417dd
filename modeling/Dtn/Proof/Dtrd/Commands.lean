import Dtn.Proof.Dtrd.Views

/-!
# The commands to add and to remove a node

Of a URL the node agent knows nothing, or a node that is temporary, or one that
is not (`standing`). Each message changes this in a simple way
(`handle_standing`). A node that was removed, or that connected by itself, is
temporary until its session ends, and a command to add it does nothing until
then; so the last command counts exactly if it does not come in this time
(`last_command_iff`).
-/

namespace Dtn.Dtrd.Nodes

open Option Dtn.Bp7 Daemon

/-- What is known of a URL: whether its node is temporary. -/
def Daemon.standing (d : Daemon) (url : String) : Option Bool := (find url d.nodes).map (·.temporary)

/-- What a message makes of this. -/
def Message.standing (url : String) (s : Option Bool) : Message → Option Bool
  | .addNode u => if u = url then some (s.getD false) else s
  | .removeNode u => if u = url then s.map fun _ => true else s
  | .notifyNodeConnected u _ _ => if u = url then some (s.getD true) else s
  | .notifyNodeDisconnected u => if u = url then s.filter (! ·) else s
  | .tryConnect => s

/-- The node of this URL is there to stay. -/
def Daemon.Permanent (d : Daemon) (url : String) : Prop := ∃ node ∈ d.nodes, node.url = url ∧ node.temporary = false

def Daemon.Temporary (d : Daemon) (url : String) : Prop := ∃ node ∈ d.nodes, node.url = url ∧ node.temporary = true

/-- The agent after some messages. -/
def Daemon.run (d : Daemon) (ms : List Message) : Daemon := ms.foldl (fun d m => (d.handle m).1) d

/-! ## One message -/

namespace Daemon

variable {d : Daemon} {url : String}

lemma find_eq_some_iff (hd : d.Unique) {node : Node} :
    find url d.nodes = some node ↔ node ∈ d.nodes ∧ node.url = url := by
  constructor
  · intro h
    exact ⟨List.mem_of_find?_eq_some h, by simpa using List.find?_some h⟩
  · rintro ⟨hmem, rfl⟩
    cases hfind : find node.url d.nodes with
    | none => exact absurd (List.mem_map_of_mem hmem) (find_eq_none.mp hfind)
    | some node' =>
      have hmem' := List.mem_of_find?_eq_some hfind
      have hurl : node'.url = node.url := by simpa using List.find?_some hfind
      rw [List.inj_on_of_nodup_map hd hmem' hmem hurl]

lemma standing_eq_some_iff (hd : d.Unique) {temporary : Bool} :
    d.standing url = some temporary ↔ ∃ node ∈ d.nodes, node.url = url ∧ node.temporary = temporary := by
  grind [map_eq_some_iff, find_eq_some_iff, standing]

lemma standing_append (node : Node) (h : find node.url d.nodes = none) :
    standing ⟨d.nodes ++ [node]⟩ url = if node.url = url then some node.temporary else d.standing url := by
  rw [standing, find_append h]
  split <;> rfl

lemma standing_change (hd : d.Unique) (hf : ∀ n n', f n = some n' → n'.url = n.url) :
    standing ⟨change u f d.nodes⟩ url =
      if u = url then (find u d.nodes).bind fun n => (f n).map (·.temporary) else d.standing url := by
  rw [standing, find_change hf hd]
  split
  · rw [Option.map_bind]; rfl
  · rfl

lemma handle_standing (hd : d.Unique) (m : Message) :
    (d.handle m).1.standing url = m.standing url (d.standing url) := by
  cases m with
  | addNode =>
    rw [handle, Message.standing]
    split
    · grind [isSome_iff_exists, standing]
    · grind [not_isSome_iff_eq_none, standing_append, standing]
  | removeNode u =>
    rw [handle, Message.standing]
    split
    · refine (standing_change hd fun n n' h => by cases h; rfl).trans ?_
      split
      · rename_i hu
        rw [standing, ← hu, map_map]
        cases find u d.nodes <;> rfl
      · rfl
    · grind [not_isSome_iff_eq_none, standing]
  | notifyNodeConnected =>
    rw [handle, notifyNodeConnected, Message.standing]
    split
    · grind [standing_change, standing]
    · grind [standing_append, standing]
  | notifyNodeDisconnected =>
    rw [handle, notifyNodeDisconnected, Message.standing]
    split
    · grind [standing_change, standing]
    · grind [standing]
  | tryConnect =>
    rw [handle, Message.standing, standing, find_map fun n => by split <;> rfl, map_map, standing]
    congr 1
    funext n
    dsimp only [Function.comp]
    split <;> rfl

end Daemon

/-! ## All messages -/

variable {url : String}

lemma run_append (d : Daemon) (ms ms' : List Message) : d.run (ms ++ ms') = (d.run ms).run ms' := List.foldl_append

lemma run_cons (d : Daemon) (m : Message) (ms : List Message) : d.run (m :: ms) = (d.handle m).1.run ms := rfl

lemma run_unique {d : Daemon} (hd : d.Unique) (ms : List Message) : (d.run ms).Unique := by
  induction ms generalizing d with
  | nil => exact hd
  | cons _ _ ih => exact ih (handle_unique hd)

/-- Without a command for its URL, a node that is there to stay stays, and no other becomes one. -/
lemma run_permanent {d : Daemon} (hd : d.Unique)
    (hms : ∀ m ∈ ms, m ≠ .addNode url ∧ m ≠ .removeNode url) :
    (d.run ms).standing url = some false ↔ d.standing url = some false := by
  induction ms generalizing d with
  | nil => rfl
  | cons m _ ih =>
    obtain ⟨⟨hadd, hremove⟩, hms⟩ := List.forall_mem_cons.mp hms
    rw [run_cons, ih (handle_unique hd) hms, handle_standing hd]
    generalize d.standing url = s
    cases m with
    | addNode => rw [Message.standing, if_neg fun hu => hadd (by rw [hu])]
    | removeNode => rw [Message.standing, if_neg fun hu => hremove (by rw [hu])]
    | notifyNodeConnected =>
      rw [Message.standing]
      split <;> [skip; rfl]
      cases s <;> simp
    | notifyNodeDisconnected =>
      rw [Message.standing]
      split <;> [skip; rfl]
      rcases s with _ | _ | _ <;> simp
    | tryConnect => rfl

/-- If the last command for a URL was to add it, its node is there to stay
exactly if it was not known as a temporary one then; if it was to remove it,
its node is not there to stay. -/
theorem last_command_iff (url : String) {before after : List Message}
    (hafter : ∀ m ∈ after, m ≠ .addNode url ∧ m ≠ .removeNode url) :
    ((run ⟨[]⟩ (before ++ .addNode url :: after)).Permanent url ↔
      ¬ (run ⟨[]⟩ before).Temporary url) ∧
    ¬ (run ⟨[]⟩ (before ++ .removeNode url :: after)).Permanent url := by
  have hstart : Daemon.Unique ⟨[]⟩ := List.nodup_nil
  have hbefore := run_unique hstart before
  have hpermanent (m : Message) : (run ⟨[]⟩ (before ++ m :: after)).Permanent url ↔
      m.standing url ((run ⟨[]⟩ before).standing url) = some false := by
    rw [Daemon.Permanent, ← standing_eq_some_iff (run_unique hstart _), run_append, run_cons,
      run_permanent (handle_unique hbefore) hafter, handle_standing hbefore]
  rw [hpermanent, hpermanent, Daemon.Temporary, ← standing_eq_some_iff hbefore, Message.standing,
    Message.standing, if_pos rfl, if_pos rfl]
  rcases (run ⟨[]⟩ before).standing url with _ | _ | _ <;> simp

/-- The node is added, connected and removed, and added again before its session has ended. Then it ends, and the
node is gone. A node that connected by itself and is then added is lost in the same way. -/
theorem last_command_lost :
    run ⟨[]⟩ [.addNode "tcpcl://b", .notifyNodeConnected "tcpcl://b" (.ipn ⟨2, 0⟩) 1000,
      .removeNode "tcpcl://b", .addNode "tcpcl://b", .notifyNodeDisconnected "tcpcl://b"] = ⟨[]⟩ ∧
    run ⟨[]⟩ [.notifyNodeConnected "tcpcl://b" (.ipn ⟨2, 0⟩) 1000, .addNode "tcpcl://b",
      .notifyNodeDisconnected "tcpcl://b"] = ⟨[]⟩ := by
  decide

/-- The node is added after its session has ended. -/
theorem last_command_iff_again :
    (run ⟨[]⟩ ([.addNode "tcpcl://b", .removeNode "tcpcl://b", .notifyNodeDisconnected "tcpcl://b"] ++
      .addNode "tcpcl://b" :: [.notifyNodeConnected "tcpcl://b" (.ipn ⟨2, 0⟩) 1000])).Permanent "tcpcl://b" := by
  refine (last_command_iff "tcpcl://b" ?_).1.mpr ?_
  · decide
  · rintro ⟨node, hnode, -⟩
    have hnone : (run ⟨[]⟩ [.addNode "tcpcl://b", .removeNode "tcpcl://b",
      .notifyNodeDisconnected "tcpcl://b"]).nodes = [] := by decide
    rw [hnone] at hnode
    cases hnode

end Dtn.Dtrd.Nodes
