import Dtn.Proof.Tcpcl.Turn

/-!
# Two sessions joined by channels

An `End` is a session with the messages on their way to it and a log of what it
took over, passed up and answered. `move` is one turn of its loop: what it reads
is the first message on its way, and what it writes goes behind those on their
way to the other end.

`move_step` shows that the code does what the parties of `Peer.Step` do, and
`reaches_peer` that the runs of two sessions are runs of two such parties.
-/

namespace Dtn.Tcpcl

open List StateMachine Session

variable {ρ : Type}
variable {i : Interest} {l : Label}

/-- The transfer that a session takes over with an event, and the request for it. -/
def Session.taken (s : Session ρ) : Event ρ → List (Transfer × ρ)
  | .transfer data r =>
    match s.statemachine.sendTransfer data with
    | .ok _ => [(⟨s.statemachine.lastUsedTransferId, data⟩, r)]
    | _ => []
  | _ => []

/-- A party with the machine `sm`. -/
def Peer.of (sm : StateMachine) (receiving : Option Transfer) (inbox : List Messages)
    (accepted passedUp : List Transfer) :
    Peer := ⟨sm.state, sm.terminating, sm.peerMru, receiving, inbox, accepted, passedUp⟩

/-- One end of a connection. -/
structure End (ρ : Type) where
  session : Session ρ
  inbox : List Messages
  taken : List (Transfer × ρ)
  passedUp : List Transfer
  granted : List ρ

/-- The branches of the `select!` that are taken while the connection works. -/
inductive Act (ρ : Type) where
  | read
  | send
  | transfer (data : List UInt8) (r : ρ)
  | tick (idle : Bool)
  | close
  deriving DecidableEq

/-- The data of a transfer is a vector. -/
def Act.Fits : Act ρ → Prop
  | .transfer data _ => data.length ≤ isizeMax
  | _ => True

namespace End

def event (x : End ρ) : Act ρ → Option (Event ρ)
  | .read => x.inbox.head?.map fun m => .read (.ok m)
  | .send => some .send
  | .transfer data r => some (.transfer data r)
  | .tick idle => some (.tick idle)
  | .close => some .close

/-- What is left on its way to an end behind an event. -/
def unread (x : End ρ) : Event ρ → List Messages
  | .read _ => x.inbox.tail
  | _ => x.inbox

/-- Both ends after a turn of `x`. -/
def after (x y : End ρ) (ev : Event ρ) (s : Session ρ) (es : List (Effect ρ)) : End ρ × End ρ :=
  ({ session := s
     inbox := x.unread ev
     taken := x.taken ++ x.session.taken ev
     passedUp := x.passedUp ++ Effect.passedUp es
     granted := x.granted ++ Effect.granted es },
   { y with inbox := y.inbox ++ Effect.writes es })

def move (tls : Tls) (x y : End ρ) (a : Act ρ) : Outcome Exit (Option (End ρ × End ρ)) :=
  match x.event a with
  | none => .ok none
  | some ev => do
    match ← x.session.turn tls ev with
    | none => .ok none
    | some (s, es) => .ok (some (x.after y ev s es))

/-- The end as a party of the protocol. -/
def peer (x : End ρ) : Peer :=
  .of x.session.statemachine x.session.receivingTransfer x.inbox (x.taken.map Prod.fst) x.passedUp

/-- Two ends, each taking turns in any order: the first one if the action says `true`. -/
def system (tls : Tls) (init : End ρ × End ρ → Prop) : System (End ρ × End ρ) (Bool × Act ρ) where
  init := init
  step p a p' := a.2.Fits ∧ match a.1 with
    | true => move tls p.1 p.2 a.2 = .ok (some p')
    | false => move tls p.2 p.1 a.2 = .ok (some p'.swap)

variable {x y x' y' : End ρ} {tls : Tls} {a : Act ρ}

lemma move_eq_ok (h : x.move tls y a = .ok (some (x', y'))) : ∃ ev s es, x.event a = some ev ∧
    x.session.turn tls ev = .ok (some (s, es)) ∧ (x', y') = x.after y ev s es := by grind [move]

end End

/-! ## The branches as steps -/

section Branches

variable {sm sm' sm'' : StateMachine} {m : Messages} {receiving : Option Transfer} {inbox : List Messages}
  {accepted passedUp : List Transfer} {y : Peer}

lemma send_step (h : sm.sendMessage = (.ok (sm', some m) : Outcome Exit _))
    (hc : sm'.sendComplete = (.ok sm'' : Outcome Exit _)) :
    ∃ l, Peer.Step l (.of sm receiving inbox accepted passedUp) y
        (.of sm'' receiving inbox accepted passedUp) (y.push m) ∧
      l ≠ .close ∧ (l = .segment → ∃ tt, sm.state = .sendXferSegments tt) := by
  obtain ⟨_, hc', hw⟩ := sendMessage_cases h
  cases hc.symm.trans hc'
  cases hw with
  | activeHeader hst => exact ⟨.quiet, .sendHeaderActive hst _, nofun, nofun⟩
  | passiveHeader hst => exact ⟨.quiet, .sendHeaderPassive hst _, nofun, nofun⟩
  | activeInit hst => exact ⟨.quiet, .sendInitActive hst _, nofun, nofun⟩
  | passiveInit hst => exact ⟨.quiet, .sendInitPassive hst _, nofun, nofun⟩
  | ack hst => exact ⟨.quiet, .sendAck hst, nofun, nofun⟩
  | segmentsAck hst => exact ⟨.quiet, .sendSegmentsAck hst, nofun, nofun⟩
  | keepalive hst => exact ⟨.quiet, .sendKeepalive hst, nofun, nofun⟩
  | reject hst => exact ⟨.quiet, .sendReject hst, nofun, nofun⟩
  | term hst => exact ⟨.quiet, .sendTerm hst _, nofun, nofun⟩
  | @segment tt si x e hst hsi hpos hx =>
    refine ⟨.segment, .sendSegment hst hpos ?_, nofun, fun _ => ⟨tt, hst⟩⟩
    rw [show (Peer.of sm receiving inbox accepted passedUp).mru = si.segmentMru by
      change sm.peerMru = _
      rw [StateMachine.peerMru, hsi]
      rfl]
    exact hx

/-- A message that the machine alone deals with. -/
lemma reading_step (hi : (sm.getInterests : Outcome Exit _) = .ok i) (hr : i.readable = true)
    (h : Reading sm (.ok m) sm' res) (hseg : ∀ x, res ≠ .ok (.xferSegment x))
    (hrej : ∀ x, res ≠ .ok (.msgReject x)) (hack : res ≠ .error (.messageError .invalidACKValue)) :
    Peer.Step .quiet (.of sm receiving (m :: inbox) accepted passedUp) y
      (.of sm' receiving inbox accepted passedUp) y := by
  have hreads : sm.state.reads = true := by
    unfold StateMachine.getInterests at hi
    split at hi <;> rename_i hst <;> cases hi <;> first | (rw [hst]; rfl) | cases hr
  cases h with
  | activeHeader hst => exact .readHeaderActive hst rfl
  | passiveHeader hst => exact .readHeaderPassive hst rfl
  | activeInit hst => exact .readInitActive hst rfl
  | passiveInit hst => exact .readInitPassive hst rfl
  | unexpected hm => exact .reject hreads rfl hm _ _
  | terminated hst => exact .readLastTerm hst rfl
  | terminate hst => exact .readTerm hst rfl
  | segment => exact absurd rfl (hseg _)
  | badAck => exact absurd rfl hack
  | lastAck hst _ _ hlen => exact .readLastAck hst rfl hlen
  | ack hst _ _ hlen => exact .readAck hst rfl hlen
  | keepalive => exact .readKeepalive hreads rfl
  | rejected => exact absurd rfl (hrej _)

lemma sendAck_step (h : sm.sendAck a = (.ok sm' : Outcome SessionErrors _)) :
    Peer.Acks sm.state a sm'.state ∧ sm'.terminating = sm.terminating ∧ sm'.peerMru = sm.peerMru := by
  obtain ⟨st, _, _, _, _, _, _, _, _⟩ := sm
  cases st with
  | sendXferSegments => cases h; exact ⟨.sending, rfl, rfl⟩
  | sessionEstablished => cases h; exact ⟨.established, rfl, rfl⟩
  | _ => cases h

end Branches

/-! ## Turns as steps -/

lemma Peer.Acks.pastHandshake (h : Acks st a st') : st'.pastHandshake = true := by
  cases h <;> rfl

lemma Peer.Step.pastHandshake (h : Step l x y x' y')
    (hx : x.state.pastHandshake = true) : x'.state.pastHandshake = true := by
  cases h with
  | idle | readKeepalive | dropSegment | tick => exact hx
  | sendKeepalive h => rw [h] at hx; exact hx
  | sendSegment => unfold afterSegment; split <;> rfl
  | sendTerm => dsimp only; split <;> rfl
  | readSegment _ _ hst => exact hst.pastHandshake
  | sendHeaderActive h | sendHeaderPassive h | sendInitActive h | sendInitPassive h | readHeaderActive h
  | readHeaderPassive h | readInitActive h | readInitPassive h => rw [h] at hx; cases hx
  | _ => rfl

namespace End

variable {x y x' y' : End ρ} {tls : Tls} {a : Act ρ} {s s1 : Session ρ} {es es1 es2 : List (Effect ρ)} {ev : Event ρ}

/-- Keepalives are sent once the session is established. -/
def Ready (x : End ρ) : Prop :=
  x.session.initializedKeepalive = true → x.session.statemachine.state.pastHandshake = true

/-- The end closes the session. -/
def Closes (x : End ρ) : Act ρ → Prop
  | .close => True
  | .tick idle => idle = true ∧ x.session.statemachine.isEstablished = true
  | _ => False

/-- The end sends a segment. -/
def SendsSegment (x : End ρ) (a : Act ρ) : Prop := a = .send ∧ ∃ tt, x.session.statemachine.state = .sendXferSegments tt

/-- The parties see what the branch did, not what the loop does before the next one. -/
lemma peer_after (x y : End ρ) (ev : Event ρ) (es1 : List (Effect ρ))
    (h : Session.Settled s1 s es2) : (x.after y ev s (es1 ++ es2)).1.peer =
      .of s1.statemachine s1.receivingTransfer (x.unread ev) ((x.taken ++ x.session.taken ev).map Prod.fst)
        (x.passedUp ++ Effect.passedUp es1) ∧
    (x.after y ev s (es1 ++ es2)).2.peer = .of y.session.statemachine y.session.receivingTransfer
      (y.inbox ++ Effect.writes es1) (y.taken.map Prod.fst) y.passedUp := by
  grind [h.statemachine, h.receivingTransfer, h.writes, h.passedUp, Effect.passedUp_append,
    Effect.writes_append, after, peer]

/-- What the end reads is a step. -/
lemma read_step (hin : x.inbox = m :: ms)
    (hi : ∀ {ε : Type}, (x.session.statemachine.getInterests : Outcome ε _) = .ok i)
    (hb : x.session.branch tls i (.read (.ok m)) = .ok (some (s1, es1))) :
    Peer.Step .quiet x.peer y.peer (.of s1.statemachine s1.receivingTransfer ms (x.taken.map Prod.fst)
        (x.passedUp ++ Effect.passedUp es1)) y.peer ∧
      s1.initializedKeepalive = x.session.initializedKeepalive ∧ Effect.writes es1 = [] := by
  obtain ⟨hread, sm, _, hd, hres⟩ := branch_read_eq_ok hb
  have hr := decodeMessage_cases hi hread hd
  have hpeer : x.peer =
      .of x.session.statemachine x.session.receivingTransfer (m :: ms) (x.taken.map Prod.fst) x.passedUp := by
    rw [peer, hin]
  rcases hres with ⟨sg, rfl, hseg⟩ | ⟨hseg, hrej, hack, -, rfl, rfl⟩
  · obtain ⟨rfl, rfl⟩ : m = .xferSegment sg ∧ sm = x.session.statemachine := by
      cases hr with
      | segment => exact ⟨rfl, rfl⟩
    rcases receiveSegment_eq_ok hseg with ⟨t, ht, hid, rfl, rfl⟩ | ⟨t, _, hjoin, hsend, hfin⟩
    · refine ⟨?_, rfl, rfl⟩
      have hstep : Peer.Step .quiet x.peer y.peer { x.peer with inbox := ms } y.peer := .dropSegment hin ht hid
      rw [hpeer] at hstep ⊢
      rwa [show Effect.passedUp ([] : List (Effect ρ)) = [] from rfl, append_nil]
    · obtain ⟨hst, hterm, hmru⟩ := sendAck_step hsend
      have hjoins : Peer.Joins x.session.receivingTransfer sg t := by
        rcases hjoin with ⟨hnone, rfl⟩ | ⟨t', ht', hid, rfl⟩
        · rw [show x.session.receivingTransfer = none from hnone]
          exact .first
        · rw [show x.session.receivingTransfer = some t' from ht']
          exact .next hid
      have hstep : Peer.Step .quiet x.peer y.peer _ y.peer := .readSegment hin hjoins hst
      rcases hfin with ⟨hfin, rfl, rfl⟩ | ⟨hfin, rfl, rfl⟩
      all_goals
        refine ⟨?_, rfl, rfl⟩
        rw [hfin] at hstep
        rw [Peer.of, hterm, hmru]
        exact hstep
  · refine ⟨?_, rfl, rfl⟩
    rw [hpeer, show Effect.passedUp ([] : List (Effect ρ)) = [] from rfl, append_nil]
    exact reading_step hi hread hr hseg hrej hack

lemma ready_of_step (hx : x.Ready) (hset : Session.Settled s1 s es2)
    (hk : s1.initializedKeepalive = x.session.initializedKeepalive) (hs : x'.session = s)
    (hstep : Peer.Step l x.peer y.peer x'.peer y'.peer) : x'.Ready := by
  intro hinit
  rw [hs] at hinit
  rcases hset.initializedKeepalive hinit with h | h
  · exact hstep.pastHandshake (hx (hk ▸ h))
  · have hst := isEstablished_iff.mp h
    rw [hs, hset.statemachine, hst]
    rfl

/-- A branch of `x` that is a step of the party. -/
def BranchStep (x y : End ρ) (a : Act ρ) (ev : Event ρ) (s1 : Session ρ) (es1 : List (Effect ρ)) : Prop :=
  s1.initializedKeepalive = x.session.initializedKeepalive ∧ ∃ l, Peer.Step l x.peer y.peer
    (.of s1.statemachine s1.receivingTransfer (x.unread ev) ((x.taken ++ x.session.taken ev).map Prod.fst)
      (x.passedUp ++ Effect.passedUp es1))
    (.of y.session.statemachine y.session.receivingTransfer (y.inbox ++ Effect.writes es1) (y.taken.map Prod.fst)
      y.passedUp) ∧ (l = .close → x.Closes a) ∧ (l = .segment → x.SendsSegment a)

lemma branchStep_silent (hk : s1.initializedKeepalive = x.session.initializedKeepalive)
    (hclose : l = .close → x.Closes a) (hl : l ≠ .segment)
    (hstep : Peer.Step l x.peer y.peer (.of s1.statemachine s1.receivingTransfer (x.unread ev)
      ((x.taken ++ x.session.taken ev).map Prod.fst) x.passedUp) y.peer) (hw : Effect.writes es1 = [])
    (hp : Effect.passedUp es1 = []) : BranchStep x y a ev s1 es1 := by
  refine ⟨hk, l, ?_, hclose, fun h => absurd h hl⟩
  rw [hw, hp, append_nil, append_nil]
  exact hstep

lemma taken_nil (hev : ∀ data r, ev ≠ .transfer data r) : (x.taken ++ x.session.taken ev).map Prod.fst =
    x.taken.map Prod.fst := by simp [Session.taken]

lemma send_branchStep (hb : x.session.branch tls i .send = .ok (some (s1, es1))) :
    BranchStep x y .send .send s1 es1 := by
  obtain ⟨_, ⟨_, hsend, rfl, rfl⟩ | ⟨_, m, _, hsend, hc, rfl, rfl⟩⟩ := branch_send_eq_ok hb
  · refine branchStep_silent (l := .quiet) rfl nofun nofun ?_ rfl rfl
    rw [taken_nil nofun, sendMessage_none hsend]
    exact .idle
  · obtain ⟨l, hstep, hl, hseg⟩ := send_step (y := y.peer) hsend hc
    refine ⟨rfl, l, ?_, fun h => absurd h hl, fun h => ⟨rfl, hseg h⟩⟩
    rw [taken_nil nofun, show Effect.passedUp [Effect.write m] = ([] : List Transfer) from rfl, append_nil]
    exact hstep

lemma transfer_branchStep (hlen : data.length ≤ isizeMax)
    (hb : x.session.branch tls i (.transfer data r) = .ok (some (s1, es1))) :
    BranchStep x y (.transfer data r) (.transfer data r) s1 es1 := by
  obtain ⟨hest, ⟨_, hsend, rfl, rfl⟩ | ⟨_, hsend, rfl, rfl⟩⟩ := branch_transfer_eq_ok hb
  · obtain ⟨-, rfl⟩ := sendTransfer_eq_ok hest hsend
    have hst := isEstablished_iff.mp hest
    refine branchStep_silent (l := .quiet) rfl nofun nofun ?_ rfl rfl
    rw [Session.taken, hsend, map_append]
    exact .transfer (x := x.peer) hst ⟨x.session.statemachine.lastUsedTransferId, data⟩ hlen
  · refine branchStep_silent (l := .quiet) rfl nofun nofun ?_ rfl rfl
    rw [Session.taken, hsend, append_nil]
    exact .idle

lemma tick_branchStep (hx : x.Ready)
    (hb : x.session.branch tls i (.tick idle) = .ok (some (s1, es1))) :
    BranchStep x y (.tick idle) (.tick idle) s1 es1 := by
  obtain ⟨_, hsm, rfl, rfl⟩ := branch_tick_eq_ok hb
  rcases closeIfIdle_eq_ok hsm with rfl | ⟨hest, hidle, rfl⟩
  · refine branchStep_silent (l := .quiet) rfl nofun nofun ?_ rfl rfl
    rw [taken_nil nofun]
    split
    · rename_i hk
      exact .tick (hx hk)
    · exact .idle
  · have hst := isEstablished_iff.mp hest
    refine branchStep_silent (l := .close) rfl (fun _ => ⟨hidle, hest⟩) nofun ?_ rfl rfl
    rw [taken_nil nofun]
    split
    · exact .closeTick hst _
    · exact .close hst _

lemma close_branchStep (hb : x.session.branch tls i .close = .ok (some (s1, es1))) :
    BranchStep x y .close .close s1 es1 := by
  obtain ⟨hest, rfl, rfl⟩ := branch_close_eq_ok hb
  have hst := isEstablished_iff.mp hest
  refine branchStep_silent (l := .close) rfl (fun _ => trivial) nofun ?_ rfl rfl
  rw [taken_nil nofun]
  exact .close hst _

/-- Each turn of an end is a step of the party. -/
lemma move_step (hx : x.Ready) (hfit : a.Fits) (h : x.move tls y a = .ok (some (x', y'))) :
    x'.Ready ∧ y'.session = y.session ∧ ∃ l, Peer.Step l x.peer y.peer x'.peer y'.peer ∧
      (l = .close → x.Closes a) ∧ (l = .segment → x.SendsSegment a) := by
  obtain ⟨ev, s, _, hev, ht, hafter⟩ := move_eq_ok h
  obtain ⟨_, s1, es1, _, hi, hb, hset, rfl⟩ := turn_eq_ok ht
  have hbranch : BranchStep x y a ev s1 es1 := by
    cases a with
    | read =>
      obtain ⟨_, hm, rfl⟩ := Option.map_eq_some_iff.mp hev
      obtain ⟨_, hin⟩ := List.head?_eq_some_iff.mp hm
      obtain ⟨hstep, hk, hw⟩ := read_step (y := y) hin hi hb
      refine ⟨hk, .quiet, ?_, nofun, nofun⟩
      rw [taken_nil nofun, unread, hin, hw, append_nil]
      exact hstep
    | send => cases hev; exact send_branchStep hb
    | transfer => cases hev; exact transfer_branchStep hfit hb
    | tick => cases hev; exact tick_branchStep hx hb
    | close => cases hev; exact close_branchStep hb
  obtain ⟨hk, l, hstep, hclose, hsegment⟩ := hbranch
  obtain ⟨hx', hy'⟩ := peer_after x y ev es1 hset
  rw [← hx', ← hy', ← hafter] at hstep
  have hs : x'.session = s := congrArg (fun p => p.1.session) hafter
  have hy : y'.session = y.session := congrArg (fun p => p.2.session) hafter
  exact ⟨ready_of_step hx hset hk hs hstep, hy, l, hstep, hclose, hsegment⟩

/-- The one of two that an action is about. -/
def mover {σ : Type} (b : Bool) (p : σ × σ) : σ := if b then p.1 else p.2

/-- A run of two sessions is a run of two parties, if what is allowed of the sessions is permitted of the parties. -/
lemma reaches_peer {init : End ρ × End ρ → Prop}
    (permitted : Peer × Peer → Bool × Label → Prop) (hinit : ∀ p, init p → p.1.Ready ∧ p.2.Ready)
    (hallow : ∀ p b a l, allowed p (b, a) → (l = .close → (mover b p).Closes a) →
      (l = .segment → (mover b p).SendsSegment a) → permitted (p.map peer peer) (b, l))
    (h : (system tls init).Reaches allowed p) :
    (Peer.system (fun q => ∃ p, init p ∧ q = p.map peer peer)).Reaches permitted (p.map peer peer) := by
  have hsim : ∃ q, (Peer.system (fun q => ∃ p, init p ∧ q = p.map peer peer)).Reaches permitted q ∧
      q = p.map peer peer ∧ p.1.Ready ∧ p.2.Ready := by
    refine h.simulated (fun p q => q = p.map peer peer ∧ p.1.Ready ∧ p.2.Ready) ?_ ?_
    · intro p hp
      exact ⟨_, ⟨p, hp, rfl⟩, rfl, hinit p hp⟩
    · rintro ⟨_, _⟩ ⟨b, _⟩ ⟨x', y'⟩ q ⟨rfl, hx, hy⟩ - ha ⟨hfit, hstep⟩
      cases b with
      | true =>
        obtain ⟨hx', hy', l, hl, hclose, hseg⟩ := move_step hx hfit hstep
        exact ⟨(x'.peer, y'.peer), .inr ⟨(true, l), hallow _ _ _ _ ha hclose hseg, hl⟩, rfl, hx',
          by rw [Ready, hy']; exact hy⟩
      | false =>
        obtain ⟨hy', hx', l, hl, hclose, hseg⟩ := move_step hy hfit hstep
        exact ⟨(x'.peer, y'.peer), .inr ⟨(false, l), hallow _ _ _ _ ha hclose hseg, hl⟩, rfl,
          by rw [Ready, hx']; exact hx, hy'⟩
  obtain ⟨_, hq, rfl, -⟩ := hsim
  exact hq

section Runs

variable {init : End ρ × End ρ → Prop} {allowed : End ρ × End ρ → Bool × Act ρ → Prop}

lemma Reaches.fst (h : (system tls init).Reaches allowed (x, y)) (a : Act ρ) (ha : allowed (x, y) (true, a))
    (hfit : a.Fits) (hs : x.move tls y a = .ok (some (x', y'))) : (system tls init).Reaches allowed (x', y') :=
  .step h ha ⟨hfit, hs⟩

lemma Reaches.snd (h : (system tls init).Reaches allowed (x, y)) (a : Act ρ) (ha : allowed (x, y) (false, a))
    (hfit : a.Fits) (hs : y.move tls x a = .ok (some (y', x'))) : (system tls init).Reaches allowed (x', y') :=
  .step h ha ⟨hfit, hs⟩

end Runs

end End

end Dtn.Tcpcl
