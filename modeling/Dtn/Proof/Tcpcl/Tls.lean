import Dtn.Proof.Tcpcl.Codec
import Dtn.Proof.Tcpcl.Line

/-!
# TLS comes before identity

The turn that completes the contact headers decides about TLS. So if both
parties offer it, no other message is sent or read on the plain stream, the
reader of the TLS stream goes through its bytes alone (`Replay`), and no node id
is published that the certificate is not for (`tls_before_identity`).
-/

namespace Dtn.Tcpcl

open List StateMachine Session

variable {ρ : Type} {sm sm' : StateMachine} {cs : List Call}
variable {c : Codec} {src rest : List UInt8} {o : Option Messages} {ch : ContactHeader}

/-! ## The invariant -/

/-- Keepalives aside, the contact headers are there from the second step of the handshake on. -/
lemma StateMachine.contactHeaderDone_eq (h : sm.state.wrapped = true → sm.state.progress = 4) :
    sm.contactHeaderDone = decide (2 ≤ sm.state.progress) := by
  unfold contactHeaderDone
  generalize sm.state = s at h
  cases s with
  | sendKeepalive =>
    rw [h rfl]
    rfl
  | _ => rfl

lemma Codec.decode_done (h : c.decode src = .ok (o, c', rest))
    (hc : c.contactHeaderDone = true) : c'.contactHeaderDone = true := by
  have hcurrent : ∀ {t src}, decodeCurrent t src = .ok (o, c', rest) → c'.contactHeaderDone = true := by
    intro t src h
    obtain ⟨⟨_, _⟩, -, h⟩ := Outcome.bind_eq_ok.mp h
    cases h
    rfl
  unfold decode at h
  simp only [hc, Bool.not_true, Bool.false_eq_true, if_false] at h
  split at h
  · cases h
    exact hc
  · split at h
    · exact hcurrent h
    · cases h
  · exact hcurrent h

lemma Codec.decode_default_eq (h : default.decode src = .ok (o, c', rest)) : c' = ⟨o.isSome, none⟩ := by
  grind [decode_default]

lemma Writing.header (h : Writing sm m sm1 sm2) (hm : m = .contactHeader ch) : ch = .new sm.canTls := by
  cases h <;> cases hm <;> rfl

lemma run_messages (h : calls.Run sm cs sm') (hm : .contactHeader ch ∈ Call.messages cs) : ch = .new sm.canTls := by
  induction h with
  | nil => cases hm
  | @cons _ _ _ _ _ hc _ ih =>
    have hc := Calls.called hc
    rw [← hc.settings_eq.2]
    rw [Call.messages, filterMap_cons] at hm
    split at hm
    · exact ih hm
    · rename_i m hmsg
      rcases mem_cons.mp hm with rfl | hm
      · rw [hc.settings_eq.2]
        cases hc with
        | sent hw | dropped hw => cases hmsg; exact hw.header rfl
        | _ => cases hmsg
      · exact ih hm

namespace Line

variable {tls : Tls} {p p' : Line ρ}
variable {buf : List UInt8} {e : Entry} {es : List (Effect ρ)} {s' : Session ρ} {ev : Event ρ}

/-- Before both contact headers are there. -/
structure Before (p : Line ρ) : Prop where
  layer : p.layer = .plain
  peerSessInit : p.session.statemachine.peerSessInit = none
  log : ∀ e ∈ p.log, e.1 = .plain ∧ e.2.isHeader = true
  codec : p.codec = ⟨p.session.statemachine.peerContactHeader.isSome, none⟩
  peer : p.session.statemachine.state ≠ .passiveSendContactHeader → p.session.statemachine.peerContactHeader = none

/-- Behind an upgrade. -/
structure Secured (tls : Tls) (p : Line ρ) : Prop where
  use : (p.session.statemachine.shouldUseTls : Outcome Exit _) = .ok true
  log : ∀ e, (.plain, e) ∈ p.log → e.isHeader = true
  replay : Replay p.arrived (results (entriesOn .tls p.log)) p.codec p.buffer
  valid : ∀ si ∈ p.session.statemachine.peerSessInit, tls.validatePeerCertificate si.nodeId = true

/-- With both contact headers. -/
structure Behind (tls : Tls) (p : Line ρ) : Prop where
  done : p.codec.contactHeaderDone = true
  plain : p.layer = .plain → (p.session.statemachine.shouldUseTls : Outcome Exit _) = .ok false
  secured : p.layer = .tls → Secured tls p

structure Good (tls : Tls) (p : Line ρ) : Prop where
  known : Known p.session.statemachine.exchanged p.session.statemachine.state
  wrapped : p.session.statemachine.state.wrapped = true → p.session.statemachine.state.progress = 4
  keepalive : p.session.initializedKeepalive = true → p.session.statemachine.state.progress = 4
  my : ∀ ch ∈ p.session.statemachine.myContactHeader, ch = .new p.session.statemachine.canTls
  init : p.session.initializedTls = decide (2 ≤ p.session.statemachine.state.progress)
  sentHeader : ∀ l ch, (l, .sent (.contactHeader ch)) ∈ p.log → ch = .new p.session.statemachine.canTls
  readHeader : ∀ l ch, (l, .read (.ok (.contactHeader ch))) ∈ p.log →
    p.session.statemachine.peerContactHeader = some ch
  before : p.session.statemachine.state.progress < 2 → Before p
  behind : 2 ≤ p.session.statemachine.state.progress → Behind tls p
  published : ∀ n mru, (.tls, .established n mru) ∈ p.log → tls.validatePeerCertificate n = true

lemma Good.not_wrapped (h : Good tls p) (hp : p.session.statemachine.state.progress < 2) :
    p.session.statemachine.state.wrapped = false := by grind [h.wrapped]

lemma Good.not_keepalive (h : Good tls p) (hp : p.session.statemachine.state.progress < 2) :
    p.session.initializedKeepalive = false := by grind [h.keepalive]

lemma Good.of_new (hp : (system tls).init p) : Good tls p := by
  obtain ⟨_, _, rfl | rfl⟩ := hp
  all_goals exact ⟨trivial, nofun, nofun, nofun, rfl, nofun, nofun,
    fun _ => ⟨rfl, rfl, nofun, rfl, fun _ => rfl⟩, nofun, nofun⟩

/-! ### Bytes and dropped sends -/

lemma Good.fill (h : Good tls p) (w : List UInt8) :
    Good tls { p with buffer := p.buffer ++ w, arrived := p.arrived ++ w } := by
  refine { h with before := fun hp => ?_, behind := fun hp => ?_ }
  · obtain ⟨hl, hpi, hlog, hc, hpeer⟩ := h.before hp
    exact ⟨hl, hpi, hlog, hc, hpeer⟩
  · obtain ⟨hd, hplain, hsec⟩ := h.behind hp
    refine ⟨hd, hplain, fun hl => ?_⟩
    obtain ⟨huse, hlog, hre, hv⟩ := hsec hl
    exact ⟨huse, hlog, hre.fill w, hv⟩

lemma Good.wait (h : Good tls p) (hi : (p.session.statemachine.getInterests : Outcome Exit _) = .ok i)
    (hr : i.readable = true) (hd : p.codec.decode p.buffer = .ok (none, c, buf)) :
    Good tls { p with codec := c, buffer := buf } := by
  refine { h with before := fun hp => ?_, behind := fun hp => ?_ }
  · obtain ⟨hl, hpi, hlog, hc, hpeer⟩ := h.before hp
    have hnone : p.session.statemachine.peerContactHeader = none := by
      refine hpeer fun hst => ?_
      have hreads := States.reads_of_interests hi hr
      rw [hst] at hreads
      cases hreads
    refine ⟨hl, hpi, hlog, ?_, hpeer⟩
    rw [hc, hnone] at hd
    rw [Codec.decode_default_eq hd, hnone]
    rfl
  · obtain ⟨hdone, hplain, hsec⟩ := h.behind hp
    refine ⟨Codec.decode_done hd hdone, hplain, fun hl => ?_⟩
    obtain ⟨huse, hlog, hre, hv⟩ := hsec hl
    exact ⟨huse, hlog, hre.wait hd, hv⟩

/-! ### Behind the contact headers -/

lemma entriesOn_append (l : Layer) (log : List (Layer × Entry)) (es : List Entry) :
    entriesOn l (log ++ es.map (l, ·)) = entriesOn l log ++ es := by
  have hall : (es.map (l, ·)).filter (·.1 == l) = es.map (l, ·) := by
    rw [filter_eq_self]
    simp
  rw [entriesOn, filter_append, map_append, hall, map_map]
  exact congrArg (_ ++ ·) (map_id es)

/-- The entries `es` on the current layer, and a session that keeps what was agreed about TLS. -/
lemma Good.late (h : Good tls p) (hp : 2 ≤ p.session.statemachine.state.progress) (es : List Entry)
    (hset : Settles p.session.statemachine s'.statemachine)
    (hknown : Known s'.statemachine.exchanged s'.statemachine.state)
    (hwrapped : s'.statemachine.state.wrapped = true → s'.statemachine.state.progress = 4)
    (hkeep : s'.initializedKeepalive = true → s'.statemachine.state.progress = 4) (hinit : s'.initializedTls = true)
    (hsent : ∀ ch, .sent (.contactHeader ch) ∈ es → ch = .new p.session.statemachine.canTls)
    (hread : ∀ ch, .read (.ok (.contactHeader ch)) ∉ es) (hdone : c.contactHeaderDone = true)
    (hreplay : ∀ rs, Replay p.arrived rs p.codec p.buffer → Replay p.arrived (rs ++ results es) c buf)
    (hvalid : Secured tls p → ∀ si ∈ s'.statemachine.peerSessInit, tls.validatePeerCertificate si.nodeId = true)
    (hpub : ∀ n mru, .established n mru ∈ es → ∃ si ∈ s'.statemachine.peerSessInit, si.nodeId = n) :
    Good tls ⟨s', c, buf, p.layer, p.arrived, p.log ++ es.map (p.layer, ·)⟩ := by
  have hb := h.behind hp
  refine ⟨hknown, hwrapped, hkeep, ?_, ?_, ?_, ?_, fun hlt => absurd hlt (Nat.not_lt.mpr hset.progress),
    fun _ => ⟨hdone, ?_, ?_⟩, ?_⟩
  · dsimp only
    rw [hset.my, hset.canTls]
    exact h.my
  · rw [hinit, decide_eq_true hset.progress]
  · grind [h.sentHeader, hset.canTls]
  · grind [h.readHeader, hset.peer]
  · intro hl
    rw [hset.shouldUseTls]
    exact hb.plain hl
  · intro hl
    have hl : p.layer = .tls := hl
    have hs := hb.secured hl
    refine ⟨?_, ?_, ?_, hvalid hs⟩
    · rw [hset.shouldUseTls]
      exact hs.use
    · grind [hs.log]
    · grind [hs.replay, entriesOn_append, results]
  · grind [h.published, hb.secured]

lemma Good.drop (h : Good tls p) (hm : (p.session.statemachine.sendMessage : Outcome Exit _) = .ok (sm, some m)) :
    Good tls { p with session := { p.session with statemachine := sm }, log := p.log ++ [(p.layer, .sent m)] } := by
  obtain ⟨_, -, hwr⟩ := sendMessage_cases hm
  have hc : Called p.session.statemachine (.dropped m) sm := .dropped hwr
  by_cases hp : 2 ≤ p.session.statemachine.state.progress
  · refine h.late hp [.sent m] (hc.settles hp) (hc.known rfl h.known) (hc.wrapped_past h.wrapped nofun) ?_
      (h.init.trans (decide_eq_true hp)) ?_ (by simp) (h.behind hp).done (fun rs hrs => ?_) (fun hs => ?_) (by simp)
    · intro hk
      have hp' := h.keepalive hk
      exact Nat.le_antisymm sm.state.progress_le (hp' ▸ hc.progress_le)
    · intro ch hmem
      cases mem_singleton.mp hmem
      exact hwr.header rfl
    · exact (append_nil rs).symm ▸ hrs
    · rcases hc.peerSessInit_eq with heq | ⟨si, hdec, -⟩
      · dsimp only
        rw [heq]
        exact hs.valid
      · cases hdec
  · have hlt := Nat.lt_of_not_le hp
    have hbef := h.before hlt
    obtain ⟨rfl, rfl⟩ : m = .contactHeader (.new p.session.statemachine.canTls) ∧
        sm = { p.session.statemachine with myContactHeader := some (.new p.session.statemachine.canTls) } := by
      cases hwr with
      | activeHeader | passiveHeader => exact ⟨rfl, rfl⟩
      | keepalive hst =>
        have := h.not_wrapped hlt
        rw [hst] at this
        cases this
      | _ => grind [States.progress]
    refine ⟨hc.known rfl h.known, h.wrapped, h.keepalive, ?_, h.init, ?_, ?_, fun _ =>
      { hbef with log := ?_ }, fun hp' => absurd hp' hp, ?_⟩
    · rintro ch ⟨⟩
      rfl
    · grind [h.sentHeader]
    · grind [h.readHeader]
    · have hlayer := hbef.layer
      have hlog := hbef.log
      grind [Entry.isHeader]
    · have hlog := hbef.log
      grind

/-! ### Turns -/

lemma mem_published (hes : published es = []) :
    e ∈ published (es ++ es') ↔ e ∈ published es' := by grind [published]

lemma mem_exchanged : e ∈ exchanged ev es ↔
    (∃ r, ev.message = some r ∧ e = .read r) ∨ ∃ m ∈ Effect.writes es, e = .sent m := by simp [eq_comm, exchanged]

lemma mem_published_iff (h : e ∈ published es) : ∃ n mru, e = .established n mru := by
  obtain ⟨x, -, hx⟩ := mem_filterMap.mp h
  cases x <;> cases hx
  exact ⟨_, _, rfl⟩

lemma results_entries (ev : Event ρ) (es : List (Effect ρ)) :
    results (exchanged ev es ++ published es) = ev.message.toList := by
  have hsent : ∀ ms : List Messages, results (ms.map .sent) = [] := by
    intro ms
    induction ms with
    | nil => rfl
    | cons _ _ ih => exact ih
  have hpub : results (published es) = [] := by
    refine filterMap_eq_nil_iff.mpr fun e he => ?_
    obtain ⟨_, _, rfl⟩ := mem_published_iff he
    rfl
  rw [results, filterMap_append, ← results, ← results, hpub, append_nil, exchanged, results,
    filterMap_append, ← results, ← results, hsent, append_nil]
  cases ev.message <;> rfl

lemma Good.turn_late (h : Good tls p) (hp : 2 ≤ p.session.statemachine.state.progress) (hr : Reads p ev c buf)
    (ht : p.session.turn tls ev = .ok (some (s', es))) : Good tls (p.after ev s' es c buf) := by
  obtain ⟨_, s1, es1, es2, hi, hb, htop, rfl⟩ := turn_eq_loopTop ht
  obtain ⟨cs, hcs⟩ := branch_calls hi hb
  obtain ⟨htls, hkeep, _⟩ := branch_frame hb
  obtain ⟨hinit, _⟩ := loopTop_tls htop
  have hsettled := loopTop_eq_ok htop
  have hsm := hsettled.statemachine
  have hset := run_late hcs.run hp
  have hpast : s1.initializedKeepalive = true → s1.statemachine.state.progress = 4 := by
    intro hk
    exact Nat.le_antisymm s1.statemachine.state.progress_le (h.keepalive (hkeep ▸ hk) ▸ run_progress_le hcs.run)
  have hold : p.session.initializedTls = true := h.init.trans (decide_eq_true hp)
  have hafter : p.after ev s' (es1 ++ es2) c buf = ⟨s', c, buf, p.layer, p.arrived,
      p.log ++ (exchanged ev (es1 ++ es2) ++ Line.published (es1 ++ es2)).map (p.layer, ·)⟩ := by
    grind [upgrades, after]
  have hdone := (h.behind hp).done
  have hw : Effect.writes (es1 ++ es2) = Call.messages cs := by
    rw [Effect.writes_append, hsettled.writes, append_nil, hcs.messages]
  rw [hafter]
  refine h.late hp _ (hsm ▸ hset) ?_ ?_ ?_ ?_ ?_ ?_ ?_ ?_ ?_ ?_
  · rw [hsm]
    exact run_known hcs.run hcs.acks h.known
  · grind [h.wrapped, hcs.run, hcs.keepalive, run_wrapped]
  · intro hk
    rw [hsm]
    rcases hsettled.initializedKeepalive hk with hk | hest
    · exact hpast hk
    · rw [isEstablished_iff.mp hest]
      rfl
  · rw [hinit, htls, hold]
    rfl
  · grind [hcs.run, mem_exchanged, run_messages, mem_published_iff]
  · intro ch hmem
    rcases mem_append.mp hmem with hmem | hmem
    · rcases mem_exchanged.mp hmem with ⟨_, hmsg, he⟩ | ⟨_, -, he⟩
      · cases he
        cases hr with
        | message hd =>
          cases hmsg
          exact (Codec.decode_message hd hdone).1 ch rfl
        | error | io => cases hmsg
        | other hother => cases hother.symm.trans hmsg
      · cases he
    · grind [mem_published_iff]
  · cases hr with
    | message hd => exact Codec.decode_done hd hdone
    | _ => exact hdone
  · intro rs hrs
    rw [results_entries]
    cases hr with
    | message hd => exact hrs.message hd
    | error hd => exact hrs.error hd
    | io => exact hrs.io
    | other hother =>
      rw [hother]
      exact (append_nil rs).symm ▸ hrs
  · intro hs
    rw [hsm]
    rcases branch_peerSessInit hi hb with heq | ⟨si, b, hsi, huse, hval⟩
    · rw [heq]
      exact hs.valid
    · grind [hset.my, hset.peer, hs.use, shouldUseTls_iff]
  · grind [mem_exchanged, mem_published]

/-- The session `s'` that a turn before the contact headers are complete leaves behind: it may have them now. -/
structure Greets (p : Line ρ) (s' : Session ρ) (c : Codec) (es : List Entry) : Prop where
  canTls : s'.statemachine.canTls = p.session.statemachine.canTls
  known : Known s'.statemachine.exchanged s'.statemachine.state
  wrapped : s'.statemachine.state.wrapped = false
  progress : s'.statemachine.state.progress ≤ 2
  keepalive : s'.initializedKeepalive = false
  init : s'.initializedTls = decide (2 ≤ s'.statemachine.state.progress)
  my : ∀ ch ∈ s'.statemachine.myContactHeader, ch = .new p.session.statemachine.canTls
  peer : ∀ ch, p.session.statemachine.peerContactHeader = some ch → s'.statemachine.peerContactHeader = some ch
  peerSessInit : s'.statemachine.peerSessInit = none
  codec : c = ⟨s'.statemachine.peerContactHeader.isSome, none⟩
  awaited : s'.statemachine.state.progress < 2 → s'.statemachine.state ≠ .passiveSendContactHeader →
    s'.statemachine.peerContactHeader = none
  entries : ∀ e ∈ es, e = .sent (.contactHeader (.new p.session.statemachine.canTls)) ∨
    ∃ ch, e = .read (.ok (.contactHeader ch)) ∧ s'.statemachine.peerContactHeader = some ch

lemma Greets.headers {es : List Entry} (h : Greets p s' c es)
    (hp : 2 ≤ s'.statemachine.state.progress) : Headers s'.statemachine.exchanged true := by
  have hk := h.known
  have hw := h.wrapped
  have hle := h.progress
  generalize s'.statemachine.state = st at hp hk hw hle
  cases st with
  | activeSendSessInit | passiveWaitSessInit => exact hk
  | sendKeepalive => cases hw
  | activeSendContactHeader | passiveWaitContactHeader | activeWaitContactHeader | passiveSendContactHeader =>
    exact absurd hp (by decide)
  | _ => exact absurd hle (by simp [States.progress])

/-- The contact headers decide about TLS. -/
lemma Good.greets (h : Good tls p) (hp : p.session.statemachine.state.progress < 2) {es : List Entry}
    (hg : Greets p s' c es) (buf : List UInt8) :
    Good tls (if upgrades p.session s' then ⟨s', c, [], .tls, [], p.log ++ es.map (p.layer, ·)⟩
      else ⟨s', c, buf, p.layer, p.arrived, p.log ++ es.map (p.layer, ·)⟩) := by
  have hbef := h.before hp
  have hlog : ∀ e ∈ p.log ++ es.map (p.layer, ·), e.1 = .plain ∧ e.2.isHeader = true := by
    rw [forall_mem_append]
    refine ⟨hbef.log, ?_⟩
    rintro ⟨l, e⟩ he
    obtain ⟨_, he', heq⟩ := mem_map.mp he
    cases heq
    refine ⟨hbef.layer, ?_⟩
    rcases hg.entries e he' with rfl | ⟨ch, rfl, -⟩ <;> rfl
  have hsent : ∀ l ch, (l, .sent (.contactHeader ch)) ∈ p.log ++ es.map (p.layer, ·) →
      ch = .new s'.statemachine.canTls := by grind [h.sentHeader, hg.canTls, hg.entries]
  have hread : ∀ l ch, (l, .read (.ok (.contactHeader ch))) ∈ p.log ++ es.map (p.layer, ·) →
      s'.statemachine.peerContactHeader = some ch := by grind [h.readHeader, hg.peer, hg.entries]
  have hwrapped : s'.statemachine.state.wrapped = true → s'.statemachine.state.progress = 4 :=
    fun hw => absurd (hg.wrapped.symm.trans hw) (by decide)
  have hkeep : s'.initializedKeepalive = true → s'.statemachine.state.progress = 4 :=
    fun hk => absurd (hg.keepalive.symm.trans hk) (by decide)
  have hmy : ∀ ch ∈ s'.statemachine.myContactHeader, ch = .new s'.statemachine.canTls := hg.canTls ▸ hg.my
  have hpub : ∀ n mru, (.tls, .established n mru) ∈ p.log ++ es.map (p.layer, ·) →
      tls.validatePeerCertificate n = true := fun n mru hmem => by cases (hlog _ hmem).1
  have hinit : p.session.initializedTls = false := h.init.trans (decide_eq_false (Nat.not_le.mpr hp))
  by_cases hp' : 2 ≤ s'.statemachine.state.progress
  · have hh := hg.headers hp'
    have hdone : c = ⟨true, none⟩ := by rw [hg.codec, show s'.statemachine.peerContactHeader.isSome from hh.peer]
    have hinit' : s'.initializedTls = true := hg.init.trans (decide_eq_true hp')
    obtain ⟨b, hb⟩ := shouldUseTls_eq_ok (ε := Exit) hh
    cases b with
    | true =>
      have hup : upgrades p.session s' = true := by rw [upgrades, hinit, hinit', hb]; rfl
      rw [hup]
      refine ⟨hg.known, hwrapped, hkeep, hmy, hg.init, hsent, hread, fun hlt => absurd hp' (Nat.not_le.mpr hlt),
        fun _ => ⟨congrArg Codec.contactHeaderDone hdone, nofun, fun _ => ⟨hb, fun e he => (hlog _ he).2, ?_, ?_⟩⟩,
          hpub⟩
      · have hnone : entriesOn .tls (p.log ++ es.map (p.layer, ·)) = [] := by grind [filter_eq_nil_iff, entriesOn]
        change Replay [] (results (entriesOn .tls (p.log ++ es.map (p.layer, ·)))) c []
        rw [hnone, hdone]
        exact .start
      · grind [hg.peerSessInit]
    | false =>
      have hup : upgrades p.session s' = false := by rw [upgrades, hinit, hinit', hb]; rfl
      rw [hup]
      exact ⟨hg.known, hwrapped, hkeep, hmy, hg.init, hsent, hread, fun hlt => absurd hp' (Nat.not_le.mpr hlt),
        fun _ => ⟨congrArg Codec.contactHeaderDone hdone, fun _ => hb, fun hl => absurd (hbef.layer.symm.trans hl)
          (by decide)⟩, hpub⟩
  · have hup : upgrades p.session s' = false := by grind [hg.init, upgrades]
    rw [hup]
    exact ⟨hg.known, hwrapped, hkeep, hmy, hg.init, hsent, hread,
      fun hlt => ⟨hbef.layer, hg.peerSessInit, hlog, hg.codec, hg.awaited hlt⟩, fun hle => absurd hle hp', hpub⟩

lemma Good.turn_early (h : Good tls p) (hp : p.session.statemachine.state.progress < 2) (hr : Reads p ev c buf)
    (ht : p.session.turn tls ev = .ok (some (s', es))) : Good tls (p.after ev s' es c buf) := by
  obtain ⟨_, s1, es1, es2, hi, hb, htop, rfl⟩ := turn_eq_loopTop ht
  obtain ⟨_, hcs⟩ := branch_calls hi hb
  obtain ⟨_, hkeep, hnone⟩ := branch_frame hb
  obtain ⟨_, _⟩ := loopTop_tls htop
  have hsettled := loopTop_eq_ok htop
  have hsm := hsettled.statemachine
  have hbef := h.before hp
  have hearly := branch_early hi hb hp (h.not_wrapped hp) (h.not_keepalive hp)
  have hknown := run_known hcs.run hcs.acks h.known
  have hentry : ∀ e ∈ exchanged ev (es1 ++ es2), (∃ r, ev.message = some r ∧ e = .read r) ∨
      ∃ m ∈ Effect.writes es1, e = .sent m := by grind [hsettled.writes, mem_exchanged, Effect.writes]
  have hpi : s1.statemachine.peerSessInit = none := hearly.peerSessInit.trans hbef.peerSessInit
  have hnopub : Line.published (es1 ++ es2) = [] := by simp_all [eq_nil_iff_forall_not_mem, mem_published]
  have hwr := hearly.not_wrapped (h.not_wrapped hp)
  have hk : s'.initializedKeepalive = false := by
    by_contra hk
    rcases hsettled.initializedKeepalive (eq_true_of_ne_false hk) with hk | hest
    · cases (h.not_keepalive hp).symm.trans (hkeep ▸ hk)
    · have hle := hearly.progress_le hp
      rw [isEstablished_iff.mp hest] at hle
      exact absurd hle (by decide)
  have hit : s'.initializedTls = decide (2 ≤ s1.statemachine.state.progress) := by grind [h.init, contactHeaderDone_eq]
  have hgreets : Greets p s' c (exchanged ev (es1 ++ es2)) := by
    refine ⟨?_, ?_, ?_, ?_, hk, ?_, ?_, ?_, ?_, ?_, ?_, ?_⟩ <;> rw [hsm]
    · exact hearly.canTls
    · exact hknown
    · exact hwr
    · exact hearly.progress_le hp
    · exact hit
    · exact hearly.my h.my
    · intro ch hch
      rcases hearly.peer with ⟨-, heq⟩ | ⟨_, -, -, hst⟩
      · rw [heq, hch]
      · cases (hbef.peer hst).symm.trans hch
    · exact hpi
    · rcases hearly.peer with ⟨hmsg, heq⟩ | ⟨ch, hmsg, heq, hst⟩
      · rw [heq, ← hbef.codec]
        cases hr <;> first | rfl | cases hmsg
      · cases hr with
        | message hd =>
          rw [hbef.codec, hbef.peer hst] at hd
          rw [heq]
          exact Codec.decode_default_eq hd
        | error | io => cases hmsg
        | other hother => cases hother.symm.trans hmsg
    · exact hearly.awaited hbef.peer
    · intro e he
      rcases hentry e he with ⟨_, hmsg, rfl⟩ | ⟨_, hm, rfl⟩
      · rcases hearly.peer with ⟨hnone, -⟩ | ⟨_, _, _, -⟩
        · cases hnone.symm.trans hmsg
        · grind
      · exact .inl (congrArg Entry.sent (hearly.writes hm))
  have hg := h.greets hp hgreets buf
  simpa only [after, hnopub, map_nil, append_nil] using hg

lemma Good.step (h : Good tls p) (hs : Step tls p a p') : Good tls p' := by
  cases hs with
  | fill w => exact h.fill w
  | wait hi hr hd => exact h.wait hi hr hd
  | drop _ _ hm => exact h.drop hm
  | turn hr ht =>
    by_cases hp : 2 ≤ p.session.statemachine.state.progress
    · exact h.turn_late hp hr ht
    · exact h.turn_early (Nat.lt_of_not_le hp) hr ht

lemma Good.of_reaches (h : (system tls).Reaches (fun _ _ => True) p) : Good tls p :=
  h.invariant (Good tls) (fun _ hp => .of_new hp) fun _ _ _ hp _ hs => hp.step hs

end Line

/-- In every run of a session: if both parties have announced TLS, nothing but contact headers is sent, read or
published on the plain stream; all that is read on the TLS stream is read from its bytes; and a node id that is
published on it is one that the certificate was accepted for. -/
theorem tls_before_identity {tls : Tls} {p : Line ρ} (h : (Line.system tls).Reaches (fun _ _ => True) p) :
    (∀ l l' my peer, (l, .sent (.contactHeader my)) ∈ p.log → (l', .read (.ok (.contactHeader peer))) ∈ p.log →
      my.canTls = true → peer.canTls = true → ∀ e, (.plain, e) ∈ p.log → e.isHeader = true) ∧
    (p.layer = .tls → Replay p.arrived (Line.results (Line.entriesOn .tls p.log)) p.codec p.buffer) ∧
    (∀ nodeId mru, (.tls, .established nodeId mru) ∈ p.log → tls.validatePeerCertificate nodeId = true) := by
  have hg := Line.Good.of_reaches h
  refine ⟨fun l l' my peer hmy hpeer hmt hpt e he => ?_, fun hl => ?_, hg.published⟩
  · by_cases hp : 2 ≤ p.session.statemachine.state.progress
    · have hb := hg.behind hp
      cases hl : p.layer with
      | plain =>
        -- the headers in the log are the ones that TLS was decided on
        obtain ⟨my', peer', hmy', hpeer', hand⟩ := shouldUseTls_iff.mp (hb.plain hl)
        cases hpeer'.symm.trans (hg.readHeader l' peer hpeer)
        rw [hg.my my' hmy', ← hg.sentHeader l my hmy, hmt, hpt] at hand
        cases hand
      | tls => exact (hb.secured hl).log e he
    · exact ((hg.before (Nat.lt_of_not_le hp)).log _ he).2
  · by_cases hp : 2 ≤ p.session.statemachine.state.progress
    · exact ((hg.behind hp).secured hl).replay
    · cases (hg.before (Nat.lt_of_not_le hp)).layer.symm.trans hl

/-- An active session up to the SESS_INIT of the peer `b`, over TLS. -/
theorem tls_before_identity_active : ∃ p : Line Unit,
    (Line.system ⟨true, fun n => n == "b"⟩).Reaches (fun _ _ => True) p ∧ p.layer = .tls ∧
      (∃ mru, (.tls, .established "b" mru) ∈ p.log) ∧ ∀ e, (.plain, e) ∈ p.log → e.isHeader = true := by
  have h0 : (Line.system ⟨true, fun n => n == "b"⟩).Reaches (fun _ _ => True)
      (Line.new (.newActive "a" true) : Line Unit) := .init ⟨"a", true, .inl rfl⟩
  have hinit : Codec.decode ⟨true, none⟩
      [7, 0, 60, 0, 0, 0, 0, 0, 0, 0, 10, 0, 0, 0, 0, 0, 0, 0, 10, 0, 1, 98, 0, 0, 0, 0] =
      .ok (some (.sessInit ⟨60, 10, 10, "b", []⟩), ⟨true, none⟩, []) := by decide
  have h1 := h0.step trivial (show Line.Step _ _ (.turn .send) _ from .turn (.other rfl) rfl)
  have h2 := h1.step trivial (.fill [0x64, 0x74, 0x6E, 0x21, 4, 1])
  have h3 := h2.step trivial (.turn (.message (m := .contactHeader ⟨4, true⟩) rfl) rfl)
  have h4 := h3.step trivial (show Line.Step _ _ (.turn .send) _ from .turn (.other rfl) rfl)
  have h5 := h4.step trivial (.fill [7, 0, 60, 0, 0, 0, 0, 0, 0, 0, 10, 0, 0, 0, 0, 0, 0, 0, 10, 0, 1, 98, 0, 0, 0, 0])
  have h6 := h5.step trivial (.turn (.message hinit) rfl)
  have hplain := (tls_before_identity h6).1 .plain .plain ⟨4, true⟩ ⟨4, true⟩ (by decide) (by decide) rfl rfl
  exact ⟨_, h6, rfl, ⟨10, by decide⟩, hplain⟩

end Dtn.Tcpcl
