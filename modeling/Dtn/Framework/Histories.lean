import Mathlib.Data.List.Forall2
import Dtn.Framework.Pool

/-!
# What happened in a pool

A run of a service with its events. What is known of each program in the pool and
of the events so far may be kept beside the pool: `Tracks` says that each step
keeps it, and then it holds after every run (`run_tracked`).

The events of a program that runs alone are those of a run (`run_events`), and so
are those of requests that are processed one after the other (`run_history`,
`reaches_served`).
-/

namespace Dtn

open List

namespace Service

variable {C : Type → Type} {σ G H R α : Type}
variable {as : List (PoolEvent C R α)} {p : Pool C σ G α}

lemma forall₂_split {α β : Type*} {R : α → β → Prop} {xs : List α} {us vs : List β} {y : β}
    (h : List.Forall₂ R xs (us ++ y :: vs)) :
    ∃ as a bs, xs = as ++ a :: bs ∧ List.Forall₂ R as us ∧ R a y ∧ List.Forall₂ R bs vs := by
  have htake := forall₂_take_append xs us (y :: vs) h
  have hdrop := forall₂_drop_append xs us (y :: vs) h
  obtain ⟨a, bs, ha, hbs, hxs⟩ := forall₂_cons_right_iff.mp hdrop
  exact ⟨_, a, bs, by rw [← hxs, take_append_drop], htake, ha, hbs⟩

/-- Each program of the pool is known as `Q` has it, and `Inv` holds of the events, the state and what is known. -/
def Tracked (Q : H → Async C Empty α → Prop) (Inv : List (PoolEvent C R α) → σ → List H → Prop)
    (as : List (PoolEvent C R α)) (p : Pool C σ G α) : Prop :=
  ∃ hs, List.Forall₂ (fun h t => Q h t.program) hs p.tasks ∧ Inv as p.state hs

/-- What keeps such knowledge. -/
structure Tracks (V : Service C σ G R α) (Q : H → Async C Empty α → Prop)
    (Inv : List (PoolEvent C R α) → σ → List H → Prop) (allowed : Pool C σ G α → PoolEvent C R α → Prop) : Prop where
  request : ∀ as (p : Pool C σ G α) hs r, allowed p (.request r) → Inv as p.state hs →
    ∃ h, Q h (V.program r) ∧ Inv (as ++ [.request r]) p.state (hs ++ [h])
  call : ∀ as s (ts ts' : List (Task C G α)) us h vs {β : Type} (c : C β) (k : β → Async C Empty α) g b s',
    allowed ⟨s, ts ++ ⟨.await c k, g⟩ :: ts'⟩ (.call c) → List.Forall₂ (fun h t => Q h t.program) us ts →
    Q h (.await c k) → List.Forall₂ (fun h t => Q h t.program) vs ts' → Inv as s (us ++ h :: vs) →
    V.machine.perform c s = some (b, s') → ∃ h', Q h' (k b) ∧ Inv (as ++ [.call c]) s' (us ++ h' :: vs)
  panic : ∀ as (p : Pool C σ G α) us h vs {β : Type} (c : C β) (k : β → Async C Empty α), allowed p (.call c) →
    Q h (.await c k) → Inv as p.state (us ++ h :: vs) → V.machine.perform c p.state = none →
    ∃ h', Q h' (.done .panic) ∧ Inv (as ++ [.call c]) p.state (us ++ h' :: vs)
  finish : ∀ as s us h vs r, Q h (.done r) → Inv as s (us ++ h :: vs) → Inv (as ++ [.finish r]) s (us ++ vs)
  pass : ∀ as s s' hs, V.passes s s' → Inv as s hs → Inv (as ++ [.pass]) s' hs

variable {V : Service C σ G R α} {Q : H → Async C Empty α → Prop}
  {Inv : List (PoolEvent C R α) → σ → List H → Prop} {allowed : Pool C σ G α → PoolEvent C R α → Prop}

lemma Tracks.step (h : V.Tracks Q Inv allowed) (hp : Tracked Q Inv as p) (ha : allowed p a) (hstep : V.Step p a p') :
    Tracked Q Inv (as ++ [a]) p' := by
  obtain ⟨hs, hQ, hinv⟩ := hp
  cases hstep with
  | request r =>
    obtain ⟨x, hx, hinv⟩ := h.request as _ hs r ha hinv
    exact ⟨hs ++ [x], rel_append hQ (.cons hx .nil), hinv⟩
  | call _ _ hc =>
    obtain ⟨xs, x, ys, rfl, hus, hx, hvs⟩ := forall₂_split hQ
    obtain ⟨x', hx', hinv⟩ := h.call as _ _ _ xs x ys _ _ _ _ _ ha hus hx hvs hinv hc
    exact ⟨_, rel_append hus (.cons hx' hvs), hinv⟩
  | panic _ _ hc =>
    obtain ⟨xs, x, ys, rfl, hus, hx, hvs⟩ := forall₂_split hQ
    obtain ⟨_, hx', hinv⟩ := h.panic as _ xs x ys _ _ ha hx hinv hc
    exact ⟨_, rel_append hus (.cons hx' hvs), hinv⟩
  | finish _ _ r =>
    obtain ⟨xs, x, ys, rfl, hus, hx, hvs⟩ := forall₂_split hQ
    exact ⟨_, rel_append hus hvs, h.finish as _ xs x ys r hx hinv⟩
  | pass hs' => exact ⟨hs, hQ, h.pass _ _ _ _ hs' hinv⟩

lemma run_tracked (h : V.Tracks Q Inv allowed) (hinit : Inv [] init [])
    (hrun : ((V.system init).only allowed).Run ⟨init, []⟩ as p) : Tracked Q Inv as p :=
  System.Run.invariant (M := (V.system init).only allowed) (fun _ _ _ _ hp _ hstep => h.step hp hstep.1 hstep.2) hrun
    (fun _ _ => trivial) ⟨[], .nil, hinit⟩

end Service

/-! ## Programs that run alone -/

namespace Machine

variable {C : Type → Type} {R α σ : Type} (M : Machine C σ)

/-- The events of a program that runs alone. -/
def events : Async C Empty α → σ → List (PoolEvent C R α)
  | .done r, _ => [.finish r]
  | .await c k, s =>
    .call c :: match M.perform c s with
      | some (b, s') => events (k b) s'
      | none => [.finish .panic]

end Machine

namespace Service

variable {C : Type → Type} {σ G R α : Type} {V : Service C σ G R α} {allowed : Pool C σ G α → PoolEvent C R α → Prop}
  {f : {β : Type} → σ → G → C β → Bool} {init : σ}

/-- The events of requests that are processed one after the other. -/
def history (V : Service C σ G R α) : σ → List R → List (PoolEvent C R α)
  | _, [] => []
  | s, r :: rs => .request r :: V.machine.events (V.program r) s ++ history V (V.machine.run (V.program r) s).2 rs

/-- All calls of a program that runs alone are such, in the state and with the note that they are made with. -/
def all (V : Service C σ G R α) (f : {β : Type} → σ → G → C β → Bool) : Async C Empty α → σ → G → Bool
  | .done _, _, _ => true
  | .await c k, s, g =>
    f s g c && match V.machine.perform c s with
      | some (b, s') => all V f (k b) s' (V.note c b g)
      | none => true

lemma all_true (V : Service C σ G R α) (p : Async C Empty α) (s : σ) (g : G) :
    V.all (fun _ _ _ => true) p s g = true := by
  induction p generalizing s g with
  | done => rfl
  | await c _ ih =>
    rw [all, Bool.true_and]
    cases V.machine.perform c s with
    | none => rfl
    | some x => exact ih x.1 x.2 _

/-- The state after requests that are processed one after the other, if all their calls are such. -/
def served (V : Service C σ G R α) (f : {β : Type} → σ → G → C β → Bool) (s : σ) (rs : List R) : Option σ :=
  rs.foldlM (fun s r => if V.all f (V.program r) s V.start then some (V.machine.run (V.program r) s).2 else none) s

section

variable {s : σ} {ts : List (Task C G α)}
variable (hf : ∀ s g {β : Type} (c : C β) k, f s g c = true → allowed ⟨s, ts ++ [⟨.await c k, g⟩]⟩ (.call c))
  (hfinish : ∀ p r, allowed p (.finish r))

include hf hfinish

lemma run_events (hall : V.all f p s g = true) :
    ((V.system init).only allowed).Run ⟨s, ts ++ [⟨p, g⟩]⟩ (V.machine.events p s) ⟨(V.machine.run p s).2, ts⟩ := by
  have hdone (s : σ) (r : Outcome Empty α) (g : G) :
      ((V.system init).only allowed).Run ⟨s, ts ++ [⟨.done r, g⟩]⟩ [.finish r] ⟨s, ts⟩ := by
    have hstep := Step.finish (V := V) (s := s) ts [] r g
    rw [append_nil] at hstep
    exact .cons ⟨hfinish _ r, hstep⟩ .nil
  induction p generalizing s g with
  | done r => exact hdone s r g
  | await c _ ih =>
    rw [all, Bool.and_eq_true] at hall
    rw [Machine.events, Machine.run]
    cases hc : V.machine.perform c s with
    | none => exact .cons ⟨hf _ _ c _ hall.1, .panic ts [] hc⟩ (hdone s .panic g)
    | some x =>
      rw [hc] at hall
      exact .cons ⟨hf _ _ c _ hall.1, .call ts [] hc⟩ (ih x.1 hall.2)

lemma run_history (hrs : ∀ r ∈ rs, ∀ p, allowed p (.request r)) (hserved : V.served f s rs = some s') :
    ((V.system init).only allowed).Run ⟨s, ts⟩ (V.history s rs) ⟨s', ts⟩ := by
  induction rs generalizing s with
  | nil =>
    cases hserved
    exact .nil
  | cons r _ ih =>
    obtain ⟨hr, hrs⟩ := forall_mem_cons.mp hrs
    rw [served, foldlM_cons] at hserved
    obtain ⟨_, h1, hserved⟩ := Option.bind_eq_some_iff.mp hserved
    split at h1
    · rename_i hall
      cases h1
      exact .cons ⟨hr _, .request r⟩ ((run_events hf hfinish hall).append (ih hrs hserved))
    · cases h1

lemma reaches_served (hrs : ∀ r ∈ rs, ∀ p, allowed p (.request r)) (h : (V.system init).Reaches allowed ⟨s, ts⟩)
    (hserved : V.served f s rs = some s') : (V.system init).Reaches allowed ⟨s', ts⟩ :=
  (run_history hf hfinish hrs hserved).reaches h

end

end Service

end Dtn
