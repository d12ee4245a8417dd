import Dtn.Framework.Async
import Dtn.Framework.Run

/-!
# Asynchronous functions that run side by side

A `Service` runs one program for each request, all of them on one state: in a
`Pool` each program waits for the answer to its next call, and any of them makes
its call next (`Step`). Of each program a note is kept that its calls change.

`Outline` says what is noted before each call of a program, if the answers are
such as they can be. If the calls that agree with their outlines keep an invariant
of the state and the notes, it holds in every run (`reaches_invariant`).
-/

namespace Dtn

open List

/-! ## Outlines -/

namespace Async

variable {C : Type → Type} {G ε ε' α β : Type} (note : {β : Type} → C β → β → G → G)
  (Pre : {β : Type} → G → C β → Prop) (Ans : {β : Type} → C β → β → Prop)
variable {p : Async C ε α} {f : β → Async C ε α}

/-- Before each call its precondition holds of what has been noted, and `Post` at the end. -/
def Outline (Post : G → α → Prop) : G → Async C ε α → Prop
  | g, done (.ok a) => Post g a
  | _, done _ => True
  | g, await c k => Pre g c ∧ ∀ b, Ans c b → (k b).Outline Post (note c b g)

variable {note Pre Ans} {Post : G → α → Prop} {g : G}

lemma Outline.bind {p : Async C ε β} (hp : p.Outline note Pre Ans Mid g)
    (hf : ∀ g b, Mid g b → (f b).Outline note Pre Ans Post g) : (p >>= f).Outline note Pre Ans Post g := by
  induction p generalizing g with
  | done r =>
    cases r with
    | ok b => exact hf g b hp
    | err | panic => trivial
  | await _ _ ih => exact ⟨hp.1, fun b hb => ih b (hp.2 b hb)⟩

lemma Outline.call (hc : Pre g c) (hf : ∀ b, Ans c b → (f b).Outline note Pre Ans Post (note c b g)) :
    (.call c >>= f).Outline note Pre Ans Post g := ⟨hc, hf⟩

lemma Outline.mono (hp : p.Outline note Pre Ans Post g)
    (h : ∀ g a, Post g a → Post' g a) : p.Outline note Pre Ans Post' g := by
  induction p generalizing g with
  | done r =>
    cases r with
    | ok a => exact h g a hp
    | err | panic => trivial
  | await _ _ ih => exact ⟨hp.1, fun b hb => ih b (hp.2 b hb)⟩

lemma Outline.mapErr (hp : p.Outline note Pre Ans Post g) (f : ε → ε') :
    (p.mapErr f).Outline note Pre Ans Post g := by
  induction p generalizing g with
  | done r =>
    cases r with
    | ok => exact hp
    | err | panic => trivial
  | await _ _ ih => exact ⟨hp.1, fun b hb => ih b (hp.2 b hb)⟩

lemma Outline.attempt (hp : p.Outline note Pre Ans Post g) : p.attempt.Outline note Pre Ans (fun _ _ => True) g := by
  induction p generalizing g with
  | done r => cases r <;> trivial
  | await _ _ ih => exact ⟨hp.1, fun b hb => ih b (hp.2 b hb)⟩

lemma Outline.map {p : Async C ε β} (hp : p.Outline note Pre Ans (fun _ _ => True) g) (f : β → α) :
    (f <$> p).Outline note Pre Ans (fun _ _ => True) g :=
  hp.bind fun _ _ _ => trivial

end Async

/-! ## Pools -/

/-- How requests are served. -/
structure Service (C : Type → Type) (σ G R α : Type) where
  machine : Machine C σ
  program : R → Async C Empty α
  /-- What is noted of a program before its first call. -/
  start : G
  note : {β : Type} → C β → β → G → G
  /-- What changes by itself. -/
  passes : σ → σ → Prop

structure Task (C : Type → Type) (G α : Type) where
  program : Async C Empty α
  note : G

structure Pool (C : Type → Type) (σ G α : Type) where
  state : σ
  tasks : List (Task C G α)

inductive PoolEvent (C : Type → Type) (R α : Type) where
  | request (r : R)
  | call {β : Type} (c : C β)
  | finish (response : Outcome Empty α)
  | pass

namespace Service

variable {C : Type → Type} {σ G R α : Type} (V : Service C σ G R α)

inductive Step : Pool C σ G α → PoolEvent C R α → Pool C σ G α → Prop where
  | request {s : σ} {ts : List (Task C G α)} (r : R) : Step ⟨s, ts⟩ (.request r) ⟨s, ts ++ [⟨V.program r, V.start⟩]⟩
  | call {s s' : σ} (us vs : List (Task C G α)) {β : Type} {c : C β} {k : β → Async C Empty α} {g : G} {b : β}
    (h : V.machine.perform c s = some (b, s')) :
    Step ⟨s, us ++ ⟨.await c k, g⟩ :: vs⟩ (.call c) ⟨s', us ++ ⟨k b, V.note c b g⟩ :: vs⟩
  /-- The call panics. -/
  | panic {s : σ} (us vs : List (Task C G α)) {β : Type} {c : C β} {k : β → Async C Empty α} {g : G}
    (h : V.machine.perform c s = none) :
    Step ⟨s, us ++ ⟨.await c k, g⟩ :: vs⟩ (.call c) ⟨s, us ++ ⟨.done .panic, g⟩ :: vs⟩
  | finish {s : σ} (us vs : List (Task C G α)) (r : Outcome Empty α) (g : G) :
    Step ⟨s, us ++ ⟨.done r, g⟩ :: vs⟩ (.finish r) ⟨s, us ++ vs⟩
  | pass {s s' : σ} {ts : List (Task C G α)} (h : V.passes s s') : Step ⟨s, ts⟩ .pass ⟨s', ts⟩

/-- The runs of the service from a state, without requests at first. -/
def system (init : σ) : System (Pool C σ G α) (PoolEvent C R α) where
  init p := p = ⟨init, []⟩
  step := V.Step

variable {V} {Pre : {β : Type} → G → C β → Prop} {Ans : {β : Type} → C β → β → Prop} {Inv : σ → List G → Prop}
  {allowed : Pool C σ G α → PoolEvent C R α → Prop}

/-- What holds in a pool: the invariant, and the outlines of the programs. -/
structure Holds (V : Service C σ G R α) (Pre : {β : Type} → G → C β → Prop) (Ans : {β : Type} → C β → β → Prop)
    (Inv : σ → List G → Prop) (p : Pool C σ G α) : Prop where
  inv : Inv p.state (p.tasks.map Task.note)
  outlines : ∀ t ∈ p.tasks, t.program.Outline V.note Pre Ans (fun _ _ => True) t.note

/-- What keeps an invariant of the state and the notes. -/
structure Keeps (V : Service C σ G R α) (Pre : {β : Type} → G → C β → Prop) (Ans : {β : Type} → C β → β → Prop)
    (Inv : σ → List G → Prop) (allowed : Pool C σ G α → PoolEvent C R α → Prop) : Prop where
  request : ∀ p r, allowed p (.request r) → (V.program r).Outline V.note Pre Ans (fun _ _ => True) V.start
  start : ∀ s gs, Inv s gs → Inv s (gs ++ [V.start])
  answer : ∀ {β : Type} (c : C β) (b : β) (s s' : σ) (gs : List G) (g : G), Inv s gs → Pre g c →
    V.machine.perform c s = some (b, s') → Ans c b
  call : ∀ (p : Pool C σ G α) {β : Type} (c : C β) (b : β) (s' : σ) (gs hs : List G) (g : G),
    Inv p.state (gs ++ g :: hs) → p.tasks.map Task.note = gs ++ g :: hs → Pre g c → allowed p (.call c) →
    V.machine.perform c p.state = some (b, s') → Inv s' (gs ++ V.note c b g :: hs)
  finish : ∀ s gs g hs, Inv s (gs ++ g :: hs) → Inv s (gs ++ hs)
  pass : ∀ s s' gs, V.passes s s' → Inv s gs → Inv s' gs

lemma Keeps.step (h : V.Keeps Pre Ans Inv allowed) (hp : V.Holds Pre Ans Inv p) (ha : allowed p a)
    (hstep : V.Step p a p') : V.Holds Pre Ans Inv p' := by
  obtain ⟨hinv, hout⟩ := hp
  cases hstep with
  | request =>
    constructor
    · rw [map_append]
      exact h.start _ _ hinv
    · cases h; grind
  | call _ _ hc =>
    obtain ⟨hus, hvs⟩ := forall_mem_append.mp hout
    obtain ⟨ht, hvs⟩ := forall_mem_cons.mp hvs
    constructor
    · rw [map_append, map_cons] at hinv ⊢
      exact h.call _ _ _ _ _ _ _ hinv (by rw [map_append, map_cons]) ht.1 ha hc
    · exact forall_mem_append.mpr ⟨hus, forall_mem_cons.mpr ⟨ht.2 _ (h.answer _ _ _ _ _ _ hinv ht.1 hc), hvs⟩⟩
  | panic =>
    obtain ⟨hus, hvs⟩ := forall_mem_append.mp hout
    constructor
    · rw [map_append, map_cons] at hinv ⊢
      exact hinv
    · exact forall_mem_append.mpr ⟨hus, forall_mem_cons.mpr ⟨trivial, (forall_mem_cons.mp hvs).2⟩⟩
  | finish =>
    obtain ⟨_, _⟩ := forall_mem_append.mp hout
    constructor
    · grind [h.finish]
    · grind
  | pass hs => exact ⟨h.pass _ _ _ hs hinv, hout⟩

lemma reaches_invariant (h : V.Keeps Pre Ans Inv allowed) (hinit : Inv init [])
    (hp : (V.system init).Reaches allowed p) : V.Holds Pre Ans Inv p := by
  refine System.Reaches.invariant (V.Holds Pre Ans Inv) ?_ (fun p a p' hold ha hstep => h.step hold ha hstep) hp
  rintro p rfl
  exact ⟨hinit, forall_mem_nil _⟩

end Service

end Dtn
