import Dtn.Framework.Outcome

/-!
# Asynchronous functions

An asynchronous function is a program that makes calls and waits for their
answers (`Async`): between two calls other programs run. `C β` is the type of
the calls that are answered with a `β`. A `Machine` says how each call is
carried out, in one step. `run` runs a program without others in between; what
a sequence of programs does is what the first does and then the others
(`run_bind`).
-/

namespace Dtn

/-- A program: its result, or a call and what follows the answer. -/
inductive Async (C : Type → Type) (ε α : Type) : Type 1 where
  | done (r : Outcome ε α)
  | await {β : Type} (c : C β) (k : β → Async C ε α)

namespace Async

variable {C : Type → Type} {ε ε' α β σ : Type}

/-- Run `f` on the value of a program; an error (the `?` operator) and a panic end it. -/
def bind : Async C ε α → (α → Async C ε β) → Async C ε β
  | done (.ok a), f => f a
  | done (.err e), _ => done (.err e)
  | done .panic, _ => done .panic
  | await c k, f => await c fun b => (k b).bind f

instance : Monad (Async C ε) where
  pure a := done (.ok a)
  bind := bind

/-- `address.send(c).await`. -/
def call (c : C β) : Async C ε β := await c fun b => done (.ok b)

def throw (e : ε) : Async C ε α := done (.err e)

/-- `Result::map_err` of the result. -/
def mapErr (f : ε → ε') : Async C ε α → Async C ε' α
  | done r => done (r.mapErr f)
  | await c k => await c fun b => (k b).mapErr f

/-- The result as a value. -/
def attempt : Async C ε α → Async C Empty (Except ε α)
  | done (.ok a) => done (.ok (.ok a))
  | done (.err e) => done (.ok (.error e))
  | done .panic => done .panic
  | await c k => await c fun b => (k b).attempt

/-- Some answers to its calls lead a program to this result. -/
inductive Ends : Async C ε α → Outcome ε α → Prop where
  | done (r : Outcome ε α) : Ends (done r) r
  | await {γ : Type} {c : C γ} {k : γ → Async C ε α} {r : Outcome ε α} (b : γ) (h : Ends (k b) r) : Ends (await c k) r

end Async

/-- How calls are carried out on a state. A call that panics has no answer. -/
structure Machine (C : Type → Type) (σ : Type) where
  perform : {β : Type} → C β → σ → Option (β × σ)

namespace Machine

variable {C : Type → Type} {ε ε' α β σ : Type} (M : Machine C σ)
variable {s s' : σ}

/-- A program without others in between. -/
def run : Async C ε α → σ → Outcome ε α × σ
  | .done r, s => (r, s)
  | .await c k, s =>
    match M.perform c s with
    | some (b, s') => run (k b) s'
    | none => (.panic, s)

@[simp] lemma run_pure (a : α) (s : σ) : M.run (pure a : Async C ε α) s = (.ok a, s) := rfl

variable {M}

lemma run_bind (p : Async C ε α) (f : α → Async C ε β) (s : σ) :
    M.run (p >>= f) s =
      match M.run p s with
      | (.ok a, s') => M.run (f a) s'
      | (.err e, s') => (.err e, s')
      | (.panic, s') => (.panic, s') := by
  induction p generalizing s with
  | done r => cases r <;> rfl
  | await c k ih =>
    change M.run (.await c fun b => (k b).bind f) s = _
    rw [run, run]
    cases h : M.perform c s with
    | none => rfl
    | some x => exact ih x.1 x.2

variable {p : Async C ε α}

lemma run_bind_ok (h : M.run p s = (.ok a, s')) (f : α → Async C ε β) : M.run (p >>= f) s = M.run (f a) s' := by
  rw [run_bind, h]

lemma run_bind_err (h : M.run p s = (.err e, s')) (f : α → Async C ε β) : M.run (p >>= f) s = (.err e, s') := by
  rw [run_bind, h]

lemma run_call (h : M.perform c s = some (b, s')) (f : β → Async C ε α) :
    M.run (.call c >>= f) s = M.run (f b) s' := by
  change M.run (.await c f) s = _
  rw [run, h]

lemma run_call_none (h : M.perform c s = none) (f : β → Async C ε α) : M.run (.call c >>= f) s = (.panic, s) := by
  change M.run (.await c f) s = _
  rw [run, h]

lemma run_mapErr (g : ε → ε') (p : Async C ε α) (s : σ) :
    M.run (p.mapErr g) s = ((M.run p s).1.mapErr g, (M.run p s).2) := by
  induction p generalizing s with
  | done => rfl
  | await c _ ih =>
    rw [Async.mapErr, run, run]
    cases h : M.perform c s with
    | none => rfl
    | some x => exact ih x.1 x.2

lemma run_attempt_ok (h : M.run p s = (.ok a, s')) : M.run p.attempt s = (.ok (.ok a), s') := by
  induction p generalizing s with
  | done => cases h; rfl
  | await => grind [run, Async.attempt]

lemma run_attempt_err (h : M.run p s = (.err e, s')) : M.run p.attempt s = (.ok (.error e), s') := by
  induction p generalizing s with
  | done => cases h; rfl
  | await => grind [run, Async.attempt]

end Machine

end Dtn
