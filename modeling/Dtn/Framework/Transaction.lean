import Dtn.Framework.Outcome

/-!
# Transactions whose operations may fail

A program (`Txn`) reads what is committed in a store and collects writes. Each of
its operations may report an error, which ends the program. `transact` runs it and
commits its writes at once, if it gets that far; otherwise they are dropped.

`Effect Q p P` says that `p` does not panic on a store with the property `Q`, and
that it leaves a result and writes that `P` allows, unless an operation fails. So a
transaction has all of its effect, or an operation fails, and it reports an error
and has none (`Effect.transact`).
-/

namespace Dtn

/-- A transaction in progress: what is committed, what is to be written, and which of the next operations fail. -/
structure Transaction (σ ω : Type) where
  store : σ
  writes : List ω
  fails : List Bool

/-- A program in a transaction. -/
def Txn (σ ω ε α : Type) : Type := Transaction σ ω → Outcome ε α × Transaction σ ω

namespace Txn

variable {σ ω ε α β : Type}

/-- What follows the result of a program. -/
def andThen (f : α → Txn σ ω ε β) : Outcome ε α × Transaction σ ω → Outcome ε β × Transaction σ ω
  | (.ok a, t) => f a t
  | (.err e, t) => (.err e, t)
  | (.panic, t) => (.panic, t)

instance : Monad (Txn σ ω ε) where
  pure a := fun t => (.ok a, t)
  bind p f := fun t => andThen f (p t)

/-- An operation, unless it reports the error `e`. -/
def operation (e : ε) (f : Transaction σ ω → α × Transaction σ ω) : Txn σ ω ε α := fun t =>
  if t.fails.head? = some true then (.err e, { t with fails := t.fails.tail })
  else
    let x := f { t with fails := t.fails.tail }
    (.ok x.1, x.2)

/-- Read what is committed. -/
def read (e : ε) (f : σ → α) : Txn σ ω ε α := operation e fun t => (f t.store, t)

/-- Look at what is committed, without an operation that may fail. -/
def view (f : σ → α) : Txn σ ω ε α := fun t => (.ok (f t.store), t)

def write (e : ε) (w : ω) : Txn σ ω ε Unit := operation e fun t => ((), { t with writes := t.writes ++ [w] })

def commit (e : ε) (apply : σ → ω → σ) : Txn σ ω ε Unit :=
  operation e fun t => ((), { t with store := t.writes.foldl apply t.store, writes := [] })

/-- A computation that uses no operation. -/
def lift (x : Outcome ε α) : Txn σ ω ε α := fun t => (x, t)

/-- The result of a program that commits in the end, and the store after it. -/
def transact (e : ε) (apply : σ → ω → σ) (p : Txn σ ω ε α) (s : σ) (fails : List Bool) : Outcome ε α × σ :=
  let x := (do let a ← p; commit e apply; return a : Txn σ ω ε α) ⟨s, [], fails⟩
  (x.1, x.2.store)

lemma bind_apply (p : Txn σ ω ε α) (f : α → Txn σ ω ε β) (t : Transaction σ ω) :
    (p >>= f) t = andThen f (p t) := rfl

/-! ## Effects -/

/-- On a store with the property `Q`, the program ends well, and `P` holds of its result and of what it has to
write, or one of its operations fails. It commits nothing. -/
def Effect (Q : σ → Prop) (p : Txn σ ω ε α) (P : σ → α → List ω → Prop) : Prop :=
  ∀ s us fails, Q s →
    (∃ a ws fails', p ⟨s, us, fails⟩ = (.ok a, ⟨s, us ++ ws, fails'⟩) ∧ P s a ws ∧ (fails = [] → fails' = [])) ∨
      fails ≠ [] ∧ ∃ e t, p ⟨s, us, fails⟩ = (.err e, t) ∧ t.store = s

variable {Q : σ → Prop} {P : σ → α → List ω → Prop} {P' : α → σ → β → List ω → Prop} {e : ε}

variable {p : Txn σ ω ε α}

lemma Effect.of_quiet (f : σ → α) (h : ∀ t, Q t.store → p t = (.ok (f t.store), t)) :
    Effect Q p fun s a ws => a = f s ∧ ws = [] := by
  intro s us fails hQ
  refine .inl ⟨f s, [], fails, ?_, ⟨rfl, rfl⟩, id⟩
  rw [h _ hQ, List.append_nil]

lemma Effect.pure (a : α) : Effect Q (pure a : Txn σ ω ε α) fun _ a' ws => a' = a ∧ ws = [] :=
  .of_quiet _ fun _ _ => rfl

lemma Effect.view (f : σ → α) : Effect Q (view f : Txn σ ω ε α) fun s a ws => a = f s ∧ ws = [] :=
  .of_quiet f fun _ _ => rfl

lemma Effect.lift (hx : ∀ s, Q s → x = .ok a) : Effect Q (lift x : Txn σ ω ε α) fun _ a' ws => a' = a ∧ ws = [] :=
  .of_quiet _ fun t hQ => by rw [Txn.lift, hx t.store hQ]

lemma Effect.operation (a : σ → α) (ws : List ω) (hf : ∀ s us fails, f ⟨s, us, fails⟩ = (a s, ⟨s, us ++ ws, fails⟩)) :
    Effect Q (operation e f) fun s x vs => x = a s ∧ vs = ws := by
  intro s us fails _
  rw [Txn.operation]
  split
  · grind
  · simp_all

lemma Effect.read (f : σ → α) : Effect Q (read e f : Txn σ ω ε α) fun s a ws => a = f s ∧ ws = [] :=
  .operation f [] fun _ us _ => by rw [List.append_nil]

lemma Effect.mono (hp : Effect Q p P) (h : ∀ s a ws, P s a ws → P1 s a ws) : Effect Q p P1 := by
  intro s us fails hQ
  rcases hp s us fails hQ with ⟨a, ws, fails', hrun, hP, hfails⟩ | herr
  · exact .inl ⟨a, ws, fails', hrun, h _ _ _ hP, hfails⟩
  · exact .inr herr

lemma Effect.write (w : ω) : Effect Q (write e w : Txn σ ω ε Unit) fun _ _ ws => ws = [w] :=
  (Effect.operation (fun _ => ()) [w] fun _ _ _ => rfl).mono fun _ _ _ h => h.2

lemma Effect.weaken (hp : Effect Q p P) (h : ∀ s, Q1 s → Q s) : Effect Q1 p P :=
  fun s us fails hQ => hp s us fails (h s hQ)

/-- The writes of two programs come one after the other. -/
lemma Effect.bind (hp : Effect Q p P) (hf : ∀ a, Effect (fun s => Q s ∧ ∃ ws, P s a ws) (f a) (P' a)) :
    Effect Q (p >>= f) fun s b ws => ∃ a us vs, ws = us ++ vs ∧ P s a us ∧ P' a s b vs := by
  intro s us fails hQ
  rw [bind_apply]
  rcases hp s us fails hQ with ⟨a, ws, fails', hrun, hP, hfails⟩ | ⟨hfails, e, t, hrun, hstore⟩
  · rw [hrun]
    rcases hf a s (us ++ ws) fails' ⟨hQ, ws, hP⟩ with ⟨_, _, _, _, _, hfails'⟩ | ⟨hfails', herr⟩
    · grind [andThen]
    · exact .inr ⟨mt hfails hfails', herr⟩
  · rw [hrun]
    exact .inr ⟨hfails, e, t, rfl, hstore⟩

/-- A transaction has all of its effect, or an operation fails, and it reports an error and has none. -/
lemma Effect.transact (hp : Effect Q p P) (apply : σ → ω → σ) (hQ : Q s) (fails : List Bool) :
    (∃ a ws, P s a ws ∧ transact e apply p s fails = (.ok a, ws.foldl apply s)) ∨
      fails ≠ [] ∧ ∃ e', transact e apply p s fails = (.err e', s) := by
  rw [Txn.transact, bind_apply]
  rcases hp s [] fails hQ with ⟨a, ws, _, hrun, hP, hfails⟩ | ⟨hfails, e', _, hrun, rfl⟩
  · rw [hrun, andThen, bind_apply, commit, Txn.operation]
    split
    · rename_i hhead
      exact .inr ⟨(fun h => by rw [hfails h] at hhead; cases hhead), e, rfl⟩
    · exact .inl ⟨a, ws, hP, rfl⟩
  · rw [hrun]
    exact .inr ⟨hfails, e', rfl⟩

end Txn

end Dtn
