import Dtn.Framework.Outcome

/-!
# Decoders of a prefix of their input

A `Parser` reads a value off the front of a byte string and hands back the
rest; it may also fail or panic. `Reads p w a` says that `p` reads exactly
the bytes `w`, to `a`, whatever follows them. A parser is `Safe` if it never
panics, it `Shrinks` if it leaves no more than it was given, and it `Yields P`
if what it reads has the property `P`; these are closed under sequencing
(`Safe.bind`, `Shrinks.bind`, `Yields.bind`), so a decoder built from such parts
is so too. `Rejects p w` says that `p` reads no value where `w` is next.
-/

namespace Dtn

open List Outcome

/-- A decoder: the value read and the input left, an error, or a panic. -/
def Parser (ε α : Type) : Type := List UInt8 → Outcome ε (α × List UInt8)

namespace Parser

variable {ε α β : Type}
variable {bs v w : List UInt8} {a : α} {k : Nat}

instance : Monad (Parser ε) where
  pure a := fun bs => .ok (a, bs)
  bind p f := fun bs => p bs >>= fun ar => f ar.1 ar.2

/-- Fail with `e`, reading nothing. -/
def fail (e : ε) : Parser ε α := fun _ => .err e

/-- Panic. -/
def panic : Parser ε α := fun _ => .panic

/-- A computation that reads nothing. -/
def lift (x : Outcome ε α) : Parser ε α := fun bs => x >>= fun a => .ok (a, bs)

@[simp] lemma lift_apply (x : Outcome ε α) (bs : List UInt8) :
    lift x bs = (x >>= fun a => .ok (a, bs)) := rfl
@[simp] lemma pure_apply (a : α) (bs : List UInt8) : (pure a : Parser ε α) bs = .ok (a, bs) := rfl
@[simp] lemma fail_apply (e : ε) (bs : List UInt8) : (fail e : Parser ε α) bs = .err e := rfl
@[simp] lemma panic_apply (bs : List UInt8) : (panic : Parser ε α) bs = .panic := rfl

@[simp] lemma bind_apply (p : Parser ε α) (f : α → Parser ε β) (bs : List UInt8) :
    (p >>= f) bs = (p bs >>= fun ar => f ar.1 ar.2) := rfl

variable {p : Parser ε α}

lemma bind_eq_ok : (p >>= f) bs = .ok x ↔ ∃ a r, p bs = .ok (a, r) ∧ f a r = .ok x := by
  simp only [bind_apply, Outcome.bind_eq_ok, Prod.exists]

lemma bind_eq_panic : (p >>= f) bs = .panic ↔ p bs = .panic ∨ ∃ a r, p bs = .ok (a, r) ∧ f a r = .panic := by
  simp only [bind_apply, Outcome.bind_eq_panic, Prod.exists]

lemma bind_eq_err (h : p bs = .err e) (f : α → Parser ε β) : (p >>= f) bs = .err e := by
  rw [bind_apply, h, err_bind]

/-- `p` reads exactly `w`, to `a`, whatever follows. -/
def Reads (p : Parser ε α) (w : List UInt8) (a : α) : Prop := ∀ r, p (w ++ r) = .ok (a, r)

/-- `p` leaves no more input than it was given. -/
def Shrinks (p : Parser ε α) : Prop := ∀ ⦃bs a r⦄, p bs = .ok (a, r) → r.length ≤ bs.length

/-- `p` never panics. -/
def Safe (p : Parser ε α) : Prop := ∀ bs, p bs ≠ .panic

/-- Whatever `p` reads has the property `P`. -/
def Yields (p : Parser ε α) (P : α → Prop) : Prop := ∀ ⦃bs a r⦄, p bs = .ok (a, r) → P a

/-- `p` does not succeed on an input that starts with `w`. -/
def Rejects (p : Parser ε α) (w : List UInt8) : Prop := ∀ r x, p (w ++ r) ≠ .ok x

lemma Reads.pure (a : α) : Reads (pure a : Parser ε α) [] a := fun _ => rfl

lemma Reads.bind (hp : p.Reads v a) (hf : (f a).Reads w b) : (p >>= f).Reads (v ++ w) b := fun r => by
  rw [bind_apply, append_assoc, hp, ok_bind, hf]

lemma Reads.bind_append (hp : p.Reads v a) (f : α → Parser ε β) (u : List UInt8) : (p >>= f) (v ++ u) = f a u := by
  rw [bind_apply, hp, ok_bind]

lemma Reads.bind_drop (hp : p.Reads (bs.take k) a) (f : α → Parser ε β) : (p >>= f) bs = f a (bs.drop k) := by
  conv_lhs => rw [← take_append_drop k bs]
  exact hp.bind_append ..

lemma Reads.bind_nil (hp : p.Reads w a) (hf : (f a).Reads [] b) : (p >>= f).Reads w b := by
  simpa only [append_nil] using hp.bind hf

lemma Shrinks.pure (a : α) : Shrinks (pure a : Parser ε α) := fun bs b r h => by
  cases h; exact Nat.le_refl _

lemma Shrinks.fail (e : ε) : Shrinks (fail e : Parser ε α) := fun _ _ _ h => by cases h

lemma Shrinks.panic : Shrinks (panic : Parser ε α) := fun _ _ _ h => by cases h

lemma Shrinks.lift (x : Outcome ε α) : Shrinks (lift x) := fun bs b r h => by
  obtain ⟨_, -, h⟩ := Outcome.bind_eq_ok.mp h
  cases h; exact Nat.le_refl _

lemma Shrinks.bind {f : α → Parser ε β} (hp : p.Shrinks) (hf : ∀ a, (f a).Shrinks) :
    (p >>= f).Shrinks := fun bs b r h => by
  obtain ⟨a, _, h1, h2⟩ := bind_eq_ok.mp h
  exact Nat.le_trans (hf a h2) (hp h1)

lemma Safe.pure (a : α) : Safe (pure a : Parser ε α) := fun _ h => by simp at h

lemma Safe.fail (e : ε) : Safe (fail e : Parser ε α) := fun _ h => by simp at h

lemma Safe.bind {f : α → Parser ε β} (hp : p.Safe) (hf : ∀ a, (f a).Safe) :
    (p >>= f).Safe := fun bs h => by
  rcases bind_eq_panic.mp h with h | ⟨a, r, -, h⟩
  · exact hp bs h
  · exact hf a r h

/-- After a part that never panics, only what follows can. -/
lemma Safe.bind_eq_panic (hp : p.Safe) : (p >>= f) bs = .panic ↔ ∃ a r, p bs = .ok (a, r) ∧ f a r = .panic := by
  rw [Parser.bind_eq_panic, or_iff_right (hp bs)]

lemma Yields.pure (h : P a) : Yields (pure a : Parser ε α) P := fun bs b r e => by
  cases e; exact h

lemma Yields.fail (P : α → Prop) (e : ε) : Yields (fail e : Parser ε α) P := fun _ _ _ h => by cases h

lemma Yields.panic (P : α → Prop) : Yields (panic : Parser ε α) P := fun _ _ _ h => by cases h

lemma Yields.trivial (p : Parser ε α) : Yields p fun _ => True := fun _ _ _ _ => True.intro

lemma Yields.bind {f : α → Parser ε β} (hp : p.Yields P)
    (hf : ∀ a, P a → (f a).Yields Q) : (p >>= f).Yields Q := fun bs b r h => by
  obtain ⟨a, _, h1, h2⟩ := bind_eq_ok.mp h
  exact hf a (hp h1) h2

lemma Yields.of_bind {f : α → Parser ε β} (hf : ∀ a, (f a).Yields Q) :
    (p >>= f).Yields Q := (Yields.trivial p).bind fun a _ => hf a

lemma Rejects.append (h : p.Rejects w) (v : List UInt8) : p.Rejects (w ++ v) :=
  fun r x => by rw [append_assoc]; exact h (v ++ r) x

lemma Rejects.bind (h : p.Rejects w) (f : α → Parser ε β) :
    (p >>= f).Rejects w := fun r x e => by
  obtain ⟨_, _, h1, -⟩ := bind_eq_ok.mp e
  exact h r _ h1

lemma Reads.bind_rejects (hp : p.Reads v a) (hf : (f a).Rejects w) : (p >>= f).Rejects (v ++ w) := fun r x => by
  rw [bind_apply, append_assoc, hp, ok_bind]
  exact hf r x

/-! ## Taking bytes -/

/-- The next `k` bytes, or the error `e` at the end of the input. -/
def take (e : ε) (k : Nat) : Parser ε (List UInt8) := fun bs =>
  if k ≤ bs.length then .ok (bs.take k, bs.drop k) else .err e

lemma reads_take (e : ε) (w : List UInt8) : Reads (take e w.length) w w := fun r => by
  simp [take]

lemma shrinks_take (e : ε) (k : Nat) : Shrinks (take e k) := fun bs a r h => by
  simp only [take] at h
  split at h <;> cases h
  simp only [length_drop, Nat.sub_le]

lemma safe_take (e : ε) (k : Nat) : Safe (take e k) := fun bs h => by
  simp only [take] at h; split at h <;> cases h

/-- The next `k` bytes, as a read that panics at the end of the input takes them. -/
def get (k : Nat) : Parser ε (List UInt8) := fun bs =>
  if k ≤ bs.length then .ok (bs.take k, bs.drop k) else .panic

lemma reads_get (w : List UInt8) : Reads (get w.length : Parser ε (List UInt8)) w w := fun r => by
  simp [get]

lemma reads_get_of_length (h : w.length = k) :
    Reads (get k : Parser ε (List UInt8)) w w := h ▸ reads_get w

lemma get_of_le (h : k ≤ bs.length) :
    (get k : Parser ε (List UInt8)) bs = .ok (bs.take k, bs.drop k) := if_pos h

lemma get_eq_panic (h : bs.length < k) : (get k : Parser ε (List UInt8)) bs = .panic := by
  rw [get, if_neg (Nat.not_le.mpr h)]

/-! ## Repetition -/

/-- Apply `p` until no more than `target` bytes are left. -/
def untilLeft (target : Nat) (p : Parser ε α) : Nat → Parser ε (List α)
  | 0 => .panic
  | fuel + 1 => fun bs =>
    if bs.length > target then
      (do
        let a ← p
        let rest ← untilLeft target p fuel
        return a :: rest : Parser ε (List α)) bs
    else .ok ([], bs)

section Repetition

variable {γ : Type} {f : γ → Outcome ε (List UInt8)} {p : Parser ε α} {cs : List γ} {w : List UInt8} {fuel : Nat}

lemma untilLeft_of_le (h : bs.length ≤ target) :
    untilLeft target p (fuel + 1) bs = .ok ([], bs) := if_neg (Nat.not_lt.mpr h)

lemma untilLeft_of_lt (h : target < bs.length) :
    untilLeft target p (fuel + 1) bs =
      (p >>= fun a => untilLeft target p fuel >>= fun rest => pure (a :: rest)) bs := if_pos h

lemma untilLeft_item (hx : x ≠ []) :
    untilLeft r.length p (fuel + 1) (x ++ (v ++ r)) =
      (p >>= fun a => untilLeft r.length p fuel >>= fun rest => pure (a :: rest)) (x ++ (v ++ r)) := by
  grind [length_pos_iff, untilLeft_of_lt]

/-- An item takes a byte, so there is fuel left behind it. -/
lemma fuel_of_item {x v : List UInt8} (hx : x ≠ []) (hfuel : (x ++ v).length < fuel + 1) :
    ∃ k, fuel = k + 1 ∧ v.length < k + 1 := by
  have hpos := length_pos_iff.mpr hx
  rw [length_append] at hfuel
  exact ⟨fuel - 1, by omega, by omega⟩

/-- If `p` reads each item that `f` writes, it is applied once for each of them. -/
lemma untilLeft_concat (hw : Outcome.concat f cs = .ok w) (hp : ∀ c ∈ cs, ∀ x, f c = .ok x → x ≠ [] ∧ p.Reads x (g c))
    (r : List UInt8) (hfuel : w.length < fuel) : untilLeft r.length p fuel (w ++ r) = .ok (cs.map g, r) := by
  obtain ⟨fuel, rfl⟩ := Nat.exists_eq_succ_of_ne_zero (Nat.ne_zero_of_lt hfuel)
  induction cs generalizing w fuel with
  | nil =>
    rw [concat_nil_eq_ok.mp hw, untilLeft]
    simp
  | cons c _ ih =>
    obtain ⟨x, v, hx, hv, rfl⟩ := concat_cons_eq_ok.mp hw
    obtain ⟨hne, hread⟩ := hp c mem_cons_self x hx
    obtain ⟨fuel, rfl, hlt⟩ := fuel_of_item hne hfuel
    have hrest := ih hv (fun c hc => hp c (mem_cons_of_mem _ hc)) fuel hlt
    rw [append_assoc, untilLeft_item hne, bind_apply, hread, ok_bind, bind_apply, hrest]
    rfl

/-- If `p` fails on one of the items and reads the others, so does the repetition. -/
lemma untilLeft_concat_err {bad : γ → Bool} (hw : Outcome.concat f cs = .ok w) (hne : ∀ c x, f c = .ok x → x ≠ [])
    (hgood : ∀ c x, f c = .ok x → bad c = false → ∃ a, p.Reads x a)
    (hbad : ∀ c x, f c = .ok x → bad c = true → ∃ e, ∀ r, p (x ++ r) = .err e) (herr : ∃ c ∈ cs, bad c = true)
    (r : List UInt8) (hfuel : w.length < fuel) : ∃ e, untilLeft r.length p fuel (w ++ r) = .err e := by
  obtain ⟨fuel, rfl⟩ := Nat.exists_eq_succ_of_ne_zero (Nat.ne_zero_of_lt hfuel)
  induction cs generalizing w fuel with
  | nil => obtain ⟨c, hc, -⟩ := herr; exact absurd hc not_mem_nil
  | cons c cs ih =>
    obtain ⟨x, v, hx, hv, rfl⟩ := concat_cons_eq_ok.mp hw
    obtain ⟨fuel, rfl, hlt⟩ := fuel_of_item (hne c x hx) hfuel
    rw [append_assoc, untilLeft_item (hne c x hx), bind_apply]
    cases hc : bad c with
    | true =>
      obtain ⟨e, he⟩ := hbad c x hx hc
      exact ⟨e, by rw [he]; rfl⟩
    | false =>
      obtain ⟨a, ha⟩ := hgood c x hx hc
      have hrest : ∃ c ∈ cs, bad c = true := by grind
      obtain ⟨e, he⟩ := ih hv hrest fuel hlt
      exact ⟨e, by rw [ha, ok_bind, bind_apply, he]; rfl⟩

end Repetition

end Parser

end Dtn
