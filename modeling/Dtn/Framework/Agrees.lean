import Dtn.Framework.Cbor

/-!
# Comparing two encodings from front to back

`Agrees u v P` says of two encodings of one part that they are the same
exactly if `P`, wherever they stand in a longer string. It is closed under
putting parts one after the other (`Agrees.append`) and under wrapping them
into a byte string (`Agrees.encBytes`), so that the condition for a whole is
the conjunction of those of its parts.
-/

namespace Dtn.Cbor

open List

/-- At the front of strings short enough to exist, `u` and `v` are the same
and end at the same place exactly if `P`. -/
def Agrees (u v : List UInt8) (P : Prop) : Prop :=
  ∀ r s, (u ++ r).length < 2 ^ 64 → (u ++ r = v ++ s ↔ P ∧ r = s)

namespace Agrees

variable {u v u' v' : List UInt8} {P Q : Prop}

lemma refl (u : List UInt8) : Agrees u u True := fun r s _ => by
  rw [append_cancel_left_eq, true_and]

lemma append (h : Agrees u v P) (h' : Agrees u' v' Q) : Agrees (u ++ u') (v ++ v') (P ∧ Q) := fun r s hl => by
  rw [append_assoc, append_assoc] at *
  rw [h _ _ hl, h' _ _ (by simp only [length_append] at hl ⊢; omega), and_assoc]

lemma congr (h : Agrees u v P) (hPQ : P ↔ Q) : Agrees u v Q := fun r s hl => by rw [h r s hl, hPQ]

lemma append_same (h : Agrees u v P) (w : List UInt8) : Agrees (u ++ w) (v ++ w) P :=
  (h.append (refl w)).congr (and_iff_left trivial)

lemma same_append (w : List UInt8) (h : Agrees u v P) : Agrees (w ++ u) (w ++ v) P :=
  ((refl w).append h).congr (by simp only [true_and])

/-- Strings that a decoder reads to `a` and `b` are the same only if `a` and `b` are. -/
lemma of_reads {α : Type} {p : Parser Error α} {enc : α → List UInt8} (hp : ∀ a, p.Reads (enc a) a) (a b : α) :
    Agrees (enc a) (enc b) (a = b) := fun r s _ => by
  refine ⟨fun h => ?_, fun ⟨e, h⟩ => by rw [e, h]⟩
  have ha := hp a r
  rw [h, hp b s] at ha
  simp only [Outcome.ok.injEq, Prod.mk.injEq] at ha
  exact ⟨ha.1.symm, ha.2.symm⟩

/-- Heads of different kinds differ. -/
lemma of_heads (hm : m < 7) (hn : n < 2 ^ 64) (hm' : m' < 7) (hn' : n' < 2 ^ 64)
    (hne : Head.ofMajor n m ≠ Head.ofMajor n' m') (u v : List UInt8) :
    Agrees (head m n ++ u) (head m' n' ++ v) False := fun r s _ => by
  refine ⟨fun h => ?_, fun h => h.1.elim⟩
  have h1 := readHead_head hm hn (u ++ r)
  rw [← append_assoc, h, append_assoc, readHead_head hm' hn' (v ++ s)] at h1
  simp only [Outcome.ok.injEq, Prod.mk.injEq] at h1
  exact absurd h1.1.symm hne

/-- Byte strings are the same if what they hold is. -/
lemma encBytes (h : Agrees u v P) : Agrees (Cbor.encBytes u) (Cbor.encBytes v) P := by
  intro r s hl
  simp only [Cbor.encBytes, append_assoc] at hl ⊢
  constructor
  · intro he
    have hlen : u.length = v.length := by grind [readHead_head, Head.ofMajor]
    rw [hlen] at he hl
    exact (h r s (by simp only [length_append] at hl ⊢; omega)).mp (append_cancel_left he)
  · rintro ⟨hP, hrs⟩
    have hu := (h r s (by simp only [length_append] at hl ⊢; omega)).mpr ⟨hP, hrs⟩
    have huv : u = v := by subst hrs; exact append_cancel_right hu
    rw [huv, hrs]

/-- Lists of parts are the same if each pair of parts is. -/
lemma flatMap {γ : Type} {enc enc' : γ → List UInt8} {P : γ → Prop} {cs : List γ}
    (h : ∀ c ∈ cs, Agrees (enc c) (enc' c) (P c)) : Agrees (cs.flatMap enc) (cs.flatMap enc') (∀ c ∈ cs, P c) := by
  induction cs with
  | nil => exact (refl []).congr (by simp)
  | cons c _ ih =>
    have := (h c (mem_cons_self ..)).append (ih fun c hc => h c (mem_cons_of_mem _ hc))
    exact this.congr (by simp only [forall_mem_cons])

lemma eq_iff (h : Agrees u v P) (hl : u.length < 2 ^ 64) : u = v ↔ P := by
  simpa using h [] [] (by simpa using hl)

end Agrees

end Dtn.Cbor
