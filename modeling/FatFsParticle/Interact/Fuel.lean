import FatFsParticle.Interact.Program

/-!
# Bounds on turns

A loop of a program is cut off after a number of turns, and is `stuck` there.
`p.Below q` says that `q` is `p` with some of the cut-off places continued: a
completed run of `p` is then a completed run of `q`, with the same end.
-/

namespace Interact.Program

variable {Req : Type} {Ans : Req → Type} {α β S : Type}

def Below : Program Ans α → Program Ans α → Prop
  | stuck, _ => True
  | ret a, q => q = ret a
  | call r k, q => ∃ k', q = call r k' ∧ ∀ x, (k x).Below (k' x)

theorem below_refl (p : Program Ans α) : p.Below p := by
  induction p with
  | ret a => rfl
  | call r k ih => exact ⟨k, rfl, ih⟩
  | stuck => trivial

theorem below_bind {p q : Program Ans α} {f g : α → Program Ans β}
    (h : p.Below q) (hf : ∀ a, (f a).Below (g a)) : (p >>= f).Below (q >>= g) := by
  induction p generalizing q with
  | ret a =>
    cases h
    exact hf a
  | call r k ih =>
    obtain ⟨k', rfl, hk⟩ := h
    exact ⟨_, rfl, fun x => ih x (hk x)⟩
  | stuck => trivial

theorem below_ite {c : Prop} [Decidable c] {p p' q q' : Program Ans α}
    (h : p.Below p') (h' : q.Below q') : (if c then p else q).Below (if c then p' else q') := by
  split
  · exact h
  · exact h'

theorem run_below {handle : (r : Req) → S → Ans r × S} {p q : Program Ans α} (h : p.Below q)
    {s : S} {x : α × S} (hp : p.run handle s = some x) : q.run handle s = some x := by
  induction p generalizing s q with
  | ret a =>
    cases h
    exact hp
  | call r k ih =>
    obtain ⟨k', rfl, hk⟩ := h
    exact ih _ (hk _) hp
  | stuck => cases hp

/-- Two bounds on one program that both suffice give the same run. -/
theorem run_unique {handle : (r : Req) → S → Ans r × S} {p : Nat → Program Ans α}
    (mono : ∀ n n', n ≤ n' → (p n).Below (p n')) {s : S} {n n' : Nat} {x y : α × S}
    (h : (p n).run handle s = some x) (h' : (p n').run handle s = some y) : x = y := by
  rcases Nat.le_total n n' with le | le
  · exact Option.some.inj ((run_below (mono n n' le) h).symm.trans h')
  · exact Option.some.inj (h.symm.trans (run_below (mono n' n le) h'))

end Interact.Program
