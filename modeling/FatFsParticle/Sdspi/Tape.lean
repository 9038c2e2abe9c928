import FatFsParticle.Sdspi.Frame

/-!
# What goes over the bus

The tape of a run is the list of the bytes exchanged in it, with the level of CS at each.
`Puts` says what a program puts on the tape and at which level it leaves CS, on every
board; there is one rule for each request.
-/

namespace FatFsParticle.Sdspi
open Interact Program

/-- A byte each way. -/
structure Exchange where
  cs : Level
  sent : BYTE
  got : BYTE
  deriving DecidableEq, Repr

def Event.exchange : Event → Option Exchange
  | .byte cs _ sent got => some ⟨cs, sent, got⟩
  | _ => none

/-- The bytes exchanged, the first one first. -/
def tape (log : List Event) : List Exchange := log.reverse.filterMap Event.exchange

theorem tape_append (newer older : List Event) : tape (newer ++ older) = tape older ++ tape newer := by
  simp [tape]

section
variable {σ : Type} {m m' : Machine σ}

/-- The tape since the log of `m`. -/
def tapeSince (m m' : Machine σ) : List Exchange :=
  tape (m'.log.take (m'.log.length - m.log.length))

theorem tapeSince_eq {new : List Event} (h : m'.log = new ++ m.log) : tapeSince m m' = tape new := by
  simp [tapeSince, h]

end

/-! ## Programs and their tapes -/

variable {α β : Type}

/-- Whatever the board: a run of `p` with CS at the level `l` that ends with `a` puts `xs`
on the tape and leaves CS at `l'` only where `Q a xs l'`. -/
def Puts (p : Prog α) (l : Level) (Q : α → List Exchange → Level → Prop) : Prop :=
  ∀ (σ : Type) (b : Board σ) (m m' : Machine σ) (a : α), m.csLevel = l →
    exec b p m = some (a, m') → ∃ new, m'.log = new ++ m.log ∧ Q a (tape new) m'.csLevel

variable {p : Prog α} {f : α → Prog β} {l : Level} {P Q : α → List Exchange → Level → Prop}
  {R : β → List Exchange → Level → Prop}

theorem puts_pure {a : α} (h : Q a [] l) : Puts (pure a) l Q := by
  intro σ b m m' c level run
  cases run
  exact ⟨[], rfl, level ▸ h⟩

theorem puts_stuck : Puts (.stuck : Prog α) l Q := by
  intro σ b m m' a level run
  cases run

theorem puts_mono (hp : Puts p l P) (h : ∀ a xs l', P a xs l' → Q a xs l') : Puts p l Q := by
  intro σ b m m' a level run
  obtain ⟨new, log, put⟩ := hp σ b m m' a level run
  exact ⟨new, log, h _ _ _ put⟩

/-- First the tape of `p`, then that of `f`. -/
theorem puts_bind (hp : Puts p l P)
    (hf : ∀ a xs l', P a xs l' → Puts (f a) l' fun c ys l'' => R c (xs ++ ys) l'') :
    Puts (p >>= f) l R := by
  intro σ b m m' c level run
  obtain ⟨a, t, first, rest⟩ := exec_bind_some.1 run
  obtain ⟨new, log, put⟩ := hp σ b m t a level first
  obtain ⟨new', log', put'⟩ := hf a _ _ put σ b t m' c rfl rest
  refine ⟨new' ++ new, by rw [log', log, List.append_assoc], ?_⟩
  rw [tape_append]
  exact put'

theorem puts_ite {c : Prop} [Decidable c] {q : Prog α} (hp : c → Puts p l Q)
    (hq : ¬ c → Puts q l Q) : Puts (if c then p else q) l Q := by
  split
  · exact hp ‹_›
  · exact hq ‹_›

/-- A byte `x` sent. -/
theorem puts_xmitSpi {x : BYTE} {Q : BYTE → List Exchange → Level → Prop}
    (h : ∀ y, Q y [⟨l, x, y⟩] l) : Puts (xmitSpi x) l Q := by
  intro σ b m m' y level run
  subst level
  cases run
  exact ⟨[_], rfl, h _⟩

theorem puts_millis {Q : DWORD → List Exchange → Level → Prop} (h : ∀ t, Q t [] l) :
    Puts millis l Q := by
  intro σ b m m' t level run
  subst level
  cases run
  exact ⟨[_], rfl, h _⟩

theorem puts_assertCS {Q : Unit → List Exchange → Level → Prop} (h : Q () [] .low) :
    Puts assertCS l Q := by
  intro σ b m m' a level run
  cases run
  refine ⟨[], rfl, ?_⟩
  change Q () [] (Function.update m.out m.drv.cs .low m.drv.cs)
  rw [Function.update_self]
  exact h

theorem puts_deassertCS {Q : Unit → List Exchange → Level → Prop} (h : Q () [] .high) :
    Puts deassertCS l Q := by
  intro σ b m m' a level run
  cases run
  refine ⟨[], rfl, ?_⟩
  change Q () [] (Function.update m.out m.drv.cs .high m.drv.cs)
  rw [Function.update_self]
  exact h

/-! ## The functions on the bus -/

/-- Bytes received for filler sent, CS being at the level `l`. -/
def fillers (l : Level) (ys : List BYTE) : List Exchange := ys.map fun y => ⟨l, 0xFF, y⟩

theorem fillers_append (l : Level) (ys zs : List BYTE) :
    fillers l (ys ++ zs) = fillers l ys ++ fillers l zs := List.map_append

/-- Nothing but filler was sent. -/
def Idle (xs : List Exchange) : Prop := ∀ x ∈ xs, x.sent = 0xFF

theorem idle_fillers (l : Level) (ys : List BYTE) : Idle (fillers l ys) := by
  intro x mem
  obtain ⟨y, -, rfl⟩ := List.mem_map.mp mem
  rfl

theorem idle_append {xs ys : List Exchange} (hx : Idle xs) (hy : Idle ys) : Idle (xs ++ ys) := by
  intro x mem
  rcases List.mem_append.mp mem with mem | mem
  · exact hx x mem
  · exact hy x mem

theorem puts_filler {Q : BYTE → List Exchange → Level → Prop} (h : ∀ y, Q y (fillers l [y]) l) :
    Puts (xmitSpi 0xFF) l Q := puts_xmitSpi h

theorem puts_deselect : Puts deselect l fun _ xs l' => ∃ y, xs = fillers .high [y] ∧ l' = .high := by
  unfold deselect
  apply puts_bind (P := fun _ xs l' => xs = [] ∧ l' = .high)
  · apply puts_deassertCS
    exact ⟨rfl, rfl⟩
  · rintro _ _ _ ⟨rfl, rfl⟩
    apply puts_bind (puts_filler (Q := fun y xs l' => xs = fillers .high [y] ∧ l' = .high) ?_)
    · rintro y _ _ ⟨rfl, rfl⟩
      apply puts_pure
      exact ⟨y, rfl, rfl⟩
    · intro y
      exact ⟨rfl, rfl⟩

theorem puts_expired (timeout : TimeoutChecker) :
    Puts timeout.expired l fun _ xs l' => xs = [] ∧ l' = l := by
  apply puts_bind (puts_millis (Q := fun _ xs l' => xs = [] ∧ l' = l) fun t => ⟨rfl, rfl⟩)
  rintro t _ _ ⟨rfl, rfl⟩
  exact puts_pure ⟨rfl, rfl⟩

theorem puts_begin (duration : DWORD) :
    Puts (TimeoutChecker.begin duration) l fun _ xs l' => xs = [] ∧ l' = l := by
  apply puts_bind (puts_millis (Q := fun _ xs l' => xs = [] ∧ l' = l) fun t => ⟨rfl, rfl⟩)
  rintro t _ _ ⟨rfl, rfl⟩
  exact puts_pure ⟨rfl, rfl⟩

/-- Polls until the card sends 0xFF, or the time is up: then the last one shows which. -/
def Polled (l : Level) (ok : Bool) (xs : List Exchange) : Prop :=
  ∃ ys y, xs = fillers l (ys ++ [y]) ∧ ok = (y == 0xFF)

theorem puts_waitReadyLoop (timeout : TimeoutChecker) (fuel : Nat) :
    Puts (waitReadyLoop timeout fuel) l fun d xs l' =>
      (∃ ys, xs = fillers l (ys ++ [d])) ∧ l' = l := by
  induction fuel with
  | zero => exact puts_stuck
  | succ fuel ih =>
    unfold waitReadyLoop
    apply puts_bind (puts_filler (Q := fun y xs l' => xs = fillers l [y] ∧ l' = l)
      fun y => ⟨rfl, rfl⟩)
    rintro d _ _ ⟨rfl, rfl⟩
    apply puts_ite
    · intro ready
      apply puts_pure
      exact ⟨⟨[], rfl⟩, rfl⟩
    · intro busy
      apply puts_bind (puts_expired timeout)
      rintro late _ _ ⟨rfl, rfl⟩
      apply puts_ite
      · intro late
        apply puts_pure
        exact ⟨⟨[], rfl⟩, rfl⟩
      · intro early
        apply puts_mono ih
        rintro e xs l' ⟨⟨ys, rfl⟩, rfl⟩
        exact ⟨⟨d :: ys, rfl⟩, rfl⟩

theorem puts_waitReady (fuel : Nat) (wt : UINT) :
    Puts (waitReady fuel wt) l fun ok xs l' => Polled l ok xs ∧ l' = l := by
  unfold waitReady
  apply puts_bind (puts_begin wt)
  rintro timeout _ _ ⟨rfl, rfl⟩
  apply puts_bind (puts_waitReadyLoop timeout fuel)
  rintro d _ _ ⟨⟨ys, rfl⟩, rfl⟩
  apply puts_pure
  exact ⟨⟨ys, d, by simp, rfl⟩, rfl⟩

theorem Polled.idle {ok : Bool} {xs : List Exchange} (h : Polled l ok xs) : Idle xs := by
  obtain ⟨ys, y, rfl, -⟩ := h
  exact idle_fillers _ _

/-- What `select` puts: if the card got ready, the last byte was 0xFF with CS low. -/
theorem puts_select (fuel : Nat) : Puts (select fuel) l fun ok xs l' => Idle xs ∧
    (ok = true → l' = .low ∧ xs.getLast? = some ⟨.low, 0xFF, 0xFF⟩) := by
  unfold select
  apply puts_bind (puts_assertCS (Q := fun _ xs l' => xs = [] ∧ l' = .low) ⟨rfl, rfl⟩)
  rintro _ _ _ ⟨rfl, rfl⟩
  apply puts_bind (puts_filler (Q := fun y xs l' => xs = fillers .low [y] ∧ l' = .low)
    fun y => ⟨rfl, rfl⟩)
  rintro y _ _ ⟨rfl, rfl⟩
  apply puts_bind (puts_waitReady fuel 100)
  rintro ok xs _ ⟨polled, rfl⟩
  cases ok with
  | true =>
    apply puts_pure
    obtain ⟨ys, z, rfl, full⟩ := polled
    have full : z = 0xFF := by simpa using full.symm
    subst full
    refine ⟨?_, fun _ => ⟨rfl, ?_⟩⟩
    · simp only [List.nil_append, List.append_nil]
      exact idle_append (idle_fillers _ _) (idle_fillers _ _)
    · rw [fillers_append, ← List.append_assoc, List.append_nil, ← List.append_assoc]
      exact List.getLast?_concat
  | false =>
    apply puts_bind puts_deselect
    rintro _ _ _ ⟨z, rfl, rfl⟩
    apply puts_pure
    refine ⟨?_, nofun⟩
    simp only [List.nil_append, List.append_nil]
    exact idle_append (idle_fillers _ _) (idle_append polled.idle (idle_fillers _ _))

/-- The bytes looked at for R1: up to the first with bit 7 clear, ten at most. -/
structure Answer (res : BYTE) (ys : List BYTE) : Prop where
  bound : ys.length ≤ 10
  first : ys.find? (fun y => y &&& 0x80 = 0) = if res &&& 0x80 = 0 then some res else none
  last : ys.getLast? = some res

theorem puts_receiveResponse (n : Nat) : Puts (receiveResponse n) l fun res xs l' =>
    (∃ ys, xs = fillers l ys ∧ ys.length ≤ n + 1 ∧ ys.getLast? = some res ∧
      ys.find? (fun y => y &&& 0x80 = 0) = if res &&& 0x80 = 0 then some res else none) ∧
    l' = l := by
  have one (y : BYTE) : [y].find? (fun y => y &&& 0x80 = 0) =
      if y &&& 0x80 = 0 then some y else none := by
    simp [List.find?_cons]
    split <;> simp_all
  induction n with
  | zero =>
    unfold receiveResponse
    apply puts_filler
    intro y
    exact ⟨⟨[y], rfl, by simp, rfl, one y⟩, rfl⟩
  | succ n ih =>
    unfold receiveResponse
    apply puts_bind (puts_filler (Q := fun y xs l' => xs = fillers l [y] ∧ l' = l)
      fun y => ⟨rfl, rfl⟩)
    rintro y _ _ ⟨rfl, rfl⟩
    apply puts_ite
    · intro set
      apply puts_mono ih
      rintro res _ _ ⟨⟨ys, rfl, bound, last, first⟩, rfl⟩
      refine ⟨⟨y :: ys, rfl, ?_, ?_, ?_⟩, rfl⟩
      · simp only [List.length_cons]
        omega
      · rw [List.getLast?_cons, last]
        rfl
      · rw [List.find?_cons_of_neg (by simpa using set)]
        exact first
    · intro clear
      apply puts_pure
      exact ⟨⟨[y], rfl, by simp, rfl, one y⟩, rfl⟩

end FatFsParticle.Sdspi
