import FatFsParticle.Sdspi.Activity
import FatFsParticle.Sdspi.Exclusive
import FatFsParticle.Sdspi.Nesting

/-!
# The activity flags of a driver at work

Any number of threads that call one driver and check its activity, in every interleaving.
The mutex keeps the locks of different threads apart, so the flags go wrong only where a
thread unlocks a lock inside another one: at the end of the `ioctl` that
`CTRL_ERASE_SECTOR` calls.
-/

namespace FatFsParticle.Sdspi
open Interact Program

variable {T : Type} [DecidableEq T]

/-- The driver, its mutex, and the steps made at its activity flags, newest first. -/
structure Shared (T : Type) where
  drv : SdspiDriver
  mutex : Option (T × Nat)
  acts : List (Act T)

def Shared.stored (t : T) (f : SdspiDriver → SdspiDriver) (s : Shared T) : Shared T :=
  { s with
    drv := f s.drv
    acts := match flagStep f with
      | some true => .set t :: s.acts
      | some false => .clear t :: s.acts
      | none => s.acts }

/-- A request of the thread `t`; bytes, levels and ticks come out as they may. -/
def activityAct (t : T) : (r : Request) → r.Ans → Shared T → Shared T → Prop
  | .mutexLock _, _, s, s' => ∃ o, Acquire t s.mutex o ∧ s' = { s with mutex := o }
  | .mutexUnlock _, _, s, s' => ∃ o, Release t s.mutex o ∧ s' = { s with mutex := o }
  | .load, d, s, s' => d = s.drv ∧ s' = s
  | .store f, _, s, s' => s' = s.stored t f
  | _, _, s, s' => s' = s

/-- After `wasBusySinceLastCheck()`. -/
def Shared.checked (s : Shared T) : Shared T :=
  { s with
    drv := (wasBusySinceLastCheck s.drv).2
    acts := .check (wasBusySinceLastCheck s.drv).1 :: s.acts }

/-- Threads that make the given calls: between calls they may check, and lock and unlock the
mutex themselves. A job is how often its thread held the mutex when it began. -/
def activityWith (calls : Call → Prop) : Sharing Request.Ans T Nat (Shared T) where
  act t _ := activityAct t
  idle t s s' := s' = s.checked ∨
    ∃ o, (Acquire t s.mutex o ∨ Release t s.mutex o) ∧ s' = { s with mutex := o }
  code t depth s p := ∃ (c : Call) (fuel : Nat), calls c ∧ p = c.prog fuel ∧
    depth = depthOf s.mutex t

/-- Threads that make any calls. -/
abbrev activityOf : Sharing Request.Ans T Nat (Shared T) := activityWith fun _ => True

/-! ## What the ghost values tell -/

/-- The flags are what the steps made them. -/
structure FlagsTold (s : Shared T) : Prop where
  mutex : s.drv.mutex.isSome = true
  busy : s.drv.busy = busyAfter s.acts
  busyCheck : s.drv.busyCheck = busyCheckAfter s.acts
  answered : Answered s.acts
  serial : Serial s.acts

theorem FlagsTold.owned {s : Shared T} (h : FlagsTold s) (o : Option (T × Nat)) :
    FlagsTold { s with mutex := o } :=
  ⟨h.mutex, h.busy, h.busyCheck, h.answered, h.serial⟩

/-- The ghost value `l` of the thread `t` in a call begun at depth `j` tells the truth. -/
structure Deep (s : Shared T) (t : T) (j : Nat) (l : Nesting) : Prop where
  held : l.held = depthOf s.mutex t
  nest : l.nest = nest t s.acts
  le : j + l.nest ≤ l.held

structure Told (top : Nat) (s : Shared T) (g : T → Option (Nat × Nesting)) : Prop where
  flags : FlagsTold s
  flat : top ≤ 1 → Flat s.acts
  deep : ∀ t j l, g t = some (j, l) → Deep s t j l
  away : ∀ t, g t = none → nest t s.acts = 0

namespace Told

variable {top : Nat} {s s' : Shared T} {g : T → Option (Nat × Nesting)} {t u : T} {j : Nat}
  {l l' : Nesting}

/-- A thread whose locks set the flags holds the mutex. -/
theorem owns (h : Told top s g) (more : 0 < nest t s.acts) : 0 < depthOf s.mutex t := by
  cases ht : g t with
  | none =>
    rw [h.away t ht] at more
    exact absurd more (Nat.lt_irrefl 0)
  | some x =>
    obtain ⟨j, l⟩ := x
    have deep := h.deep t j l ht
    have same := deep.nest
    have held := deep.held
    have le := deep.le
    omega

theorem alone (h : Told top s g) (held : 0 < depthOf s.mutex t) (other : u ≠ t) : nest u s.acts = 0 := by
  by_contra more
  exact other (owner_unique (h.owns (Nat.pos_of_ne_zero more)) held)

/-- The thread `t` goes on with the ghost value `l'`, the others as they are. -/
theorem update (h : Told top s g) (flags : FlagsTold s') (flat : top ≤ 1 → Flat s'.acts)
    (mine : Deep s' t j l')
    (others : ∀ u, u ≠ t → depthOf s'.mutex u = depthOf s.mutex u ∧
      Sdspi.nest u s'.acts = Sdspi.nest u s.acts) :
    Told top s' (Function.update g t (some (j, l'))) := by
  refine ⟨flags, flat, ?_, ?_⟩
  · intro u i k hu
    by_cases own : u = t
    · subst own
      obtain ⟨rfl, rfl⟩ := by simpa using hu
      exact mine
    · rw [Function.update_of_ne own] at hu
      have deep := h.deep u i k hu
      obtain ⟨depth, locks⟩ := others u own
      exact ⟨deep.held.trans depth.symm, deep.nest.trans locks.symm, deep.le⟩
  · intro u hu
    by_cases own : u = t
    · subst own
      simp at hu
    · rw [Function.update_of_ne own] at hu
      exact (others u own).2.trans (h.away u hu)

/-- A request that touches neither the mutex nor the flags. -/
theorem quiet (h : Told top s g) (ht : g t = some (j, l)) :
    Told top s (Function.update g t (some (j, l))) := by
  rw [← ht, Function.update_eq_self]
  exact h

theorem mutexLock (h : Told top s g) (ht : g t = some (j, l)) {o : Option (T × Nat)}
    (acquire : Acquire t s.mutex o) :
    Told top { s with mutex := o } (Function.update g t (some (j, { l with held := l.held + 1 }))) := by
  have deep := h.deep t j l ht
  apply h.update (h.flags.owned o) h.flat
  · constructor
    · simp [depthOf_acquire acquire, deep.held]
    · exact deep.nest
    · exact Nat.le_succ_of_le deep.le
  · intro u other
    exact ⟨depthOf_acquire_ne acquire other, rfl⟩

theorem mutexUnlock (h : Told top s g) (ht : g t = some (j, l)) (above : j + l.nest < l.held)
    {o : Option (T × Nat)} (release : Release t s.mutex o) :
    Told top { s with mutex := o } (Function.update g t (some (j, { l with held := l.held - 1 }))) := by
  have deep := h.deep t j l ht
  apply h.update (h.flags.owned o) h.flat
  · constructor
    · have before := deep.held
      rw [depthOf_release release] at before
      simp [before]
    · exact deep.nest
    · exact Nat.le_sub_one_of_lt above
  · intro u other
    exact ⟨(depthOf_release_ne release other).symm ▸ rfl, rfl⟩

theorem stored_set (h : Told top s g) (ht : g t = some (j, l)) (above : j + l.nest < l.held)
    {f : SdspiDriver → SdspiDriver} (honest : Honest f) (step : flagStep f = some true) :
    Told top (s.stored t f) (Function.update g t (some (j, { l with nest := l.nest + 1 }))) := by
  have deep := h.deep t j l ht
  have after : s.stored t f = ⟨f s.drv, s.mutex, .set t :: s.acts⟩ := by
    simp only [Shared.stored, step]
  obtain ⟨mutex, flags⟩ := honest s.drv
  rw [step] at flags
  rw [after]
  apply h.update
  · constructor
    · simpa [mutex] using h.flags.mutex
    · exact flags.1
    · exact flags.2
    · exact h.flags.answered
    · exact h.flags.serial
  · exact h.flat
  · constructor
    · exact deep.held
    · simp [deep.nest]
    · exact above
  · intro u other
    exact ⟨rfl, nest_set_ne other _⟩

theorem stored_clear (h : Told top s g) (ht : g t = some (j, l)) (more : 0 < l.nest)
    (room : l.nest ≤ top) {f : SdspiDriver → SdspiDriver} (honest : Honest f) (step : flagStep f = some false) :
    Told top (s.stored t f) (Function.update g t (some (j, { l with nest := l.nest - 1 }))) := by
  have deep := h.deep t j l ht
  have after : s.stored t f = ⟨f s.drv, s.mutex, .clear t :: s.acts⟩ := by
    simp only [Shared.stored, step]
  obtain ⟨mutex, flags⟩ := honest s.drv
  rw [step] at flags
  have held : 0 < depthOf s.mutex t := by
    have le := deep.le
    have depth := deep.held
    omega
  rw [after]
  apply h.update
  · constructor
    · simpa [mutex] using h.flags.mutex
    · exact flags.1
    · exact flags.2.trans h.flags.busyCheck
    · exact h.flags.answered
    · exact ⟨fun u other => h.alone held other, h.flags.serial⟩
  · intro one
    exact ⟨deep.nest ▸ Nat.le_trans room one, h.flat one⟩
  · constructor
    · exact deep.held
    · simp [deep.nest]
    · have le := deep.le
      change j + (l.nest - 1) ≤ l.held
      omega
  · intro u other
    exact ⟨rfl, nest_clear_ne other _⟩

theorem stored_none (h : Told top s g) (ht : g t = some (j, l)) {f : SdspiDriver → SdspiDriver}
    (honest : Honest f) (step : flagStep f = none) :
    Told top (s.stored t f) (Function.update g t (some (j, l))) := by
  have deep := h.deep t j l ht
  have after : s.stored t f = ⟨f s.drv, s.mutex, s.acts⟩ := by
    simp only [Shared.stored, step]
  obtain ⟨mutex, flags⟩ := honest s.drv
  rw [step] at flags
  rw [after]
  apply h.update
  · constructor
    · simpa [mutex] using h.flags.mutex
    · exact flags.1.trans h.flags.busy
    · exact flags.2.trans h.flags.busyCheck
    · exact h.flags.answered
    · exact h.flags.serial
  · exact h.flat
  · exact ⟨deep.held, deep.nest, deep.le⟩
  · intro u other
    exact ⟨rfl, rfl⟩

/-! ### Between calls -/

theorem checked (h : Told top s g) : Told top s.checked g := by
  refine ⟨?_, h.flat, ?_, ?_⟩
  · constructor
    · exact h.flags.mutex
    · exact h.flags.busy
    · exact h.flags.busy
    · exact ⟨h.flags.busyCheck, h.flags.answered⟩
    · exact h.flags.serial
  · intro u i k hu
    have deep := h.deep u i k hu
    exact ⟨deep.held, deep.nest, deep.le⟩
  · exact h.away

theorem idle (h : Told top s g) (free : g t = none) {o : Option (T × Nat)}
    (owned : Acquire t s.mutex o ∨ Release t s.mutex o) : Told top { s with mutex := o } g := by
  refine ⟨h.flags.owned o, h.flat, ?_, h.away⟩
  intro u i k hu
  have deep := h.deep u i k hu
  have other : u ≠ t := by
    rintro rfl
    rw [free] at hu
    cases hu
  refine ⟨?_, deep.nest, deep.le⟩
  rcases owned with owned | owned
  · exact deep.held.trans (depthOf_acquire_ne owned other).symm
  · exact deep.held.trans (depthOf_release_ne owned other).symm

theorem begin (h : Told top s g) (free : g t = none) (depth : j = depthOf s.mutex t) :
    Told top s (Function.update g t (some (j, ⟨j, 0⟩))) := by
  apply h.update h.flags h.flat
  · exact ⟨depth, (h.away t free).symm, Nat.le_refl _⟩
  · intro u other
    exact ⟨rfl, rfl⟩

theorem done (h : Told top s g) (ht : g t = some (j, l)) (flat : l.nest = 0) :
    Told top s (Function.update g t none) := by
  refine ⟨h.flags, h.flat, ?_, ?_⟩
  · intro u i k hu
    by_cases own : u = t
    · subst own
      simp at hu
    · rw [Function.update_of_ne own] at hu
      exact h.deep u i k hu
  · intro u hu
    by_cases own : u = t
    · subst own
      exact (h.deep u j l ht).nest.symm.trans flat
    · rw [Function.update_of_ne own] at hu
      exact h.away u hu

end Told

/-! ## The protocol -/

theorem flag_act {top : Nat} {s s' : Shared T} {g : T → Option (Nat × Nesting)} {t : T} {j : Nat} {l : Nesting}
    {r : Request} {x : r.Ans} (h : Told top s g) (ht : g t = some (j, l))
    (allowed : (flagRules top j).allowed l r) (step : activityAct t r x s s') :
    ∃ l', (flagRules top j).step l r x l' ∧ Told top s' (Function.update g t (some (j, l'))) := by
  cases r with
  | transfer | digitalWrite | digitalRead | millis | delay | spi | mark =>
    cases step
    exact ⟨l, rfl, h.quiet ht⟩
  | load =>
    obtain ⟨rfl, rfl⟩ := step
    exact ⟨l, ⟨h.flags.mutex, rfl⟩, h.quiet ht⟩
  | mutexLock m =>
    obtain ⟨o, acquire, rfl⟩ := step
    exact ⟨_, rfl, h.mutexLock ht acquire⟩
  | mutexUnlock m =>
    obtain ⟨o, release, rfl⟩ := step
    exact ⟨_, rfl, h.mutexUnlock ht allowed release⟩
  | store f =>
    cases step
    obtain ⟨honest, side⟩ := allowed
    refine ⟨_, rfl, ?_⟩
    cases kind : flagStep f with
    | none => exact h.stored_none ht honest kind
    | some b =>
      rw [kind] at side
      cases b with
      | true => exact h.stored_set ht side honest kind
      | false => exact h.stored_clear ht side.1 side.2 honest kind

/-- The calls lock `top` deep at most. -/
def flagProtocol (top : Nat) {calls : Call → Prop}
    (levels : ∀ c fuel, calls c → Balanced top 0 (c.prog fuel)) :
    Protocol (activityWith (T := T) calls) Nesting where
  rules := flagRules top
  post _ l := l.nest = 0
  coherent := Told top
  idle s s' g t h free := by
    rintro (rfl | ⟨o, owned, rfl⟩)
    · exact h.checked
    · exact h.idle free owned
  begin s g t j p h free := by
    rintro ⟨c, fuel, made, rfl, depth⟩
    refine ⟨⟨j, 0⟩, ?_, h.begin free depth⟩
    apply wp_mono (levels c fuel made top j j 0 (Nat.le_refl 0) (Nat.le_of_eq (Nat.zero_add top)) (Nat.le_refl j))
    rintro _ l rfl
    rfl
  sees _ _ _ := True
  act _ _ _ _ _ _ _ _ h ht allowed step := by
    obtain ⟨l', moved, told⟩ := flag_act h ht allowed step
    exact ⟨l', moved, told, trivial⟩
  done _ _ _ _ _ h ht post := h.done ht post

/-! ## Whole runs -/

variable {c₀ c c' : Pool Request.Ans T Nat (Shared T)}

theorem SetUp.flags {d : SdspiDriver} (h : SetUp d) : d.busy = false ∧ d.busyCheck = false := by
  induction h with
  | begin => exact ⟨rfl, rfl⟩
  | cardDetect _ _ _ ih | writeProtect _ _ _ ih => exact ih

/-- A driver with a mutex, as constructed, before any call. -/
structure Fresh (c₀ : Pool Request.Ans T Nat (Shared T)) : Prop where
  idle : ∀ t, c₀.threads t = none
  setUp : SetUp c₀.shared.drv
  mutex : c₀.shared.drv.mutex.isSome = true
  acts : c₀.shared.acts = []

theorem told_of_run {top : Nat} {calls : Call → Prop}
    (levels : ∀ c fuel, calls c → Balanced top 0 (c.prog fuel)) (fresh : Fresh c₀)
    (run : Relation.ReflTransGen (Pool.Step (activityWith calls)) c₀ c) :
    ∃ g, Told top c.shared g := by
  have start : (flagProtocol top levels).Follows c₀ := by
    have acts := fresh.acts
    refine ⟨fun _ => none, ⟨⟨fresh.mutex, ?_, ?_, ?_, ?_⟩, ?_, ?_, ?_⟩, ?_⟩
    · simp [acts, busyAfter, fresh.setUp.flags.1]
    · simp [acts, busyCheckAfter, fresh.setUp.flags.2]
    · simp [acts, Answered]
    · simp [acts, Serial]
    · simp [acts, Flat]
    · intro t j l h
      cases h
    · intro t _
      simp [acts, nest]
    · intro t
      rw [fresh.idle t]
      exact .none
  obtain ⟨g, told, -⟩ := (flagProtocol top levels).run_follows start run
  exact ⟨g, told⟩

/-- Whatever the calls are. -/
theorem flags_of_run (fresh : Fresh c₀)
    (run : Relation.ReflTransGen (Pool.Step activityOf) c₀ c) : FlagsTold c.shared := by
  have levels (c : Call) (fuel : Nat) (_ : True) : Balanced 2 0 (c.prog fuel) := balanced_call fuel c
  obtain ⟨g, told⟩ := told_of_run levels fresh run
  exact told.flags

/-- Without `CTRL_ERASE_SECTOR` no `unlock()` is nested. -/
theorem flat_of_plain (fresh : Fresh c₀)
    (run : Relation.ReflTransGen (Pool.Step (activityWith Call.Plain)) c₀ c) :
    Flat c.shared.acts := by
  have levels (c : Call) (fuel : Nat) (plain : c.Plain) : Balanced 1 0 (c.prog fuel) :=
    balanced_plain fuel plain
  obtain ⟨g, told⟩ := told_of_run levels fresh run
  exact told.flat (Nat.le_refl 1)

/-- A step notes one step at the flags, or none. -/
theorem step_acts (step : Pool.Step activityOf c c') :
    c'.shared.acts = c.shared.acts ∨ ∃ act, c'.shared.acts = act :: c.shared.acts := by
  cases step with
  | idle t free h =>
    rcases h with rfl | ⟨o, -, rfl⟩
    · exact .inr ⟨_, rfl⟩
    · exact .inl rfl
  | begin => exact .inl rfl
  | act t j r k x running h =>
    cases r with
    | transfer | digitalWrite | digitalRead | millis | delay | spi | mark =>
      cases h
      exact .inl rfl
    | load =>
      obtain ⟨-, rfl⟩ := h
      exact .inl rfl
    | mutexLock | mutexUnlock =>
      obtain ⟨o, -, rfl⟩ := h
      exact .inl rfl
    | store f =>
      cases h
      change (Shared.stored t f _).acts = _ ∨ ∃ act, (Shared.stored t f _).acts = _
      unfold Shared.stored
      split
      · exact .inr ⟨_, rfl⟩
      · exact .inr ⟨_, rfl⟩
      · exact .inl rfl

/-- The steps only grow. -/
theorem run_acts (run : Relation.ReflTransGen (Pool.Step activityOf) c c') :
    ∃ newer, c'.shared.acts = newer ++ c.shared.acts := by
  induction run with
  | refl => exact ⟨[], rfl⟩
  | tail _ step ih =>
    obtain ⟨newer, grown⟩ := ih
    rcases step_acts step with same | ⟨act, more⟩
    · exact ⟨newer, same.trans grown⟩
    · refine ⟨act :: newer, ?_⟩
      rw [more, grown]
      rfl

/-- The run was once where it had made the older of its steps only. -/
theorem run_passes (fresh : Fresh c₀) (run : Relation.ReflTransGen (Pool.Step activityOf) c₀ c)
    {newer older : List (Act T)} (acts : c.shared.acts = newer ++ older) :
    ∃ c', Relation.ReflTransGen (Pool.Step activityOf) c₀ c' ∧
      Relation.ReflTransGen (Pool.Step activityOf) c' c ∧ c'.shared.acts = older := by
  induction run generalizing newer with
  | refl =>
    rw [fresh.acts] at acts
    obtain ⟨-, rfl⟩ := List.append_eq_nil_iff.mp acts.symm
    exact ⟨_, .refl, .refl, fresh.acts⟩
  | tail run step ih =>
    cases newer with
    | nil => exact ⟨_, run.tail step, .refl, acts⟩
    | cons act newer =>
      rcases step_acts step with same | ⟨act', more⟩
      · obtain ⟨c', first, rest, passed⟩ := ih (same.symm.trans acts)
        exact ⟨c', first, rest.tail step, passed⟩
      · rw [acts] at more
        obtain ⟨-, earlier⟩ := List.cons.inj more
        obtain ⟨c', first, rest, passed⟩ := ih earlier.symm
        exact ⟨c', first, rest.tail step, passed⟩

/-- Every check told of the activity since the one before, and `_busy` was true all the
while an operation was in progress. -/
def ActivityRight (c₀ c : Pool Request.Ans T Nat (Shared T)) : Prop :=
  ChecksRight c.shared.acts ∧
    ∀ c', Relation.ReflTransGen (Pool.Step activityOf) c₀ c' →
      Relation.ReflTransGen (Pool.Step activityOf) c' c →
      InProgress c'.shared.acts → c'.shared.drv.busy = true

/-- The step that goes wrong: a thread unlocks inside another lock of its own. -/
theorem exists_nested_clear {acts : List (Act T)} (nested : ¬ Flat acts) :
    ∃ newer t older, acts = newer ++ .clear t :: older ∧ 1 < nest t older := by
  induction acts with
  | nil => exact absurd trivial nested
  | cons act older ih =>
    have deeper (nested : ¬ Flat older) : ∃ newer t rest,
        act :: older = newer ++ .clear t :: rest ∧ 1 < nest t rest := by
      obtain ⟨newer, t, rest, rfl, more⟩ := ih nested
      exact ⟨act :: newer, t, rest, rfl, more⟩
    cases act with
    | set t => exact deeper nested
    | check answer => exact deeper nested
    | clear t =>
      by_cases one : nest t older ≤ 1
      · exact deeper fun flat => nested ⟨one, flat⟩
      · exact ⟨[], t, older, rfl, Nat.lt_of_not_le one⟩

/-! ### One thread alone -/

/-- After a request of the thread `t` that came out as `x`, where that can be. -/
def Shared.next (t : T) (s : Shared T) : (r : Request) → r.Ans → Option (Shared T)
  | .mutexLock _, _ => match s.mutex with
    | none => some { s with mutex := some (t, 0) }
    | some (u, n) => if u = t then some { s with mutex := some (t, n + 1) } else none
  | .mutexUnlock _, _ => match s.mutex with
    | none => none
    | some (u, 0) => if u = t then some { s with mutex := none } else none
    | some (u, n + 1) => if u = t then some { s with mutex := some (t, n) } else none
  | .load, d => if d = s.drv then some s else none
  | .store f, _ => some (s.stored t f)
  | _, _ => some s

theorem Shared.next_act {s s' : Shared T} {t : T} {r : Request} {x : r.Ans}
    (h : s.next t r x = some s') : activityAct t r x s s' := by
  cases r with
  | transfer | digitalWrite | digitalRead | millis | delay | spi | mark =>
    cases h
    rfl
  | load =>
    obtain ⟨same, rfl⟩ := by simpa [Shared.next] using h
    exact ⟨same, rfl⟩
  | store f =>
    cases h
    rfl
  | mutexLock m =>
    simp only [Shared.next] at h
    split at h
    · rename_i free
      cases h
      exact ⟨_, .inl ⟨free, rfl⟩, rfl⟩
    · rename_i u n owned
      obtain ⟨rfl, rfl⟩ := by simpa using h
      exact ⟨_, .inr ⟨n, owned, rfl⟩, rfl⟩
  | mutexUnlock m =>
    simp only [Shared.next] at h
    split at h
    · cases h
    · rename_i u owned
      obtain ⟨rfl, rfl⟩ := by simpa using h
      exact ⟨_, .inl ⟨owned, rfl⟩, rfl⟩
    · rename_i u n owned
      obtain ⟨rfl, rfl⟩ := by simpa using h
      exact ⟨_, .inr ⟨n, owned, rfl⟩, rfl⟩

/-- The first `n` requests that the thread `t` makes, answered by a board. -/
def solo {σ : Type} (b : Board σ) (t : T) :
    Prog Unit → Nat → Shared T × Machine σ → Option (Prog Unit × Shared T × Machine σ)
  | .call r k, n + 1, (s, m) =>
    let (x, m') := m.handle b r
    match s.next t r x with
    | some s' => solo b t (k x) n (s', m')
    | none => none
  | p, _, x => some (p, x)

theorem solo_run {P : Call → Prop} {σ : Type} {b : Board σ} {t : T} {j : Nat} {p p' : Prog Unit} {n : Nat}
    {s s' : Shared T} {m m' : Machine σ} {ts : T → Option (Nat × Prog Unit)}
    (h : solo b t p n (s, m) = some (p', s', m')) :
    Relation.ReflTransGen (Pool.Step (activityWith P)) ⟨s, Function.update ts t (Pool.resume j p)⟩
      ⟨s', Function.update ts t (Pool.resume j p')⟩ := by
  induction p generalizing n s m with
  | ret | stuck =>
    cases h
    exact .refl
  | call r k ih =>
    cases n with
    | zero =>
      cases h
      exact .refl
    | succ n =>
      simp only [solo] at h
      split at h
      · rename_i s₁ moved
        have step := Pool.Step.act (W := activityWith P) t j r k _
          (Function.update_self t (some (j, .call r k)) ts) (Shared.next_act moved)
        rw [Function.update_idem] at step
        exact (ih _ h).head step
      · cases h

/-- An idle thread alone with a call that obeys the answers of a board. -/
theorem solo_call {P : Call → Prop} {σ : Type} {b : Board σ} {t : T} {c : Call} {fuel n : Nat} {p' : Prog Unit}
    {s s' : Shared T} {m m' : Machine σ} (ts : T → Option (Nat × Prog Unit)) (free : ts t = none) (allowed : P c)
    (h : solo b t (c.prog fuel) n (s, m) = some (p', s', m')) :
    Relation.ReflTransGen (Pool.Step (activityWith P)) ⟨s, ts⟩
      ⟨s', Function.update ts t (Pool.resume (depthOf s.mutex t) p')⟩ := by
  have begins := Pool.Step.begin (W := activityWith P) (s := s) t (depthOf s.mutex t) (c.prog fuel) free
    ⟨c, fuel, allowed, rfl, rfl⟩
  exact (solo_run h).head begins

theorem run_check {P : Call → Prop} {t : T} {s : Shared T} {ts : T → Option (Nat × Prog Unit)} (free : ts t = none) :
    Pool.Step (activityWith P) ⟨s, ts⟩ ⟨s.checked, ts⟩ :=
  .idle t free (.inl rfl)

/-- A driver on pin 10, constructed and begun. -/
def constructed : Pool Request.Ans Nat Nat (Shared Nat) where
  shared := ⟨.begin 10 (some 0), none, []⟩
  threads _ := none

theorem constructed_fresh : Fresh constructed := ⟨fun _ => rfl, .begin 10 (some 0), rfl, rfl⟩

def slotted : Machine Scripted :=
  .start (.begin 10 (some 0)) (fun _ => .high) 0 ⟨fun _ => .high, [], []⟩

/-! ### The flags of a run -/

theorem activity_right_of_flat (fresh : Fresh c₀)
    (run : Relation.ReflTransGen (Pool.Step activityOf) c₀ c) (flat : Flat c.shared.acts) :
    ActivityRight c₀ c := by
  have flags := flags_of_run fresh run
  refine ⟨checksRight flags.serial flags.answered flat, ?_⟩
  intro c' first rest progress
  have before := flags_of_run fresh first
  obtain ⟨newer, grown⟩ := run_acts rest
  rw [grown] at flat
  rw [before.busy]
  exact (busy_iff before.serial flat.older).mpr progress

/-- The activity flags tell right in exactly the runs without an `unlock()` of a lock inside
another lock of the same thread. Where nobody erases there is none. -/
theorem activity_right_iff (fresh : Fresh c₀)
    (run : Relation.ReflTransGen (Pool.Step activityOf) c₀ c) :
    (ActivityRight c₀ c ↔ Flat c.shared.acts) ∧
      (Relation.ReflTransGen (Pool.Step (activityWith Call.Plain)) c₀ c → Flat c.shared.acts) := by
  refine ⟨⟨?_, activity_right_of_flat fresh run⟩, flat_of_plain fresh⟩
  rintro ⟨-, stays⟩
  by_contra nested
  obtain ⟨newer, t, older, acts, more⟩ := exists_nested_clear nested
  obtain ⟨c', first, rest, passed⟩ := run_passes fresh run acts
  have progress : InProgress c'.shared.acts := by
    refine ⟨t, ?_⟩
    rw [passed, nest_clear_self]
    omega
  have busy := stays c' first rest progress
  rw [(flags_of_run fresh first).busy, passed] at busy
  cases busy

set_option maxRecDepth 100000 in
/-- Thread 0 has initialised the card, and thread 2 checks. -/
theorem activity_right_iff_initialised : ∃ c,
    Relation.ReflTransGen (Pool.Step activityOf) constructed c ∧
    c.shared.acts = [.check true, .clear 0, .set 0] ∧ ActivityRight constructed c := by
  have run : ((solo (scripted sdhcAnswer) 0 (Call.initializeCard.prog 5) 100000
      (constructed.shared, slotted)).any fun x => x.2.1.acts == [.clear 0, .set 0] &&
      x.2.1.drv.busyCheck) = true := by
    decide +kernel
  simp only [Option.any_eq_true, Bool.and_eq_true, beq_iff_eq] at run
  obtain ⟨⟨p, s, m⟩, initialised, before, checked⟩ := run
  have reach {P : Call → Prop} (allowed : P .initializeCard) :=
    (solo_call constructed.threads rfl allowed initialised).tail (run_check (t := 2) rfl)
  have acts : s.checked.acts = [.check true, .clear 0, .set 0] := by
    change .check s.drv.busyCheck :: s.acts = _
    rw [before, checked]
  obtain ⟨right, plain⟩ := activity_right_iff constructed_fresh (reach (P := fun _ => True) trivial)
  exact ⟨_, reach trivial, acts, right.2 (plain (reach (P := Call.Plain) trivial))⟩

set_option maxRecDepth 100000 in
/-- The `unlock()` of the nested `ioctl` clears `_busy` while the erase goes on: of two checks
after it the second returns false. -/
theorem nested_unlock_unseen : Fresh constructed ∧ ∃ c,
    Relation.ReflTransGen (Pool.Step activityOf) constructed c ∧
    c.shared.acts = [.check false, .check true, .clear 1, .set 1, .set 1, .clear 0, .set 0] ∧
    ¬ ActivityRight constructed c := by
  refine ⟨constructed_fresh, ?_⟩
  have run : ((solo (scripted sdhcAnswer) 0 (Call.initializeCard.prog 5) 100000
      (constructed.shared, slotted)).any fun x =>
      (solo (scripted sdhcAnswer) 1 ((Call.ioctl ctrlEraseSector (0, 7)).prog 2) 27 x.2).any
        fun y => y.2.1.acts == [.clear 1, .set 1, .set 1, .clear 0, .set 0] &&
          y.2.1.drv.busyCheck && !y.2.1.drv.busy) = true := by
    decide +kernel
  simp only [Option.any_eq_true, Bool.and_eq_true, beq_iff_eq, Bool.not_eq_true'] at run
  obtain ⟨⟨p, s, m⟩, initialised, ⟨p', s', m'⟩, erasing, ⟨before, checked⟩, cleared⟩ := run
  have first := solo_call (P := fun _ => True) constructed.threads rfl trivial initialised
  have second := solo_call (P := fun _ => True)
    (Function.update constructed.threads 0 (Pool.resume 0 p)) rfl trivial erasing
  have reach := ((first.trans second).tail (run_check (t := 2) rfl)).tail (run_check (t := 2) rfl)
  have acts : s'.checked.checked.acts =
      [.check false, .check true, .clear 1, .set 1, .set 1, .clear 0, .set 0] := by
    change [.check s'.drv.busy, .check s'.drv.busyCheck] ++ s'.acts = _
    rw [before, checked, cleared]
    rfl
  refine ⟨_, reach, acts, ?_⟩
  rintro ⟨right, -⟩
  change ChecksRight s'.checked.checked.acts at right
  rw [acts] at right
  have progress : InProgress [.clear 1, .set 1, .set 1, .clear 0, .set 0] := ⟨1, by decide⟩
  cases right.1.mpr progress

end FatFsParticle.Sdspi
