import FatFsParticle.Sdspi.Sharing

/-!
# Exclusive use of a shared bus

Drivers with distinct CS pins and one recursive mutex keep the bus to one of them at
a time: `Coherent` ties the ghost values of the running calls to the mutex, the pins
and the peripheral, and every request of every thread keeps it.
-/

namespace FatFsParticle.Sdspi
open Interact Program

variable {D T : Type} {mu : MutexId} {pin : D → Pin}

section
variable [DecidableEq T] {t u : T} {o o' : Option (T × Nat)}

theorem depthOf_acquire (h : Acquire t o o') : depthOf o' t = depthOf o t + 1 := by
  rcases h with ⟨rfl, rfl⟩ | ⟨n, rfl, rfl⟩ <;> simp [depthOf]

theorem depthOf_acquire_ne (h : Acquire t o o') (hu : u ≠ t) : depthOf o' u = depthOf o u := by
  rcases h with ⟨rfl, rfl⟩ | ⟨n, rfl, rfl⟩ <;> simp [depthOf, hu.symm]

theorem depthOf_release (h : Release t o o') : depthOf o t = depthOf o' t + 1 := by
  rcases h with ⟨rfl, rfl⟩ | ⟨n, rfl, rfl⟩ <;> simp [depthOf]

theorem depthOf_release_ne (h : Release t o o') (hu : u ≠ t) : depthOf o' u = depthOf o u := by
  rcases h with ⟨rfl, rfl⟩ | ⟨n, rfl, rfl⟩ <;> simp [depthOf, hu.symm]

/-- A mutex has one owner. -/
theorem owner_unique (ht : 0 < depthOf o t) (hu : 0 < depthOf o u) : t = u := by
  cases o with
  | none => cases ht
  | some x =>
    obtain ⟨w, n⟩ := x
    by_cases h : w = t
    · by_cases h' : w = u
      · exact h.symm.trans h'
      · simp [depthOf, h'] at hu
    · simp [depthOf, h] at ht

/-- Who takes a mutex finds it free or his own. -/
theorem acquire_owner (h : Acquire t o o') (hu : 0 < depthOf o u) : u = t := by
  rcases h with ⟨rfl, -⟩ | ⟨n, rfl, -⟩
  · cases hu
  · exact owner_unique hu (by simp [depthOf])

end

/-- The ghost value `l` of the thread `t` in the call `j` tells the truth. -/
structure Fits [DecidableEq T] (mu : MutexId) (pin : D → Pin) (s : SharedBus D T) (t : T)
    (j : Job D) (l : Ghost) : Prop where
  held : l.held = depthOf (s.mutex mu) t
  le : j.depth ≤ l.held
  level : 0 < l.held → s.out (pin j.drv) = l.cs
  conf : 0 < l.held → l.conf = true → s.configured = some j.drv
  free : l.held = 0 → l.cs = .high
  low : l.cs = .low → l.conf = true

structure Coherent [DecidableEq T] (mu : MutexId) (pin : D → Pin) (s : SharedBus D T)
    (g : T → Option (Job D × Ghost)) : Prop where
  cs : ∀ d, (s.drv d).cs = pin d
  mutex : ∀ d, (s.drv d).mutex = some mu
  fits : ∀ t j l, g t = some (j, l) → Fits mu pin s t j l
  low : ∀ d, s.out (pin d) = .low → ∃ t j l, g t = some (j, l) ∧ j.drv = d ∧ 0 < l.held ∧
    l.cs = .low

namespace Coherent

variable [DecidableEq T] {s s' : SharedBus D T} {g : T → Option (Job D × Ghost)} {t : T}
  {j : Job D} {l l' : Ghost}

theorem holder (h : Coherent mu pin s g) {u : T} {i : Job D} {k : Ghost} (hu : g u = some (i, k))
    (held : 0 < k.held) (ht : 0 < depthOf (s.mutex mu) t) : u = t := by
  rw [(h.fits u i k hu).held] at held
  exact owner_unique held ht

/-- While `t` holds the mutex, a call that is not its own holds nothing. -/
theorem away (h : Coherent mu pin s g) (ht : 0 < depthOf (s.mutex mu) t) {u : T} (hu : u ≠ t)
    {i : Job D} {k : Ghost} (hg : g u = some (i, k)) : k.held = 0 := by
  by_contra held
  exact hu (h.holder hg (Nat.pos_of_ne_zero held) ht)

/-- A thread that holds the mutex between calls sees every CS pin high. -/
theorem idle_high (h : Coherent mu pin s g) (ht : 0 < depthOf (s.mutex mu) t) (free : g t = none)
    (d : D) : s.out (pin d) = .high := by
  cases hd : s.out (pin d) with
  | high => rfl
  | low =>
    obtain ⟨u, i, k, hu, -, held, -⟩ := h.low d hd
    rw [h.holder hu held ht, free] at hu
    cases hu

/-- The thread `t` goes on with the ghost value `l'`, the others as they are. -/
theorem update (h : Coherent mu pin s g) (hdrv : s'.drv = s.drv) (hfits : Fits mu pin s' t j l')
    (others : ∀ u i k, u ≠ t → Fits mu pin s u i k → g u = some (i, k) → Fits mu pin s' u i k)
    (hlow : ∀ d, s'.out (pin d) = .low → d = j.drv ∧ 0 < l'.held ∧ l'.cs = .low ∨
      ∃ u i k, u ≠ t ∧ g u = some (i, k) ∧ i.drv = d ∧ 0 < k.held ∧ k.cs = .low) :
    Coherent mu pin s' (Function.update g t (some (j, l'))) := by
  refine ⟨fun d => hdrv ▸ h.cs d, fun d => hdrv ▸ h.mutex d, ?_, ?_⟩
  · intro u i k hu
    by_cases hut : u = t
    · subst hut
      obtain ⟨rfl, rfl⟩ := by simpa using hu
      exact hfits
    · rw [Function.update_of_ne hut] at hu
      exact others u i k hut (h.fits u i k hu) hu
  · intro d hd
    rcases hlow d hd with ⟨rfl, held, cs⟩ | ⟨u, i, k, hut, hu, drv, held, cs⟩
    · exact ⟨t, j, l', by simp, rfl, held, cs⟩
    · exact ⟨u, i, k, by rw [Function.update_of_ne hut, hu], drv, held, cs⟩

/-- Where the pins, the mutexes and the peripheral are as before, so are the low pins. -/
theorem low_same (h : Coherent mu pin s g) (ht : g t = some (j, l)) (l' : Ghost) (same : s'.out = s.out)
    (cs : l'.cs = l.cs) (held : 0 < l.held → 0 < l'.held) {d : D}
    (hd : s'.out (pin d) = .low) : d = j.drv ∧ 0 < l'.held ∧ l'.cs = .low ∨
      ∃ u i k, u ≠ t ∧ g u = some (i, k) ∧ i.drv = d ∧ 0 < k.held ∧ k.cs = .low := by
  rw [same] at hd
  obtain ⟨u, i, k, hu, drv, hk, low⟩ := h.low d hd
  by_cases hut : u = t
  · subst hut
    obtain ⟨rfl, rfl⟩ := by simpa using hu.symm.trans ht
    exact .inl ⟨drv.symm, held hk, cs.trans low⟩
  · exact .inr ⟨u, i, k, hut, hu, drv, hk, low⟩

theorem after (h : Coherent mu pin s g) (ht : g t = some (j, l)) :
    Coherent mu pin s (Function.update g t (some (j, l.after))) := by
  have fits := h.fits t j l ht
  have low (cs : l.cs = .low) : l.after = l := by
    apply l.after_held
    apply Nat.pos_of_ne_zero
    intro none
    rw [fits.free none] at cs
    cases cs
  refine h.update rfl ?_ ?_ ?_
  · refine ⟨fits.held, fits.le, fits.level, ?_, fits.free, ?_⟩
    · intro pos conf
      rw [l.after_held pos] at conf
      exact fits.conf pos conf
    · intro cs
      rw [low cs]
      exact fits.low cs
  · exact fun _ _ _ _ fits _ => fits
  · intro d hd
    exact h.low_same ht l.after rfl rfl id hd

/-! ### One request -/

variable {m : MutexId} {o : Option (T × Nat)}

theorem digitalWrite [DecidableEq D] (h : Coherent mu pin s g) (inj : Function.Injective pin)
    (ht : g t = some (j, l)) (held : j.depth < l.held) (conf : l.conf = true) (lv : Level) :
    Coherent mu pin { s with out := Function.update s.out (pin j.drv) lv }
      (Function.update g t (some (j, { l with cs := lv }))) := by
  have fits := h.fits t j l ht
  have pos : 0 < l.held := by omega
  have owner : 0 < depthOf (s.mutex mu) t := fits.held ▸ pos
  refine h.update rfl ?_ ?_ ?_
  · constructor
    · exact fits.held
    · exact fits.le
    · intro _
      simp
    · exact fits.conf
    · intro none
      have none' : l.held = 0 := none
      omega
    · exact fun _ => conf
  · intro u i k hu fits' hg
    have off := h.away owner hu hg
    refine ⟨fits'.held, fits'.le, ?_, fits'.conf, fits'.free, fits'.low⟩
    intro on
    omega
  · intro d hd
    by_cases same : d = j.drv
    · subst same
      exact .inl ⟨rfl, pos, by simpa using hd⟩
    · have before : s.out (pin d) = .low := by
        simpa [Function.update_of_ne fun e => same (inj e)] using hd
      obtain ⟨u, i, k, hu, drv, hk, -⟩ := h.low d before
      have mine : u = t := h.holder hu hk owner
      subst mine
      obtain ⟨rfl, rfl⟩ := by simpa using hu.symm.trans ht
      exact absurd drv.symm same

/-- Locking another mutex than the bus mutex changes nothing here. -/
theorem other_mutex (h : Coherent mu pin s g) (ne : mu ≠ m) :
    Coherent mu pin { s with mutex := Function.update s.mutex m o } g := by
  refine ⟨h.cs, h.mutex, ?_, h.low⟩
  intro t j l ht
  have fits := h.fits t j l ht
  refine ⟨?_, fits.le, fits.level, fits.conf, fits.free, fits.low⟩
  simpa [Function.update_of_ne ne] using fits.held

theorem mutexLock (h : Coherent mu pin s g) (ht : g t = some (j, l))
    (acquire : Acquire t (s.mutex mu) o) :
    Coherent mu pin { s with mutex := Function.update s.mutex mu o }
      (Function.update g t (some (j, { l with
        held := l.held + 1
        conf := l.conf && l.held != 0 }))) := by
  have fits := h.fits t j l ht
  refine h.update rfl ?_ ?_ ?_
  · constructor
    · simp [depthOf_acquire acquire, fits.held]
    · exact Nat.le_succ_of_le fits.le
    · intro _
      by_cases pos : 0 < l.held
      · exact fits.level pos
      · -- the mutex was free: no CS pin is low, and the ghost value says so too
        have none : l.held = 0 := by omega
        rw [fits.free none]
        cases hd : s.out (pin j.drv) with
        | high => rfl
        | low =>
          obtain ⟨u, i, k, hu, -, hk, -⟩ := h.low _ hd
          have held := hk
          rw [(h.fits u i k hu).held] at held
          have mine := acquire_owner acquire held
          subst mine
          obtain ⟨rfl, rfl⟩ := by simpa using hu.symm.trans ht
          omega
    · intro _ conf
      simp only [Bool.and_eq_true, bne_iff_ne] at conf
      exact fits.conf (Nat.pos_of_ne_zero conf.2) conf.1
    · intro none
      cases none
    · intro low
      have pos : l.held ≠ 0 := by
        intro none
        rw [fits.free none] at low
        cases low
      simp [fits.low low, pos]
  · intro u i k hu fits' hg
    refine ⟨?_, fits'.le, fits'.level, fits'.conf, fits'.free, fits'.low⟩
    simp [depthOf_acquire_ne acquire hu, fits'.held]
  · intro d hd
    exact h.low_same ht { l with held := l.held + 1, conf := _ } rfl rfl
      (fun _ => Nat.succ_pos l.held) hd

theorem mutexUnlock (h : Coherent mu pin s g) (ht : g t = some (j, l)) (held : j.depth < l.held)
    (cs : l.cs = .high) (conf : l.conf = true) (release : Release t (s.mutex mu) o) :
    Coherent mu pin { s with mutex := Function.update s.mutex mu o }
      (Function.update g t (some (j, ⟨l.held - 1, .high, true⟩))) := by
  have fits := h.fits t j l ht
  refine h.update rfl ?_ ?_ ?_
  · constructor
    · have before := fits.held
      rw [depthOf_release release] at before
      simp [before]
    · change j.depth ≤ l.held - 1
      omega
    · intro pos
      have pos' : 0 < l.held - 1 := pos
      exact (fits.level (by omega)).trans cs
    · intro pos _
      have pos' : 0 < l.held - 1 := pos
      exact fits.conf (by omega) conf
    · exact fun _ => rfl
    · exact fun _ => rfl
  · intro u i k hu fits' hg
    refine ⟨?_, fits'.le, fits'.level, fits'.conf, fits'.free, fits'.low⟩
    simp [depthOf_release_ne release hu, fits'.held]
  · intro d hd
    obtain ⟨u, i, k, hu, drv, hk, low⟩ := h.low d hd
    refine .inr ⟨u, i, k, ?_, hu, drv, hk, low⟩
    rintro rfl
    obtain ⟨rfl, rfl⟩ := by simpa using hu.symm.trans ht
    rw [cs] at low
    cases low

theorem spi (h : Coherent mu pin s g) (ht : g t = some (j, l)) (held : j.depth < l.held) :
    Coherent mu pin { s with configured := some j.drv }
      (Function.update g t (some (j, { l with conf := true }))) := by
  have fits := h.fits t j l ht
  have pos : 0 < l.held := by omega
  refine h.update rfl ?_ ?_ ?_
  · exact ⟨fits.held, fits.le, fits.level, fun _ _ => rfl, fits.free, fun _ => rfl⟩
  · intro u i k hu fits' hg
    have off := h.away (fits.held ▸ pos) hu hg
    refine ⟨fits'.held, fits'.le, fits'.level, ?_, fits'.free, fits'.low⟩
    intro on
    omega
  · intro d hd
    exact h.low_same ht { l with conf := true } rfl rfl id hd

theorem store [DecidableEq D] (h : Coherent mu pin s g) {f : SdspiDriver → SdspiDriver} (hf : ∀ d, (f d).cs = d.cs ∧ (f d).mutex = d.mutex) (e : D) :
    Coherent mu pin { s with drv := Function.update s.drv e (f (s.drv e)) } g := by
  have same (d : D) : (Function.update s.drv e (f (s.drv e)) d).cs = (s.drv d).cs ∧
      (Function.update s.drv e (f (s.drv e)) d).mutex = (s.drv d).mutex := by
    by_cases hd : d = e
    · subst hd
      simpa using hf (s.drv d)
    · simp [Function.update_of_ne hd]
  refine ⟨?_, ?_, ?_, h.low⟩
  · intro d
    exact (same d).1.trans (h.cs d)
  · intro d
    exact (same d).2.trans (h.mutex d)
  · intro u i k hu
    have fits := h.fits u i k hu
    exact ⟨fits.held, fits.le, fits.level, fits.conf, fits.free, fits.low⟩

/-! ### Between calls -/

theorem idle (h : Coherent mu pin s g) (free : g t = none)
    (owned : Acquire t (s.mutex m) o ∨ Release t (s.mutex m) o) :
    Coherent mu pin { s with mutex := Function.update s.mutex m o } g := by
  by_cases hm : mu = m
  · subst hm
    refine ⟨h.cs, h.mutex, ?_, h.low⟩
    intro u i k hu
    have fits := h.fits u i k hu
    have other : u ≠ t := by
      rintro rfl
      rw [free] at hu
      cases hu
    refine ⟨?_, fits.le, fits.level, fits.conf, fits.free, fits.low⟩
    rcases owned with owned | owned
    · simp [depthOf_acquire_ne owned other, fits.held]
    · simp [depthOf_release_ne owned other, fits.held]
  · exact h.other_mutex hm

theorem begin (h : Coherent mu pin s g) (free : g t = none) (depth : j.depth = depthOf (s.mutex mu) t) :
    Coherent mu pin s (Function.update g t (some (j, ⟨j.depth, .high, false⟩))) := by
  refine h.update rfl ?_ ?_ ?_
  · constructor
    · exact depth
    · exact Nat.le_refl _
    · intro pos
      exact h.idle_high (depth ▸ pos) free j.drv
    · intro _ conf
      cases conf
    · exact fun _ => rfl
    · intro low
      cases low
  · exact fun _ _ _ _ fits _ => fits
  · intro d hd
    obtain ⟨u, i, k, hu, rest⟩ := h.low d hd
    refine .inr ⟨u, i, k, ?_, hu, rest⟩
    rintro rfl
    rw [free] at hu
    cases hu

theorem done (h : Coherent mu pin s g) (ht : g t = some (j, l)) (cs : l.cs = .high) :
    Coherent mu pin s (Function.update g t none) := by
  refine ⟨h.cs, h.mutex, ?_, ?_⟩
  · intro u i k hu
    by_cases hut : u = t
    · subst hut
      simp at hu
    · rw [Function.update_of_ne hut] at hu
      exact h.fits u i k hu
  · intro d hd
    obtain ⟨u, i, k, hu, drv, hk, low⟩ := h.low d hd
    have other : u ≠ t := by
      rintro rfl
      obtain ⟨rfl, rfl⟩ := by simpa using hu.symm.trans ht
      rw [cs] at low
      cases low
    exact ⟨u, i, k, by rw [Function.update_of_ne other, hu], drv, hk, low⟩

end Coherent

/-! ## The protocol -/

variable [DecidableEq D] [DecidableEq T]

theorem call_wp {c : Call} (h : c.TakesBus) (fuel : Nat) (p : Pin) (depth : Nat) :
    (unmarked (c.prog fuel)).wp (codeRules mu p depth) (fun _ l => l = ⟨depth, .high, true⟩)
      ⟨depth, .high, false⟩ := by
  apply wp_unmarked
  have discard {α : Type} {q : Prog α} (hq : q.wp (busRules mu p depth)
      (fun _ l => l = ⟨depth, .high, true⟩) ⟨depth, .high, false⟩) :
      (do let _ ← q; pure () : Prog Unit).wp (busRules mu p depth)
        (fun _ l => l = ⟨depth, .high, true⟩) ⟨depth, .high, false⟩ :=
    wp_seq hq fun _ _ hl => hl
  cases c with
  | initializeCard => exact discard (wp_initializeCard fuel (Nat.le_refl _))
  | read => exact discard (wp_read fuel _ _ _ (Nat.le_refl _))
  | write => exact discard (wp_write fuel _ _ _ (Nat.le_refl _))
  | ioctl => exact discard (wp_ioctl fuel _ _ (Nat.le_refl _))
  | status | highSpeedClock | lowSpeedClock => exact h.elim

/-- A request of a thread keeps the bus coherent, and where it leaves the thread without
the mutex the mutex is free. -/
theorem bus_act (inj : Function.Injective pin) {s s' : SharedBus D T}
    {g : T → Option (Job D × Ghost)} {t : T} {j : Job D} {l : Ghost} {r : Request} {x : r.Ans}
    (h : Coherent mu pin s g) (ht : g t = some (j, l))
    (allowed : (codeRules mu (pin j.drv) j.depth).allowed l r)
    (step : (threadsOf mu).act t j r x s s') :
    ∃ l', (codeRules mu (pin j.drv) j.depth).step l r x l' ∧
      Coherent mu pin s' (Function.update g t (some (j, l'))) ∧
      (l'.held = 0 → l'.conf = true → s'.mutex mu = none) := by
  have quiet (none : l.held = 0) (conf : l.after.conf = true) : False := by
    simp [Ghost.after, none] at conf
  cases r with
  | transfer | digitalRead | millis | delay =>
    cases step
    exact ⟨_, rfl, h.after ht, fun none conf => (quiet none conf).elim⟩
  | mark k => exact allowed.1.elim
  | load =>
    obtain ⟨rfl, rfl⟩ := step
    exact ⟨_, ⟨h.cs _, h.mutex _, rfl⟩, h.after ht, fun none conf => (quiet none conf).elim⟩
  | store f =>
    cases step
    exact ⟨_, rfl, (h.store allowed.2 j.drv).after ht, fun none conf => (quiet none conf).elim⟩
  | digitalWrite p lv =>
    obtain ⟨-, rfl, held, conf⟩ := allowed
    cases step
    refine ⟨_, rfl, h.digitalWrite inj ht held conf lv, ?_⟩
    intro none
    have none' : l.held = 0 := none
    omega
  | spi c =>
    cases step
    refine ⟨_, rfl, h.spi ht allowed.2, ?_⟩
    intro none
    have none' : l.held = 0 := none
    have held : j.depth < l.held := allowed.2
    omega
  | mutexLock m =>
    obtain ⟨o, acquire, rfl⟩ := step
    cases allowed.2
    refine ⟨_, rfl, h.mutexLock ht acquire, ?_⟩
    intro none
    cases none
  | mutexUnlock m =>
    obtain ⟨-, rfl, held, cs, conf⟩ := allowed
    have fits := (h.fits t j l ht).held
    rcases step with none | ⟨o, release, rfl⟩
    · omega
    · refine ⟨_, rfl, h.mutexUnlock ht held cs conf release, ?_⟩
      intro none _
      have none' : l.held - 1 = 0 := none
      simp only [Function.update_self]
      rcases release with ⟨-, rfl⟩ | ⟨n, before, rfl⟩
      · rfl
      · simp only [before, depthOf, ↓reduceIte] at fits
        omega

def busProtocol (mu : MutexId) (pin : D → Pin) (inj : Function.Injective pin) :
    Protocol (threadsOf (D := D) (T := T) mu) Ghost where
  rules j := codeRules mu (pin j.drv) j.depth
  post j l := l = ⟨j.depth, .high, true⟩
  coherent := Coherent mu pin
  idle s s' g t h free := by
    rintro ⟨m, o, owned, rfl⟩
    exact h.idle free owned
  begin s g t j p h free := by
    rintro ⟨c, fuel, takes, rfl, depth⟩
    exact ⟨_, call_wp takes fuel (pin j.drv) j.depth, h.begin free depth⟩
  sees _ l s := l.held = 0 → l.conf = true → s.mutex mu = none
  act _ _ _ _ _ _ _ _ h ht allowed step := bus_act inj h ht allowed step
  done _ _ _ _ _ h ht post := h.done ht (congrArg Ghost.cs post)

/-- At most one CS pin is low; its driver is in a call of the thread that holds the
mutex, and configured the peripheral last; and where a call returns, its CS pin is high
and the thread holds the mutex as deep as it did when it made the call. -/
theorem bus_exclusive {c₀ c : Pool Request.Ans T (Job D) (SharedBus D T)}
    (distinct : Function.Injective pin)
    (begun : ∀ d, (c₀.shared.drv d).cs = pin d ∧ (c₀.shared.drv d).mutex = some mu ∧
      c₀.shared.out (pin d) = .high)
    (idle : ∀ t, c₀.threads t = none)
    (run : Relation.ReflTransGen (Pool.Step (threadsOf mu)) c₀ c) :
    (∀ d d', c.shared.out (pin d) = .low → c.shared.out (pin d') = .low → d = d') ∧
    (∀ d, c.shared.out (pin d) = .low → ∃ t j p, c.threads t = some (j, p) ∧ j.drv = d ∧
      0 < depthOf (c.shared.mutex mu) t ∧ c.shared.configured = some d) ∧
    (∀ c' t j p, Pool.Step (threadsOf mu) c c' → c.threads t = some (j, p) → c'.threads t = none →
      c'.shared.out (pin j.drv) = .high ∧ depthOf (c'.shared.mutex mu) t = j.depth) := by
  let P := busProtocol (T := T) mu pin distinct
  have start : P.Follows c₀ := by
    refine ⟨fun _ => none, ⟨fun d => (begun d).1, fun d => (begun d).2.1, ?_, ?_⟩, ?_⟩
    · intro t j l h
      cases h
    · intro d low
      rw [(begun d).2.2] at low
      cases low
    · intro t
      rw [idle t]
      exact .none
  have follows := P.run_follows start run
  have returns {c' : Pool Request.Ans T (Job D) (SharedBus D T)} {t : T} {j : Job D}
      {p : Program Request.Ans Unit} (step : Pool.Step (threadsOf mu) c c')
      (running : c.threads t = some (j, p)) (ended : c'.threads t = none) :
      c'.shared.out (pin j.drv) = .high ∧ depthOf (c'.shared.mutex mu) t = j.depth := by
    obtain ⟨g, l, coherent, ht, post, sees⟩ := P.step_returns follows step running ended
    have h : Coherent mu pin c'.shared g := coherent
    have fits := h.fits t j l ht
    have post : l = ⟨j.depth, .high, true⟩ := post
    subst post
    refine ⟨?_, fits.held.symm⟩
    by_cases pos : 0 < j.depth
    · exact fits.level pos
    · -- the last request gave the mutex back, so nobody holds it
      have none : c'.shared.mutex mu = none := sees (by simpa using pos) rfl
      cases hd : c'.shared.out (pin j.drv) with
      | high => rfl
      | low =>
        obtain ⟨u, i, k, hu, -, held, -⟩ := h.low _ hd
        rw [(h.fits u i k hu).held, none] at held
        cases held
  obtain ⟨g, coherent, rel⟩ := follows
  have h : Coherent mu pin c.shared g := coherent
  refine ⟨?_, ?_, fun c' t j p => returns⟩
  · intro d d' low low'
    obtain ⟨t, j, l, ht, rfl, held, -⟩ := h.low d low
    obtain ⟨u, i, k, hu, rfl, held', -⟩ := h.low d' low'
    have owner : 0 < depthOf (c.shared.mutex mu) u := (h.fits u i k hu).held ▸ held'
    have same := h.holder ht held owner
    subst same
    obtain ⟨rfl, rfl⟩ := by simpa using ht.symm.trans hu
    rfl
  · intro d low
    obtain ⟨t, j, l, ht, rfl, held, cs⟩ := h.low d low
    have fits := h.fits t j l ht
    have on := rel t
    rw [ht] at on
    cases hc : c.threads t with
    | none =>
      rw [hc] at on
      cases on
    | some x =>
      rw [hc] at on
      obtain ⟨i, p⟩ := x
      cases on with
      | some same =>
        obtain ⟨rfl, -⟩ := same
        exact ⟨t, i, p, hc, rfl, fits.held ▸ held, fits.conf held (fits.low cs)⟩

/-- Two drivers, on the pins 0 and 1, and two threads. -/
def twoDrivers : Pool Request.Ans Bool (Job Bool) (SharedBus Bool Bool) where
  shared := ⟨fun d => .begin (if d then 1 else 0) (some 0), fun _ => .high, fun _ => none, none⟩
  threads _ := none

/-- A thread has begun `initialize()` on one of them and taken the mutex. -/
theorem bus_exclusive_two_drivers :
    ∃ c, Relation.ReflTransGen (Pool.Step (threadsOf 0)) twoDrivers c ∧
      depthOf (c.shared.mutex 0) true = 1 ∧
      ∀ d d' : Bool, c.shared.out (if d then 1 else 0) = .low →
        c.shared.out (if d' then 1 else 0) = .low → d = d' := by
  let j : Job Bool := ⟨false, 0⟩
  let s₀ := twoDrivers.shared
  let s₁ : SharedBus Bool Bool := { s₀ with mutex := Function.update s₀.mutex 0 (some (true, 0)) }
  obtain ⟨k, hk, k', hk'⟩ : ∃ k, unmarked (Call.initializeCard.prog 1) = .call .load k ∧
      ∃ k', k (s₀.drv false) = .call (.mutexLock 0) k' := ⟨_, rfl, _, rfl⟩
  have begins : Pool.Step (threadsOf 0) twoDrivers
      ⟨s₀, Function.update twoDrivers.threads true (some (j, .call .load k))⟩ := by
    have step := Pool.Step.begin (W := threadsOf 0) (s := s₀) true j
      (unmarked (Call.initializeCard.prog 1)) (rfl : twoDrivers.threads true = none)
      ⟨.initializeCard, 1, trivial, rfl, rfl⟩
    rw [hk] at step
    exact step
  have loads : Pool.Step (threadsOf 0)
      ⟨s₀, Function.update twoDrivers.threads true (some (j, .call .load k))⟩
      ⟨s₀, Function.update (Function.update twoDrivers.threads true (some (j, .call .load k))) true
        (some (j, .call (.mutexLock 0) k'))⟩ := by
    have step := Pool.Step.act (W := threadsOf 0) true j .load k (s₀.drv false)
      (Function.update_self true (some (j, .call .load k)) twoDrivers.threads)
      (⟨rfl, rfl⟩ : s₀.drv false = s₀.drv j.drv ∧ s₀ = s₀)
    rw [hk'] at step
    exact step
  have locks := Pool.Step.act (W := threadsOf 0) true j (.mutexLock 0) k' ()
    (Function.update_self true (some (j, .call (.mutexLock 0) k'))
      (Function.update twoDrivers.threads true (some (j, .call .load k))))
    (⟨some (true, 0), .inl ⟨rfl, rfl⟩, rfl⟩ : ∃ o, Acquire true (s₀.mutex 0) o ∧
      s₁ = { s₀ with mutex := Function.update s₀.mutex 0 o })
  have run := Relation.ReflTransGen.tail (.tail (.single begins) loads) locks
  have distinct : Function.Injective fun d : Bool => (if d then 1 else 0 : Pin) := by
    intro d d'
    revert d d'
    decide
  refine ⟨_, run, by simp [s₁, depthOf], ?_⟩
  exact (bus_exclusive distinct (fun d => ⟨rfl, rfl, rfl⟩) (fun t => rfl) run).1

end FatFsParticle.Sdspi
