import FatFsParticle.Drives.Steps
import FatFsParticle.Interact.Course

/-!
# Agreement of the registries

A driver in a slot is recorded in three places: the slot, the members of the driver and
the volume table. `Fit` says which calls keep the three in agreement: it leaves out every
`detach` of a driver, which keeps `_attached` set, and every mount that fails, which
stays in the volume table.
-/

namespace FatFsParticle.Drives

open Interact Registry

variable {D : Type}

structure Agree (s : Registry D) : Prop where
  once : ∀ i j d, s.slot i = some d → s.slot j = some d → i = j
  members : ∀ n d, s.alive d = true →
    (s.slot n = some d ↔ s.attached d = true ∧ (s.driveNumber d).toNat = n)
  volumes : ∀ n d, s.volumes n = some (.own d) ↔ s.slot n = some d
  alive : ∀ n d, s.slot n = some d → s.alive d = true

/-- Drivers that exist, and numbers the slots cover. -/
def Legal (s : Registry D) : Operation D → Prop
  | .attach d _ _ => s.alive d = true
  | .detach n => n.toNat < s.drivers.length
  | .destroy d => s.alive d = true

/-- An `attach` that finds its slot taken, that takes a fresh driver to no volume at all,
or that mounts a fresh driver; a `detach` of an empty slot; a destruction of a driver
that is not attached, or is drive 0. -/
def Fit (g : Config D) (s : Registry D) : Operation D → Prop
  | .attach d n a => s.slot n.toNat ≠ none ∨
      s.attached d = false ∧ (attachVolume g.volumes n.toNat = none ∨
        n.toNat < g.volumes ∧ a.Good ∧ Syncs g (s.placed n.toNat d) n.toNat)
  | .detach n => s.slot n.toNat = none
  | .destroy d => s.attached d = false ∨ s.driveNumber d = 0

instance [DecidableEq D] (s : Registry D) : (o : Operation D) → Decidable (Legal s o)
  | .attach d _ _ => inferInstanceAs (Decidable (s.alive d = true))
  | .detach n => inferInstanceAs (Decidable (n.toNat < s.drivers.length))
  | .destroy d => inferInstanceAs (Decidable (s.alive d = true))

instance [DecidableEq D] (g : Config D) (s : Registry D) :
    (o : Operation D) → Decidable (Fit g s o)
  | .attach d n a => inferInstanceAs (Decidable (s.slot n.toNat ≠ none ∨
      s.attached d = false ∧ (attachVolume g.volumes n.toNat = none ∨
        n.toNat < g.volumes ∧ a.Good ∧ Syncs g (s.placed n.toNat d) n.toNat)))
  | .detach n => inferInstanceAs (Decidable (s.slot n.toNat = none))
  | .destroy d => inferInstanceAs (Decidable (s.attached d = false ∨ s.driveNumber d = 0))

variable {g : Config D} {s s' : Registry D}

theorem Agree.empty : Agree ({} : Registry D) := by
  constructor <;> simp [slot]

/-- Agreement is about slots, volumes and members only. -/
theorem Agree.congr (h : Agree s) (slots : ∀ i, s'.slot i = s.slot i)
    (attached : s'.attached = s.attached) (driveNumber : s'.driveNumber = s.driveNumber)
    (volumes : s'.volumes = s.volumes) (alive : s'.alive = s.alive) : Agree s' := by
  constructor
  · intro i j d
    rw [slots, slots]
    exact h.once i j d
  · intro n d
    rw [slots, attached, driveNumber, alive]
    exact h.members n d
  · intro n d
    rw [slots, volumes]
    exact h.volumes n d
  · intro n d
    rw [slots, alive]
    exact h.alive n d

/-- A driver that is not attached has no slot. -/
theorem Agree.unattached (h : Agree s) {d : D} (idle : s.attached d = false) (n : Nat) :
    s.slot n ≠ some d := by
  intro here
  have members := (h.members n d (h.alive n d here)).1 here
  rw [idle] at members
  cases members.1

/-- An attached driver is in the slot of its number. -/
theorem Agree.seated (h : Agree s) {d : D} (live : s.alive d = true) (on : s.attached d = true) :
    s.slot (s.driveNumber d).toNat = some d :=
  (h.members _ d live).2 ⟨on, rfl⟩

theorem Agree.attached (h : Agree s) {n : Nat} {d : D} (here : s.slot n = some d) :
    s.attached d = true :=
  ((h.members n d (h.alive n d here)).1 here).1

/-- A driver has the one slot, and the slot the one driver. -/
theorem Agree.apart (h : Agree s) {n i : Nat} {d d' : D} (here : s.slot n = some d)
    (there : s.slot i = some d') : i ≠ n ↔ d' ≠ d := by
  constructor
  · rintro other rfl
    exact other (h.once i n d' there here)
  · rintro other rfl
    exact other (Option.some.inj (there.symm.trans here))

variable [DecidableEq D]

/-! ## `attach` -/

/-- A driver mounted on its own free slot and volume. -/
theorem agree_mounted (h : Agree s) {d : D} {n : BYTE} {a : Answers} {new : List (Event D)}
    (m : Mounting g d n n.toNat a s s' .ok new) (free : s.slot n.toNat = none)
    (live : s.alive d = true) (fresh : s.attached d = false) : Agree s' := by
  have slot (i : Nat) : s'.slot i = if i = n.toNat then some d else s.slot i := by
    rw [m.slot]
    simp
  have absent := h.unattached fresh
  constructor
  case once =>
    intro i j d' hi hj
    rw [slot] at hi hj
    by_cases same : i = n.toNat
    · rw [if_pos same] at hi
      cases hi
      by_cases same' : j = n.toNat
      · omega
      · rw [if_neg same'] at hj
        exact absurd hj (absent j)
    · rw [if_neg same] at hi
      by_cases same' : j = n.toNat
      · rw [if_pos same'] at hj
        cases hj
        exact absurd hi (absent i)
      · rw [if_neg same'] at hj
        exact h.once i j d' hi hj
  case members =>
    intro i d' live'
    rw [m.alive] at live'
    rw [slot, m.attached, m.driveNumber, if_pos rfl]
    by_cases mine : d' = d
    · subst mine
      simp only [Function.update_self, beq_self_eq_true, true_and]
      by_cases same : i = n.toNat
      · simp [same]
      · simp [same, Ne.symm same, absent i]
    · rw [Function.update_of_ne mine, Function.update_of_ne mine, ← h.members i d' live']
      by_cases same : i = n.toNat
      · simp [same, free, Ne.symm mine]
      · simp [same]
  case volumes =>
    intro i d'
    rw [slot, m.volumes]
    by_cases same : i = n.toNat
    · simp [same]
    · simp [same, h.volumes]
  case alive =>
    intro i d' here
    rw [slot] at here
    rw [m.alive]
    split at here
    · cases here
      exact live
    · exact h.alive i d' here

/-- A mount that keeps the registries in agreement has succeeded, for a fresh driver on
its own volume. -/
theorem mounted_of_agree (h : Agree s) {d : D} {n : BYTE} {vol : Nat} {a : Answers}
    {res : FRESULT} {new : List (Event D)} (m : Mounting g d n vol a s s' res new)
    (free : s.slot n.toNat = none) (live : s.alive d = true) (good : Agree s') :
    res = .ok ∧ vol = n.toNat ∧ s.attached d = false := by
  have registered : s'.volumes vol = some (.own d) := by
    rw [m.volumes, Function.update_self]
  have seat : s'.slot vol = some d := (good.volumes vol d).1 registered
  have on : s'.attached d = true := good.attached seat
  have mounted : res = .ok := by
    rw [m.attached, Function.update_self] at on
    exact eq_of_beq on
  have taken : s'.slot n.toNat = some d := by
    rw [m.slot, if_pos ⟨rfl, mounted⟩]
  refine ⟨mounted, good.once _ _ d seat taken, ?_⟩
  by_contra attached
  rw [Bool.not_eq_false] at attached
  have old := h.seated live attached
  have other : (s.driveNumber d).toNat ≠ n.toNat := by
    intro same
    rw [same, free] at old
    cases old
  have still : s'.slot (s.driveNumber d).toNat = some d := by
    rw [m.slot, if_neg (fun both => other both.1), old]
  exact other (good.once _ _ d still taken)

theorem agree_attach (h : Agree s) {d : D} (n : BYTE) (a : Answers) (live : s.alive d = true) :
    Fit g s (.attach d n a) ↔ ∃ s', operate g s (.attach d n a) = .ok s' ∧ Agree s' := by
  unfold Fit operate
  dsimp only
  by_cases free : s.slot n.toNat = none
  · cases named : attachVolume g.volumes n.toNat with
    | none =>
      rw [attach_unnamed d a free named]
      constructor
      · rintro (taken | ⟨fresh, -⟩)
        · exact absurd free taken
        · refine ⟨_, rfl, h.congr (slot_placed_back d free) ?_ rfl rfl rfl⟩
          exact (congrArg _ fresh.symm).trans (Function.update_eq_self d s.attached)
      · rintro ⟨s', ran, good⟩
        cases ran
        refine .inr ⟨?_, .inl rfl⟩
        by_contra attached
        rw [Bool.not_eq_false] at attached
        have seat := h.seated live attached
        rw [← slot_placed_back d free] at seat
        have on := good.attached seat
        simp [setSlot, setAttached] at on
    | some vol =>
      by_cases sync : Syncs g (s.placed n.toNat d) vol
      · obtain ⟨res, s', new, ran, m⟩ := attach_mounts d a free named sync
        rw [ran]
        constructor
        · rintro (taken | ⟨fresh, unnamed | ⟨small, ready, -⟩⟩)
          · exact absurd free taken
          · cases unnamed
          · have own : vol = n.toNat :=
              Option.some.inj (named.symm.trans (attachVolume_of_lt small))
            have mounted : res = .ok := m.result.2 ⟨.inl own, ready⟩
            subst own mounted
            exact ⟨s', rfl, agree_mounted h m free live fresh⟩
        · rintro ⟨s'', ran', good⟩
          cases ran'
          obtain ⟨mounted, own, fresh⟩ := mounted_of_agree h m free live good
          have ready := (m.result.1 mounted).2
          rw [own] at named sync
          have small : n.toNat < g.volumes := lt_of_attachVolume named
          exact .inr ⟨fresh, .inr ⟨small, ready, sync⟩⟩
      · obtain ⟨e, fault⟩ := attach_unsynced d a free named sync
        rw [fault]
        constructor
        · rintro (taken | ⟨-, unnamed | ⟨small, -, sync'⟩⟩)
          · exact absurd free taken
          · cases unnamed
          · have own : vol = n.toNat :=
              Option.some.inj (named.symm.trans (attachVolume_of_lt small))
            exact absurd (own ▸ sync') sync
        · rintro ⟨s', ran, -⟩
          cases ran
  · rw [attach_occupied d a free]
    have grown : Agree (s.grow n.toNat) := h.congr (slot_grow n.toNat) rfl rfl rfl rfl
    exact ⟨fun _ => ⟨_, rfl, grown⟩, fun _ => .inl free⟩

/-! ## `detach` and the destructor -/

/-- `_attached` outlives a `detach`, and 255 is no slot that the driver has. -/
theorem agree_detach (h : Agree s) {n : BYTE} (inside : n.toNat < s.drivers.length) :
    Fit g s (.detach n) ↔ ∃ s', operate g s (.detach n) = .ok s' ∧ Agree s' := by
  unfold Fit operate
  dsimp only
  cases here : s.slot n.toNat with
  | none =>
    have idle : detach g n s = .ok s := detach_idle inside (by simp [here])
    exact ⟨fun _ => ⟨s, idle, h⟩, fun _ => rfl⟩
  | some d =>
    obtain ⟨s₁, ran, m⟩ := detach_runs (g := g) here (h.attached here)
    refine ⟨nofun, ?_⟩
    rintro ⟨s', ran', good⟩
    have same : s₁ = s' := Except.ok.inj (ran.symm.trans ran')
    subst same
    have live : s₁.alive d = true := by
      rw [m.alive]
      exact h.alive _ d here
    have on : s₁.attached d = true := by
      rw [m.attached]
      exact h.attached here
    have seat := good.seated live on
    rw [m.slot] at seat
    split at seat
    · cases seat
    · have number : (s₁.driveNumber d).toNat = n.toNat := h.once _ _ d seat here
      contradiction

/-- A driver that leaves its slot and its volume as it goes. -/
theorem agree_gone (h : Agree s) {d : D}
    (slots : ∀ i d', s'.slot i = some d' ↔ s.slot i = some d' ∧ d' ≠ d)
    (volumes : ∀ i d', s'.volumes i = some (.own d') ↔ s.volumes i = some (.own d') ∧ d' ≠ d)
    (attached : s'.attached = s.attached)
    (driveNumber : ∀ d', d' ≠ d → s'.driveNumber d' = s.driveNumber d')
    (alive : s'.alive = Function.update s.alive d false) : Agree s' := by
  constructor
  case once =>
    intro i j d' hi hj
    exact h.once i j d' ((slots i d').1 hi).1 ((slots j d').1 hj).1
  case members =>
    intro n d' live
    have other : d' ≠ d := by
      intro same
      simp [alive, same] at live
    rw [alive, Function.update_of_ne other] at live
    rw [slots, attached, driveNumber d' other, ← h.members n d' live]
    exact and_iff_left other
  case volumes =>
    intro n d'
    rw [slots, volumes, h.volumes]
  case alive =>
    intro n d' here
    obtain ⟨old, other⟩ := (slots n d').1 here
    rw [alive, Function.update_of_ne other]
    exact h.alive n d' old

theorem agree_destroy (h : Agree s) {d : D} (live : s.alive d = true) :
    Fit g s (.destroy d) ↔ ∃ s', operate g s (.destroy d) = .ok s' ∧ Agree s' := by
  unfold Fit operate destroy
  dsimp only
  cases on : s.attached d with
  | false =>
    rw [if_neg (by simp)]
    have absent := h.unattached on
    refine ⟨fun _ => ⟨_, rfl, agree_gone h ?_ ?_ rfl (fun _ _ => rfl) rfl⟩, fun _ => .inl rfl⟩
    · intro i d'
      refine ⟨fun here => ⟨here, ?_⟩, And.left⟩
      rintro rfl
      exact absent i here
    · intro i d'
      refine ⟨fun here => ⟨here, ?_⟩, And.left⟩
      rintro rfl
      exact absent i ((h.volumes i d').1 here)
  | true =>
    have here := h.seated live on
    obtain ⟨s₁, ran, m⟩ := detach_runs (g := g) here on
    rw [if_pos rfl, ran, ok_bind]
    constructor
    · rintro (off | zero)
      · cases off
      · rw [zero] at m here
        have volumes : s₁.volumes = Function.update s.volumes 0 none := m.volumes
        refine ⟨_, rfl, agree_gone h ?_ ?_ m.attached ?_
          (congrArg (Function.update · d false) m.alive)⟩
        · intro i d'
          change s₁.slot i = _ ↔ _
          rw [m.slot]
          split
          case isTrue same =>
            refine ⟨nofun, ?_⟩
            rintro ⟨there, other⟩
            exact absurd same ((h.apart here there).2 other)
          case isFalse other =>
            exact ⟨fun there => ⟨there, (h.apart here there).1 other⟩, And.left⟩
        · intro i d'
          change s₁.volumes i = _ ↔ _
          rw [volumes]
          by_cases same : i = 0
          · subst same
            rw [Function.update_self]
            refine ⟨nofun, ?_⟩
            rintro ⟨mine, other⟩
            exact absurd rfl ((h.apart here ((h.volumes 0 d').1 mine)).2 other)
          · rw [Function.update_of_ne same]
            refine ⟨fun mine => ⟨mine, ?_⟩, And.left⟩
            exact (h.apart here ((h.volumes i d').1 mine)).1 same
        · intro d' other
          change s₁.driveNumber d' = _
          rw [m.driveNumber, Function.update_of_ne other]
    · rintro ⟨s', ran', good⟩
      cases ran'
      refine .inr ?_
      by_contra other
      have other' : (s.driveNumber d).toNat ≠ 0 := by
        intro zero
        exact other (BitVec.eq_of_toNat_eq zero)
      -- The volume of the driver is not the one that `detach` has cleared.
      have left : s₁.volumes (s.driveNumber d).toNat = some (.own d) := by
        have mine := (h.volumes _ d).2 here
        rw [m.volumes]
        cases named : detachVolume g.volumes (s.driveNumber d).toNat with
        | none => exact mine
        | some vol =>
          exact (Function.update_of_ne (detachVolume_ne named other').symm _ _).trans mine
      have seat : s₁.slot (s.driveNumber d).toNat = some d := (good.volumes _ d).1 left
      rw [m.slot, if_pos rfl] at seat
      cases seat

theorem agree_operate (h : Agree s) {o : Operation D} (legal : Legal s o) :
    Fit g s o ↔ ∃ s', operate g s o = .ok s' ∧ Agree s' := by
  cases o with
  | attach d n a => exact agree_attach h n a legal
  | detach n => exact agree_detach h legal
  | destroy d => exact agree_destroy h legal

/-! ## Runs -/

/-- From no drivers, the registries agree after every step exactly when every step is one
that fits. -/
theorem agree_iff_fit (g : Config D) (run : List (Operation D))
    (legal : Meets (operate g) Legal run {}) :
    After (operate g) Agree run {} ↔ Meets (operate g) (Fit g) run {} :=
  after_iff_meets (fun _ _ h => agree_operate h) Agree.empty legal

/-- A card attached twice, the second time in vain, and its driver destroyed. -/
theorem agree_iff_fit_attached : After (operate (single Unit)) Agree
    [.attach () 0 formatted, .attach () 0 formatted, .destroy ()] {} := by
  exact (agree_iff_fit (single Unit) _ (by decide)).2 (by decide)

/-- A drive attached and detached: the driver still counts as attached, as drive 255, and
its destructor detaches a slot that is not there. -/
theorem detach_stays_attached :
    Meets (operate (single Unit)) Legal [.attach () 0 formatted, .detach 0] {} ∧
      ¬ After (operate (single Unit)) Agree [.attach () 0 formatted, .detach 0] {} := by
  constructor
  · decide
  · rintro ⟨s₁, attached, -, s₂, detached, good, -⟩
    cases attached
    cases detached
    have seat : _ = some () := good.seated rfl rfl
    cases seat

end FatFsParticle.Drives
