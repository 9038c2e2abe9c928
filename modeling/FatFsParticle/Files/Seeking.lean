import FatFsParticle.Files.Writing

/-!
# Seeking

Where no answer is an error, `f_lseek` ends well; to a place within the file it moves the
file pointer there, and what is seen through the file object stays the same.
-/

namespace FatFsParticle.Files
open Interact Program Cells Volume

variable {Name : Type} {G : Answers Name} {fp fp' : FIL Name} {s t : Snap Name} {n ofs : Nat}

/-- Sound but for the place of its file pointer. -/
structure FIL.SoundBelow (fp : FIL Name) (v : Volume Name) : Prop where
  entry : (v.node fp.name).isSome
  roomy : 0 < fp.csize
  clean : fp.has faDirty = false → ∀ s, fp.sect = some s →
    ∀ i < ss, fp.buf i = v.data fp.name (s * ss + i)
  dirty : fp.has faDirty = true → ∃ s, fp.sect = some s

namespace FIL.SoundBelow

variable {v v' : Volume Name}

theorem moved (h : fp.SoundBelow v) (p : Nat) : ({ fp with fptr := p } : FIL Name).SoundBelow v :=
  ⟨h.entry, h.roomy, h.clean, h.dirty⟩

theorem frame (h : fp.SoundBelow v) (entry : (v'.node fp.name).isSome)
    (data : v'.data fp.name = v.data fp.name) : fp.SoundBelow v' :=
  ⟨entry, h.roomy, data ▸ h.clean, h.dirty⟩

theorem longer (h : fp.SoundBelow v) (c : Nat) : ({ fp with clusters := c } : FIL Name).SoundBelow v :=
  ⟨h.entry, h.roomy, h.clean, h.dirty⟩

end FIL.SoundBelow

theorem FIL.Sound.below {v : Volume Name} (h : fp.Sound v) : fp.SoundBelow v :=
  ⟨h.entry, h.roomy, h.clean, h.dirty⟩

/-- What seeking to `n` leaves of the file object `fp`. -/
structure Sought (fp : FIL Name) (n : Nat) (v : Volume Name) (fp' : FIL Name) (v' : Volume Name) :
    Prop where
  like : fp.Like faDirty fp'
  err : fp'.err = fp.err
  objsize : fp'.objsize = fp.objsize
  clusters : fp'.clusters = fp.clusters
  fptr : fp'.fptr = n
  bytes : fp'.bytes v' = fp.bytes v
  sound : fp'.Sound v'
  touches : Touches fp.name v v'

/-! ## The end -/

section
variable [DecidableEq Name]

/-- The sector that the file pointer is inside of comes to the buffer. -/
theorem wp_seekSector (well : G.Healthy) (below : fp.SoundBelow s.vol) :
    (seekSector fp).wp (rules G) (fun r t => r.1 = .ok ∧ Sought fp fp.fptr s.vol r.2 t.vol) s := by
  unfold seekSector
  split
  · rw [wp_bind]
    apply wp_mono (wp_writeBack below.entry below.dirty)
    rintro ⟨res, fp₁⟩ t back
    have ok : res = .ok := back.healthy well
    subst ok
    obtain ⟨data, clean⟩ := back.data rfl
    have same := back.same
    have bytes := back.bytes rfl
    dsimp only at clean same bytes ⊢
    rw [if_neg (by simp), wp_bind]
    apply wp_fill
    · intro _
      refine ⟨rfl, ?_⟩
      refine
        { like := (same.buffer _ _).like
          err := same.err
          objsize := same.objsize
          clusters := back.clusters
          fptr := same.fptr
          bytes := (FIL.bytes_buffer clean _ _ _).trans bytes
          sound := ?_
          touches := back.touches }
      have entry : (t.vol.node fp₁.name).isSome := by
        rw [same.name]
        exact back.touches.isSome below.entry
      have roomy : 0 < fp₁.csize := by
        rw [same.csize]
        exact below.roomy
      refine ⟨entry, roomy, fun _ n at_ i _ => ?_, fun dirty => absurd dirty ?_, fun _ => rfl⟩
      · cases at_
        rfl
      · simpa [FIL.has] using clean
    · intro answer
      cases well _ _ answer
  · rename_i here
    have sound : fp.Sound s.vol :=
      ⟨below.entry, below.roomy, below.clean, below.dirty, fun off => by
        by_contra other
        exact here ⟨off, other⟩⟩
    exact ⟨rfl, .refl _ _, rfl, rfl, rfl, rfl, rfl, sound, .refl _ _⟩

theorem wp_seekDone (well : G.Healthy) (below : fp.SoundBelow s.vol) : (seekDone fp).wp (rules G)
    (fun r t => r.1 = .ok ∧ Touches fp.name s.vol t.vol ∧
      (fp.fptr ≤ fp.objsize → Sought fp fp.fptr s.vol r.2 t.vol)) s := by
  unfold seekDone
  rw [wp_bind]
  apply wp_mono (wp_seekSector well below)
  rintro ⟨res, fp'⟩ t ⟨ok, sought⟩
  dsimp only at ok sought ⊢
  subst ok
  rw [if_neg (by simp), wp_pure]
  refine ⟨rfl, sought.touches, fun within => ?_⟩
  rw [if_neg (by rw [sought.objsize, sought.fptr]; omega)]
  exact sought

/-! ## The chain -/

/-- A cluster further on, where no answer is an error. -/
inductive Stepped (next : FIL Name) (s : Snap Name) : Option FRESULT → FIL Name → Snap Name → Prop
  | within {t : Snap Name} (touches : Touches next.name s.vol t.vol)
      (data : t.vol.data next.name = s.vol.data next.name) : Stepped next s (some .ok) next t
  | longer {t : Snap Name} (end_ : next.clusters * next.bcs ≤ next.fptr)
      (vol : t.vol = s.vol.stretch next.name) :
      Stepped next s (some .ok) { next with clusters := next.clusters + 1 } t
  | full {t : Snap Name} (end_ : next.clusters * next.bcs ≤ next.fptr)
      (touches : Touches next.name s.vol t.vol) (data : t.vol.data next.name = s.vol.data next.name) :
      Stepped next s none next t

theorem wp_seekStretch (well : G.Healthy) (next : FIL Name) : (stretchCluster next).wp (rules G)
    (fun r t => Stepped next s r.1 r.2 t) s := by
  apply wp_mono (wp_stretchCluster next s)
  rintro ⟨res, fp'⟩ t stretched
  cases stretched with
  | within touches data => exact .within touches data
  | longer end_ vol => exact .longer end_ vol
  | full end_ touches data => exact .full end_ touches data
  | failed _ _ _ sick => exact absurd well sick

theorem wp_seekCluster (well : G.Healthy) {next : FIL Name}
    (reach : next.has faWrite = true ∨ next.fptr < next.clusters * next.bcs) :
    (seekCluster next).wp (rules G) (fun r t => Stepped next s r.1 r.2 t) s := by
  unfold seekCluster
  split
  · exact wp_seekStretch well next
  · rename_i reader
    rw [wp_bind]
    apply wp_followCluster
    intro r t touches data ok
    rw [ok well (reach.resolve_left reader)]
    exact .within touches data

/-- What the loop over clusters leaves: a place in the chain, the one looked for where the
chain reaches it. -/
structure Followed (fp : FIL Name) (ofs : Nat) (s : Snap Name) (fp' : FIL Name) (rest : Nat)
    (t : Snap Name) : Prop where
  name : fp'.name = fp.name
  below : fp'.SoundBelow t.vol
  touches : Touches fp.name s.vol t.vol
  there : fp.fptr + ofs ≤ fp.clusters * fp.bcs → t.vol.data fp.name = s.vol.data fp.name ∧
    ∃ q, fp' = { fp with fptr := q } ∧ q + rest = fp.fptr + ofs

omit [DecidableEq Name] in
theorem Followed.stay (below : fp.SoundBelow s.vol) : Followed fp ofs s fp ofs s :=
  ⟨rfl, below, .refl _ _, fun _ => ⟨rfl, fp.fptr, rfl, rfl⟩⟩

theorem SoundBelow_stretch {next : FIL Name} (below : next.SoundBelow s.vol)
    (vol : t.vol = s.vol.stretch next.name) :
    next.SoundBelow t.vol ∧ Touches next.name s.vol t.vol := by
  have touches : Touches next.name s.vol t.vol := vol ▸ touches_stretch _ _
  exact ⟨below.frame (touches.isSome below.entry) (vol ▸ data_stretch _ _), touches⟩

theorem wp_seekLoop (well : G.Healthy) (turns : Nat) (below : fp.SoundBelow s.vol)
    (reach : fp.has faWrite = true ∨ fp.fptr + ofs ≤ fp.clusters * fp.bcs) :
    (seekLoop turns fp ofs).wp (rules G)
      (fun r t => r.1 = .ok ∧ Followed fp ofs s r.2.1 r.2.2 t) s := by
  induction turns generalizing fp ofs s with
  | zero => exact ⟨rfl, .stay below⟩
  | succ turns ih =>
    unfold seekLoop
    split
    · exact ⟨rfl, .stay below⟩
    rename_i far
    have step : fp.has faWrite = true ∨ fp.fptr + fp.bcs < fp.clusters * fp.bcs :=
      reach.imp_right fun inside => by omega
    have next := below.moved (fp.fptr + fp.bcs)
    rw [wp_bind]
    apply wp_mono (wp_seekCluster (s := s) well step)
    rintro ⟨res, fp₁⟩ t stepped
    cases stepped with
    | within touches data =>
      have still := next.frame (touches.isSome next.entry) data
      have reach' : fp.has faWrite = true ∨ fp.fptr + fp.bcs + (ofs - fp.bcs) ≤ fp.clusters * fp.bcs :=
        reach.imp_right fun inside => by omega
      apply wp_mono (ih still reach')
      rintro ⟨res, fp', rest⟩ u ⟨ok, followed⟩
      refine ⟨ok, followed.name, followed.below, touches.trans followed.touches, fun inside => ?_⟩
      have further : fp.fptr + fp.bcs + (ofs - fp.bcs) ≤ fp.clusters * fp.bcs := by omega
      obtain ⟨same, q, moved, place⟩ := followed.there further
      refine ⟨same.trans data, q, moved, ?_⟩
      rw [place]
      dsimp only
      omega
    | longer end_ vol =>
      obtain ⟨below₁, touches⟩ := SoundBelow_stretch next vol
      have writer : fp.has faWrite = true := by
        apply step.resolve_right
        intro inside
        exact absurd end_ (Nat.not_le.2 inside)
      apply wp_mono (ih (below₁.longer _) (.inl writer))
      rintro ⟨res, fp', rest⟩ u ⟨ok, followed⟩
      refine ⟨ok, followed.name, followed.below, touches.trans followed.touches, fun inside => ?_⟩
      have place : fp.clusters * fp.bcs ≤ fp.fptr + fp.bcs := end_
      omega
    | full end_ touches data =>
      have still := below.frame (touches.isSome below.entry) data
      refine ⟨rfl, rfl, still, touches, fun inside => ?_⟩
      have place : fp.clusters * fp.bcs ≤ fp.fptr + fp.bcs := end_
      omega

omit [DecidableEq Name] in
/-- Where the file pointer was before does not matter. -/
theorem Sought.from_moved {v v' : Volume Name} {p : Nat} (h : Sought { fp with fptr := p } n v fp' v') :
    Sought fp n v fp' v' :=
  ⟨⟨h.like.name, h.like.attached, h.like.csize, h.like.modes⟩, h.err, h.objsize, h.clusters, h.fptr,
    h.bytes, h.sound, h.touches⟩

omit [DecidableEq Name] in
/-- Nor does a volume before that differs in the chain of the file only. -/
theorem Sought.since {v v' w : Volume Name} (h : Sought fp n v' fp' w) (touches : Touches fp.name v v')
    (data : v'.data fp.name = v.data fp.name) : Sought fp n v fp' w :=
  ⟨h.like, h.err, h.objsize, h.clusters, h.fptr, h.bytes.trans (congrArg fp.view data), h.sound,
    touches.trans h.touches⟩

theorem wp_seekFrom (well : G.Healthy) (below : fp.SoundBelow s.vol) (ofs : Nat)
    (reach : fp.has faWrite = true ∨ fp.fptr + ofs ≤ fp.clusters * fp.bcs) :
    (seekFrom fp ofs).wp (rules G) (fun r t => r.1 = .ok ∧ Touches fp.name s.vol t.vol ∧
      (fp.fptr + ofs ≤ fp.clusters * fp.bcs → fp.fptr + ofs ≤ fp.objsize →
        Sought fp (fp.fptr + ofs) s.vol r.2 t.vol)) s := by
  unfold seekFrom
  rw [wp_bind]
  apply wp_mono (wp_seekLoop well _ below reach)
  rintro ⟨res, fp₁, rest⟩ t ⟨ok, followed⟩
  dsimp only at ok followed ⊢
  subst ok
  rw [if_neg (by simp)]
  apply wp_mono (wp_seekDone well (followed.below.moved (fp₁.fptr + rest)))
  rintro ⟨res, fp'⟩ u ⟨ok, touches, done⟩
  have name := followed.name
  refine ⟨ok, followed.touches.trans (name ▸ touches), fun chain file => ?_⟩
  obtain ⟨same, q, moved, place⟩ := followed.there chain
  subst moved
  dsimp only at place done ⊢
  rw [place] at done
  exact (done file).from_moved.since followed.touches same

/-- `f_lseek` on a file whose chain covers it. -/
theorem wp_fLseek (well : G.Healthy) (attached : fp.attached = true) (err : fp.err = .ok)
    (below : fp.SoundBelow s.vol) (covered : fp.objsize ≤ fp.clusters * fp.bcs) (ofs : Nat) :
    (fLseek fp ofs).wp (rules G) (fun r t => r.1 = .ok ∧ Touches fp.name s.vol t.vol ∧
      (ofs ≤ fp.objsize → Sought fp ofs s.vol r.2 t.vol)) s := by
  unfold fLseek
  rw [wp_noted, wp_bind]
  apply wp_mono (wp_check fp)
  intro res t checked
  have ok : res = .ok := (checked.healthy well attached).trans err
  have vol := checked.vol
  have below₁ : fp.SoundBelow t.vol := by rwa [vol]
  rw [if_neg (by simp [ok])]
  dsimp only
  generalize clipped : (if fp.objsize < ofs ∧ (!fp.has faWrite) = true then fp.objsize else ofs) = p
  have reach : fp.has faWrite = true ∨ p ≤ fp.objsize := by
    rw [← clipped]
    split
    · exact .inr (Nat.le_refl _)
    · rename_i clips
      cases writer : fp.has faWrite with
      | true => exact .inl rfl
      | false =>
        rw [writer] at clips
        exact .inr (Nat.le_of_not_lt fun far => clips ⟨far, rfl⟩)
  have same (within : ofs ≤ fp.objsize) : p = ofs := by
    rw [← clipped, if_neg (by omega)]
  have from_ (q k : Nat) (place : q + k = p) : (seekFrom { fp with fptr := q } k).wp (rules G)
      (fun r t => r.1 = .ok ∧ Touches fp.name s.vol t.vol ∧
        (ofs ≤ fp.objsize → Sought fp ofs s.vol r.2 t.vol)) t := by
    have reach' : fp.has faWrite = true ∨ q + k ≤ fp.clusters * fp.bcs :=
      reach.imp_right fun inside => by omega
    apply wp_mono (wp_seekFrom well (below₁.moved q) k reach')
    rintro ⟨res, fp'⟩ u ⟨ok, touches, sought⟩
    rw [vol] at touches sought
    refine ⟨ok, touches, fun within => ?_⟩
    have file : q + k ≤ fp.objsize := by rw [place, same within]; exact within
    have chain : q + k ≤ fp.clusters * fp.bcs := Nat.le_trans file covered
    rw [← same within, ← place]
    exact (sought chain file).from_moved
  split
  · rename_i zero
    apply wp_mono (wp_seekDone well (below₁.moved 0))
    rintro ⟨res, fp'⟩ u ⟨ok, touches, done⟩
    rw [vol] at touches done
    refine ⟨ok, touches, fun within => ?_⟩
    rw [← same within, zero]
    exact (done (Nat.zero_le _)).from_moved
  rename_i some_
  split
  · rename_i ahead
    apply wp_mono (from_ ((fp.fptr - 1) / fp.bcs * fp.bcs) (p - (fp.fptr - 1) / fp.bcs * fp.bcs) ?_)
    · exact fun r u done => done
    · have low := Nat.mul_le_mul_right fp.bcs ahead.2
      have high := Nat.div_mul_le_self (p - 1) fp.bcs
      omega
  split
  · apply wp_mono (from_ 0 p (Nat.zero_add p))
    exact fun r u done => done
  · rename_i chainless
    rw [wp_bind]
    have none_ : fp.clusters * fp.bcs = 0 := by
      rw [show fp.clusters = 0 by simpa using chainless, Nat.zero_mul]
    have outside : ¬ofs ≤ fp.objsize := by
      intro within
      have := same within
      omega
    have writer : fp.has faWrite = true := reach.resolve_right fun inside => by omega
    apply wp_mono (wp_seekStretch (s := t) well { fp with fptr := 0 })
    rintro ⟨res, fp₁⟩ u stepped
    have start := below₁.moved 0
    cases stepped with
    | within touches₁ data₁ =>
      have start₁ := start.frame (touches₁.isSome start.entry) data₁
      rw [vol] at touches₁
      apply wp_mono (wp_seekFrom well start₁ p (.inl writer))
      rintro ⟨res, fp'⟩ u' ⟨ok, touches, -⟩
      exact ⟨ok, touches₁.trans touches, fun within => absurd within outside⟩
    | longer _ vol₁ =>
      obtain ⟨start₁, touches₁⟩ := SoundBelow_stretch start vol₁
      rw [vol] at touches₁
      apply wp_mono (wp_seekFrom well (start₁.longer _) p (.inl writer))
      rintro ⟨res, fp'⟩ u' ⟨ok, touches, -⟩
      exact ⟨ok, touches₁.trans touches, fun within => absurd within outside⟩
    | full _ touches₁ data₁ =>
      have start₁ := start.frame (touches₁.isSome start.entry) data₁
      rw [vol] at touches₁
      apply wp_mono (wp_seekDone well start₁)
      rintro ⟨res, fp'⟩ u' ⟨ok, touches, -⟩
      exact ⟨ok, touches₁.trans touches, fun within => absurd within outside⟩

end

end FatFsParticle.Files
