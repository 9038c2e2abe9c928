import FatFsParticle.Files.Cache

/-!
# Reading

A turn of the loop of `f_read` stores some of the bytes that are seen from the file
pointer on, and what is seen stays the same; so the whole loop stores them in a row.
-/

namespace FatFsParticle.Files
open Interact Program Cells Volume

variable {Name : Type} {G : Answers Name} {fp fp' : FIL Name} {s t : Snap Name} {btr : Nat}

/-! ## Checks -/

theorem wp_validate {Q : FRESULT → Snap Name → Prop} (detached : fp.attached = false →
      Q .invalidObject s)
    (h : fp.attached = true → ∀ r, G (.validate fp.name) r →
      Q r (s.logged (.answered (.validate fp.name) r))) :
    (validate fp).wp (rules G) Q s := by
  unfold validate
  cases attached : fp.attached with
  | true => exact (wp_ask _ _ _ _).2 (h attached)
  | false => exact detached attached

/-- How the checks at the beginning of a file function end. -/
structure Checked (G : Answers Name) (fp : FIL Name) (s : Snap Name) (r : FRESULT)
    (t : Snap Name) : Prop where
  vol : t.vol = s.vol
  log : t.log = s.log ∨ ∃ a, t.log = .answered (.validate fp.name) a :: s.log
  valid : r = .ok → fp.attached = true ∧ fp.err = .ok
  healthy : G.Healthy → fp.attached = true → r = fp.err

theorem wp_check (fp : FIL Name) : (check fp).wp (rules G) (Checked G fp s) s := by
  unfold check
  rw [wp_bind]
  apply wp_validate
  · intro detached
    exact ⟨rfl, .inl rfl, (fun no => nomatch no), fun _ attached => absurd attached (by simp [detached])⟩
  · intro attached r answer
    refine ⟨rfl, .inr ⟨r, rfl⟩, fun ok => ?_, fun well _ => ?_⟩
    · split at ok
      · contradiction
      · exact ⟨attached, ok⟩
    · cases well _ _ answer
      rfl

theorem wp_followCluster [DecidableEq Name] {Q : FRESULT → Snap Name → Prop}
    (h : ∀ r t, Touches fp.name s.vol t.vol → t.vol.data fp.name = s.vol.data fp.name →
      (G.Healthy → fp.fptr < fp.clusters * fp.bcs → r = .ok) → Q r t) :
    (followCluster fp).wp (rules G) Q s := by
  unfold followCluster
  split
  · apply h _ _ (.refl _ _) rfl
    intro _ within
    split
    · simp_all
    · rfl
  · rw [wp_bind]
    apply (wp_ask _ _ _ _).2
    intro a answer
    rw [wp_bind]
    apply wp_mono (wp_moveOn fp.name (s.logged _))
    intro _ t moved
    obtain ⟨touches, data⟩ := moved.touches
    cases a with
    | none =>
      refine h _ _ touches data fun _ within => ?_
      rw [if_pos within]
    | some f => exact h _ _ touches data fun well _ => nomatch well _ _ answer

/-! ## A turn -/

/-- Bytes up to the end of the sector stay in it. -/
theorem sector_stay {p n : Nat} (le : n ≤ ss - p % ss) (inside : (p + n) % ss ≠ 0) :
    (p + n) / ss = p / ss := by
  unfold ss at *
  omega

theorem FIL.Sound.moved (h : fp.Sound s.vol) {p : Nat}
    (here : p % ss ≠ 0 → fp.sect = some (p / ss)) : ({ fp with fptr := p } : FIL Name).Sound s.vol :=
  ⟨h.entry, h.roomy, h.clean, h.dirty, here⟩

/-- What a turn of the loop of `f_read` does. -/
structure TurnRead (G : Answers Name) (fp : FIL Name) (btr : Nat) (s : Snap Name)
    (r : FRESULT × FIL Name × List BYTE) (t : Snap Name) : Prop where
  same : fp.Rebuffered r.2.1
  clusters : r.2.1.clusters = fp.clusters
  touches : Touches fp.name s.vol t.vol
  some_ : r.1 = .ok → 0 < r.2.2.length
  le : r.1 = .ok → r.2.2.length ≤ btr
  part : r.1 = .ok → r.2.2 = slice (fp.bytes s.vol) fp.fptr r.2.2.length
  bytes : r.1 = .ok → r.2.1.bytes t.vol = fp.bytes s.vol
  sound : r.1 = .ok → ({ r.2.1 with fptr := fp.fptr + r.2.2.length } : FIL Name).Sound t.vol
  healthy : G.Healthy → fp.fptr < fp.clusters * fp.bcs → r.1 = .ok

/-- A turn that ends in the buffered sector. -/
theorem TurnRead.buffer (same : fp.Rebuffered fp') (clusters : fp'.clusters = fp.clusters)
    (touches : Touches fp.name s.vol t.vol) (bytes : fp'.bytes t.vol = fp.bytes s.vol)
    (sound : fp'.Sound t.vol) (at_ : fp'.sect = some (fp.fptr / ss)) (more : 0 < btr) :
    TurnRead G fp btr s (.ok, fp', readBuffer fp' btr) t := by
  have room : fp.fptr % ss < ss := Nat.mod_lt _ (by decide)
  have length : (readBuffer fp' btr).length = min (ss - fp.fptr % ss) btr := by
    unfold readBuffer
    rw [length_slice, same.fptr]
  refine ⟨same, clusters, touches, fun _ => ?_, fun _ => ?_, fun _ => ?_, fun _ => bytes, fun _ => ?_,
    fun _ _ => rfl⟩
  · dsimp only
    omega
  · dsimp only
    omega
  · have read := sound.slice_buf (n := min (ss - fp'.fptr % ss) btr) (by rw [same.fptr]; exact at_)
      (by rw [same.fptr]; omega)
    unfold readBuffer
    rw [read, bytes, length_slice, same.fptr]
  · apply sound.moved
    intro inside
    dsimp only at inside ⊢
    rw [at_, sector_stay _ inside]
    omega

theorem TurnRead.failed {res : FRESULT} (bad : res ≠ .ok) (same : fp.Rebuffered fp')
    (clusters : fp'.clusters = fp.clusters) (touches : Touches fp.name s.vol t.vol)
    (healthy : G.Healthy → fp.fptr < fp.clusters * fp.bcs → res = .ok) :
    TurnRead G fp btr s (res, fp', []) t :=
  ⟨same, clusters, touches, fun ok => absurd ok bad, fun ok => absurd ok bad, fun ok => absurd ok bad,
    fun ok => absurd ok bad, fun ok => absurd ok bad, healthy⟩

theorem cc_pos (h : 0 < fp.csize) {n : Nat} (some_ : n / ss ≠ 0) : 0 < cc fp n := by
  have lt := Nat.mod_lt (fp.fptr / ss) h
  unfold cc
  generalize n / ss = m at some_
  dsimp only
  split <;> omega

theorem cc_le (fp : FIL Name) (n : Nat) : cc fp n * ss ≤ n := by
  have le : cc fp n ≤ n / ss := by
    unfold cc
    generalize n / ss = m
    dsimp only
    split <;> omega
  exact Nat.le_trans (Nat.mul_le_mul_right _ le) (Nat.div_mul_le_self n ss)

/-! ## The loop -/

/-- What the loop of `f_read` does. -/
structure LoopRead (G : Answers Name) (fp : FIL Name) (btr : Nat) (s : Snap Name) (res : FRESULT)
    (fp' : FIL Name) (got : List BYTE) (t : Snap Name) : Prop where
  like : fp.Like faDirty fp'
  objsize : fp'.objsize = fp.objsize
  clusters : fp'.clusters = fp.clusters
  touches : Touches fp.name s.vol t.vol
  got : res = .ok → got = slice (fp.bytes s.vol) fp.fptr btr
  bytes : res = .ok → fp'.bytes t.vol = fp.bytes s.vol
  fptr : res = .ok → fp'.fptr = fp.fptr + btr
  err : res = .ok → fp'.err = fp.err
  sound : res = .ok → fp'.Sound t.vol
  healthy : G.Healthy → fp.fptr + btr ≤ fp.clusters * fp.bcs → res = .ok

theorem LoopRead.done (h : fp.Sound s.vol) : LoopRead G fp 0 s .ok fp [] s :=
  ⟨.refl _ _, rfl, rfl, .refl _ _, fun _ => rfl, fun _ => rfl, fun _ => rfl, fun _ => rfl, fun _ => h,
    fun _ _ => rfl⟩

/-- A turn that fails ends the loop. -/
theorem TurnRead.stop {part : List BYTE} {res : FRESULT} (turn : TurnRead G fp btr s (res, fp', part) t)
    (bad : res ≠ .ok) (more : btr ≠ 0) : LoopRead G fp btr s res (fp'.abort res) [] t := by
  refine ⟨⟨turn.same.name, turn.same.attached, turn.same.csize, turn.same.modes⟩, turn.same.objsize,
    turn.clusters, turn.touches, fun ok => absurd ok bad, fun ok => absurd ok bad,
    fun ok => absurd ok bad, fun ok => absurd ok bad, fun ok => absurd ok bad, ?_⟩
  intro well room
  exact turn.healthy well (by omega)

/-- A turn, and then the rest of the loop. -/
theorem TurnRead.then {part rest : List BYTE} {u : Snap Name} {res : FRESULT} {fp₁ : FIL Name}
    (turn : TurnRead G fp btr s (.ok, fp₁, part) t)
    (loop : LoopRead G { fp₁ with fptr := fp₁.fptr + part.length } (btr - part.length) t res fp' rest u) :
    LoopRead G fp btr s res fp' (part ++ rest) u := by
  have le : part.length ≤ btr := turn.le rfl
  have fptr : fp₁.fptr = fp.fptr := turn.same.fptr
  have name : fp₁.name = fp.name := turn.same.name
  have bytes : fp₁.bytes t.vol = fp.bytes s.vol := turn.bytes rfl
  refine ⟨?_, ?_, ?_, ?_, ?_, ?_, ?_, ?_, loop.sound, ?_⟩
  · exact turn.same.like.trans ⟨loop.like.name, loop.like.attached, loop.like.csize, loop.like.modes⟩
  · exact loop.objsize.trans turn.same.objsize
  · exact loop.clusters.trans turn.clusters
  · exact turn.touches.trans (name ▸ loop.touches)
  · intro ok
    have first : part = slice (fp.bytes s.vol) fp.fptr part.length := turn.part rfl
    have more : rest = slice (fp₁.bytes t.vol) (fp₁.fptr + part.length) (btr - part.length) :=
      loop.got ok
    rw [bytes, fptr] at more
    rw [more, ← Nat.add_sub_cancel' le, slice_append, ← first, Nat.add_sub_cancel_left]
  · intro ok
    exact (loop.bytes ok).trans bytes
  · intro ok
    have at_ := loop.fptr ok
    dsimp only at at_
    omega
  · intro ok
    exact (loop.err ok).trans turn.same.err
  · intro well inside
    have bcs : fp₁.bcs = fp.bcs := turn.same.bcs
    have clusters : fp₁.clusters = fp.clusters := turn.clusters
    have room : fp₁.fptr + part.length + (btr - part.length) ≤ fp₁.clusters * fp₁.bcs := by
      rw [bcs, clusters, fptr]
      omega
    exact loop.healthy well room

/-- How `f_read` ends: with an error before it begins, or with the loop for `btr` bytes,
or as many as there are left. -/
inductive ReadEnd (G : Answers Name) (fp : FIL Name) (btr : Nat) (s : Snap Name) :
    FRESULT → FIL Name → List BYTE → Snap Name → Prop
  | refused {res : FRESULT} {t : Snap Name} (bad : res ≠ .ok) (vol : t.vol = s.vol)
      (healthy : G.Healthy → fp.attached = true → fp.err = .ok → fp.has faRead = true → False) :
      ReadEnd G fp btr s res fp [] (t.logged (.returned .read fp.name res 0))
  | looped {res : FRESULT} {fp' : FIL Name} {got : List BYTE} {t u : Snap Name} (vol : t.vol = s.vol)
      (attached : fp.attached = true) (err : fp.err = .ok)
      (loop : LoopRead G fp (min btr (fp.objsize - fp.fptr)) t res fp' got u) :
      ReadEnd G fp btr s res fp' got (u.logged (.returned .read fp.name res got.length))

/-! ## The functions -/

variable [DecidableEq Name]

theorem wp_readTurn (h : fp.Sound s.vol) (more : 0 < btr) :
    (readTurn fp btr).wp (rules G) (TurnRead G fp btr s) s := by
  unfold readTurn
  split
  · rename_i off
    exact .buffer (.refl fp) rfl (.refl _ _) rfl h (h.here off) more
  rename_i boundary
  have top : fp.fptr % ss = 0 := by simpa using boundary
  rw [wp_bind]
  have follow : (if fp.fptr / ss % fp.csize = 0 then followCluster fp else pure .ok).wp (rules G)
      (fun r t => Touches fp.name s.vol t.vol ∧ t.vol.data fp.name = s.vol.data fp.name ∧
        (G.Healthy → fp.fptr < fp.clusters * fp.bcs → r = .ok)) s := by
    split
    · exact wp_followCluster fun r t touches data healthy => ⟨touches, data, healthy⟩
    · exact ⟨.refl _ _, rfl, fun _ _ => rfl⟩
  apply wp_mono follow
  rintro res t ⟨moved, data, healthy⟩
  split
  · rename_i bad
    exact .failed bad (.refl fp) rfl moved healthy
  have sound : fp.Sound t.vol := h.frame (moved.isSome h.entry) data
  have seen : fp.bytes t.vol = fp.bytes s.vol := congrArg fp.view data
  split
  · rename_i sectors
    rw [wp_bind]
    apply (wp_ask _ _ _ _).2
    intro a answer
    rw [wp_bind, wp_load]
    cases a with
    | false =>
      exact .failed (by simp) (.refl fp) rfl moved fun well _ => nomatch well _ _ answer
    | true =>
      have count := cc_pos h.roomy sectors
      refine ⟨.refl fp, rfl, moved, fun _ => ?_, fun _ => ?_, fun _ => ?_, fun _ => seen, fun _ => ?_,
        fun _ _ => rfl⟩
      · simp only [if_true, length_slice]
        exact Nat.mul_pos count (by decide)
      · simp only [if_true, length_slice]
        exact cc_le fp btr
      · simp only [if_true, length_slice, Snap.logged_vol]
        exact congrArg (fun data => slice data fp.fptr (cc fp btr * ss)) seen
      · refine sound.moved fun inside => absurd ?_ inside
        simp only [if_true, length_slice]
        rw [Nat.add_mul_mod_self_right, top]
  split
  · rename_i other
    rw [wp_bind]
    apply wp_mono (wp_writeBack sound.entry sound.dirty)
    rintro ⟨res, fp₁⟩ t₁ back
    have touches : Touches fp.name s.vol t₁.vol := moved.trans back.touches
    dsimp only
    split
    · rename_i bad
      exact .failed bad back.same back.clusters touches fun well _ => back.healthy well
    rename_i fine
    have ok : res = .ok := by simpa using fine
    obtain ⟨-, clean⟩ := back.data ok
    have bytes : fp₁.bytes t₁.vol = fp.bytes s.vol := (back.bytes ok).trans seen
    rw [wp_bind]
    apply wp_fill
    · intro _
      refine .buffer (back.same.buffer _ _) back.clusters touches ?_
        ((back.sound sound ok).filled (fun _ => rfl) clean) ?_ more
      · exact (FIL.bytes_buffer clean _ _ _).trans bytes
      · exact congrArg (fun p => some (p / ss)) back.same.fptr
    · intro answer
      exact .failed (by simp) back.same back.clusters touches fun well _ => nomatch well _ _ answer
  · rename_i here
    have at_ : fp.sect = some (fp.fptr / ss) := by simpa using here
    exact .buffer (.refl fp) rfl moved seen sound at_ more

theorem wp_readLoop (turns : Nat) (h : fp.Sound s.vol) (enough : btr ≤ turns) (got : List BYTE) :
    (readLoop turns fp btr got).wp (rules G) (fun r t => ∃ rest, r.2.2 = got ++ rest ∧
      LoopRead G fp btr s r.1 r.2.1 rest t) s := by
  induction turns generalizing fp btr got s with
  | zero =>
    have none_ : btr = 0 := by omega
    subst none_
    exact ⟨[], (List.append_nil _).symm, .done h⟩
  | succ turns ih =>
    unfold readLoop
    split
    · rename_i none_
      subst none_
      exact ⟨[], (List.append_nil _).symm, .done h⟩
    rename_i more
    rw [wp_bind]
    apply wp_mono (wp_readTurn h (Nat.pos_of_ne_zero more))
    rintro ⟨res, fp₁, part⟩ t turn
    dsimp only
    split
    · rename_i bad
      exact ⟨[], (List.append_nil _).symm, turn.stop bad more⟩
    rename_i fine
    have ok : res = .ok := by simpa using fine
    subst ok
    have some_ : 0 < part.length := turn.some_ rfl
    have fptr : fp₁.fptr = fp.fptr := turn.same.fptr
    have sound : ({ fp₁ with fptr := fp₁.fptr + part.length } : FIL Name).Sound t.vol := by
      rw [fptr]
      exact turn.sound rfl
    apply wp_mono (ih sound (by omega) (got ++ part))
    rintro ⟨res, fp', all⟩ u ⟨rest, same, loop⟩
    exact ⟨part ++ rest, by rw [same, List.append_assoc], turn.then loop⟩

theorem wp_fRead (h : fp.Sound s.vol) :
    (fRead fp btr).wp (rules G) (fun r t => ReadEnd G fp btr s r.1 r.2.1 r.2.2 t) s := by
  unfold fRead
  rw [wp_noted, wp_bind]
  apply wp_mono (wp_check fp)
  intro res t checked
  split
  · rename_i bad
    refine .refused bad checked.vol ?_
    intro well attached err _
    exact bad ((checked.healthy well attached).trans err)
  rename_i fine
  obtain ⟨attached, err⟩ := checked.valid (by simpa using fine)
  split
  · rename_i mode
    refine .refused (by simp) checked.vol ?_
    intro _ _ _ read
    rw [read] at mode
    cases mode
  · have sound : fp.Sound t.vol := by rwa [checked.vol]
    apply wp_mono (wp_readLoop _ sound (Nat.le_refl _) [])
    rintro ⟨res, fp', got⟩ u ⟨rest, same, loop⟩
    cases same
    exact .looped checked.vol attached err loop

end FatFsParticle.Files
