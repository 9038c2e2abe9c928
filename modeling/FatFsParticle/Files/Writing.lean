import FatFsParticle.Files.Reading

/-!
# Writing

A turn of the loop of `f_write` puts some of its bytes over what is seen from the file
pointer on, up to the new length; below the file pointer the disk keeps its bytes, or
gets those that are seen there. So a loop that ends well has put a prefix of the bytes
there, and a shorter one than all only where the disk is full.
-/

namespace FatFsParticle.Files
open Interact Program Cells Volume

variable {Name : Type} {G : Answers Name} {fp fp' : FIL Name} {s t : Snap Name} {bytes : List BYTE}

/-! ## Signs in the log -/

/-- A chain of `n` could not be stretched. -/
def Full (n : Name) (log : List (Event Name)) : Prop := .answered (.createChain n) .full ∈ log

/-- Sectors of `n` could not all be written. -/
def Torn (n : Name) (log : List (Event Name)) : Prop :=
  ∃ count k, .answered (.diskWrite n count) (some k) ∈ log

/-- The signs of `n` in the log `new` are those in `old`. -/
def Calm (n : Name) (old new : List (Event Name)) : Prop :=
  (Full n new → Full n old) ∧ (Torn n new → Torn n old)

theorem Calm.refl (n : Name) (log : List (Event Name)) : Calm n log log := ⟨id, id⟩

theorem Calm.trans {n : Name} {a b c : List (Event Name)} (h : Calm n a b) (h' : Calm n b c) :
    Calm n a c := ⟨h.1 ∘ h'.1, h.2 ∘ h'.2⟩

theorem Calm.cons {n : Name} {log : List (Event Name)} {e : Event Name}
    (full : e ≠ .answered (.createChain n) .full)
    (torn : ∀ count k, e ≠ .answered (.diskWrite n count) (some k)) : Calm n log (e :: log) := by
  constructor
  · intro h
    rcases List.mem_cons.1 h with eq | h
    · exact absurd eq.symm full
    · exact h
  · rintro ⟨count, k, h⟩
    rcases List.mem_cons.1 h with eq | h
    · exact absurd eq.symm (torn count k)
    · exact ⟨count, k, h⟩

/-! ## The chain -/

theorem MovedOn.calm [DecidableEq Name] {n : Name} (h : MovedOn n s t) : Calm n s.log t.log := by
  cases h with
  | idle => exact .refl _ _
  | kept => exact .cons (by simp) (by simp)
  | written => exact .cons (by simp) (by simp)

/-- How the chain is followed or stretched for a turn. -/
inductive Stretched (G : Answers Name) [DecidableEq Name] (fp : FIL Name) (s : Snap Name) :
    Option FRESULT → FIL Name → Snap Name → Prop
  | within {t : Snap Name} (touches : Touches fp.name s.vol t.vol)
      (data : t.vol.data fp.name = s.vol.data fp.name) (calm : Calm fp.name s.log t.log) :
      Stretched G fp s (some .ok) fp t
  | longer {t : Snap Name} (end_ : fp.clusters * fp.bcs ≤ fp.fptr)
      (vol : t.vol = s.vol.stretch fp.name) (calm : Calm fp.name s.log t.log) :
      Stretched G fp s (some .ok) { fp with clusters := fp.clusters + 1 } t
  | full {t : Snap Name} (end_ : fp.clusters * fp.bcs ≤ fp.fptr)
      (touches : Touches fp.name s.vol t.vol) (data : t.vol.data fp.name = s.vol.data fp.name)
      (log : t.log = .answered (.createChain fp.name) .full :: s.log) : Stretched G fp s none fp t
  | failed {res : FRESULT} {t : Snap Name} (bad : res ≠ .ok) (touches : Touches fp.name s.vol t.vol)
      (data : t.vol.data fp.name = s.vol.data fp.name) (sick : ¬G.Healthy) :
      Stretched G fp s (some res) fp t

theorem wp_stretchCluster [DecidableEq Name] (fp : FIL Name) (s : Snap Name) :
    (stretchCluster fp).wp (rules G) (fun r t => Stretched G fp s r.1 r.2 t) s := by
  unfold stretchCluster
  split
  · split
    · exact .within (.refl _ _) rfl (.refl _ _)
    · rw [wp_bind]
      apply (wp_ask _ _ _ _).2
      intro a answer
      rw [wp_bind]
      apply wp_mono (wp_moveOn fp.name (s.logged _))
      intro _ t moved
      obtain ⟨touches, data⟩ := moved.touches
      cases a with
      | none => exact .within touches data (.trans (.cons (by simp) (by simp)) moved.calm)
      | some f =>
        exact .failed (by cases f <;> simp [Fault.result]) touches data fun well =>
          nomatch well _ _ answer
  · rename_i end_
    rw [wp_bind]
    apply (wp_ask _ _ _ _).2
    intro a answer
    cases a with
    | done =>
      dsimp only
      rw [wp_bind, wp_store]
      exact .longer (by omega) rfl (.cons (by simp) (by simp))
    | full =>
      dsimp only
      rw [wp_bind, wp_store]
      exact .full (by omega) (touches_enter _ _) (data_enter _ _) rfl
    | fault f =>
      dsimp only
      rw [wp_bind]
      apply wp_mono (wp_moveOn fp.name (s.logged _))
      intro _ t moved
      obtain ⟨touches, data⟩ := moved.touches
      exact .failed (by cases f <;> simp [Fault.result]) touches data fun well =>
        well _ _ answer f rfl

/-! ## A turn -/

/-- A dirty buffer lies just below the file pointer. -/
def FIL.Late (fp : FIL Name) : Prop :=
  fp.has faDirty = true → 0 < fp.fptr ∧ fp.sect = some ((fp.fptr - 1) / ss)

/-- What a turn of the loop of `f_write` does that takes `n` bytes. -/
structure Took (fp : FIL Name) (bytes : List BYTE) (s : Snap Name) (fp' : FIL Name) (n : Nat)
    (t : Snap Name) : Prop where
  same : fp.Rebuffered fp'
  clusters : fp.clusters ≤ fp'.clusters
  touches : Touches fp.name s.vol t.vol
  framed : ∀ i < fp.fptr, t.vol.data fp.name i = s.vol.data fp.name i ∨
    t.vol.data fp.name i = fp.bytes s.vol i
  calm : Calm fp.name s.log t.log
  some_ : 0 < n
  le : n ≤ bytes.length
  seen : ∀ i < max fp.objsize (fp.fptr + n),
    fp'.bytes t.vol i = put (fp.bytes s.vol) fp.fptr (bytes.take n) i
  sound : ({ fp' with fptr := fp.fptr + n } : FIL Name).Sound t.vol
  /-- Less than a sector goes into the buffer. -/
  small : bytes.length < ss → fp'.has faDirty = true ∧ fp'.sect = some ((fp.fptr + n - 1) / ss) ∧
    (fp.Late → ∀ i, fp.fptr % ss ≠ 0 ∨ fp.fptr ≤ i → t.vol.data fp.name i = s.vol.data fp.name i)

/-- How a turn of the loop of `f_write` ends. -/
inductive TurnWrote (fp : FIL Name) (bytes : List BYTE) (s : Snap Name) :
    Option FRESULT → FIL Name → Nat → Snap Name → Prop
  | took {fp' : FIL Name} {n : Nat} {t : Snap Name} (took : Took fp bytes s fp' n t) :
      TurnWrote fp bytes s (some .ok) fp' n t
  | full {t : Snap Name} (end_ : fp.clusters * fp.bcs ≤ fp.fptr)
      (touches : Touches fp.name s.vol t.vol) (data : t.vol.data fp.name = s.vol.data fp.name)
      (log : t.log = .answered (.createChain fp.name) .full :: s.log) : TurnWrote fp bytes s none fp 0 t
  | failed {res : FRESULT} {fp' : FIL Name} {t : Snap Name} (bad : res ≠ .ok)
      (same : fp.Rebuffered fp') (touches : Touches fp.name s.vol t.vol)
      (clusters : fp.clusters ≤ fp'.clusters)
      (framed : ∀ i < fp.fptr, t.vol.data fp.name i = s.vol.data fp.name i ∨
        t.vol.data fp.name i = fp.bytes s.vol i) :
      TurnWrote fp bytes s (some res) fp' 0 t

/-- Bytes put into the buffer. -/
theorem writeBuffer_spec (fp : FIL Name) (bytes : List BYTE) : ∃ fp' n, writeBuffer fp bytes = (fp', n) ∧
    n = min (ss - fp.fptr % ss) bytes.length ∧ fp.Rebuffered fp' ∧ fp'.clusters = fp.clusters ∧
    fp'.sect = fp.sect ∧ fp'.has faDirty = true ∧ fp'.buf = put fp.buf (fp.fptr % ss) (bytes.take n) :=
  ⟨_, _, rfl, rfl, ((FIL.Rebuffered.refl fp).buffer _ _).trans (.set _), rfl, rfl, FIL.has_set_dirty _,
    rfl⟩

/-- A turn that puts its bytes into the buffer. -/
theorem Took.buffer (same : fp.Rebuffered fp') (clusters : fp.clusters ≤ fp'.clusters)
    (touches : Touches fp.name s.vol t.vol)
    (framed : ∀ i < fp.fptr, t.vol.data fp.name i = s.vol.data fp.name i ∨
      t.vol.data fp.name i = fp.bytes s.vol i)
    (calm : Calm fp.name s.log t.log) (before : fp.Sound s.vol) (within : fp.fptr ≤ fp.objsize)
    (more : bytes ≠ []) (at_ : fp'.sect = some (fp.fptr / ss))
    (loaded : ∀ j < ss, fp.fptr / ss * ss + j < fp.objsize →
      fp'.buf j = fp.bytes s.vol (fp.fptr / ss * ss + j))
    (outside : ∀ i, i / ss ≠ fp.fptr / ss → t.vol.data fp.name i = fp.bytes s.vol i)
    (untouched : fp.Late → ∀ i, fp.fptr % ss ≠ 0 ∨ fp.fptr ≤ i →
      t.vol.data fp.name i = s.vol.data fp.name i) :
    Took fp bytes s (writeBuffer fp' bytes).1 (writeBuffer fp' bytes).2 t := by
  obtain ⟨fp₁, n, eq, count, put_, chain, sect, dirty, buf⟩ := writeBuffer_spec fp' bytes
  rw [eq]
  dsimp only
  have renewed := same.trans put_
  rw [same.fptr] at count buf
  rw [at_] at sect
  have room : fp.fptr % ss < ss := Nat.mod_lt _ (by decide)
  have whole := Nat.div_add_mod' fp.fptr ss
  have some_ : 0 < bytes.length := List.length_pos_iff.2 more
  have length : (bytes.take n).length = n := by
    rw [List.length_take]
    omega
  have last : (fp.fptr + n - 1) / ss = fp.fptr / ss := by
    unfold ss at *
    omega
  refine ⟨renewed, chain ▸ clusters, touches, framed, calm, by omega, by omega, ?_,
    ⟨?_, ?_, fun clean => ?_, fun _ => ⟨_, sect⟩, fun inside => ?_⟩,
    fun _ => ⟨dirty, last ▸ sect, untouched⟩⟩
  · intro i lt
    unfold FIL.bytes
    rw [renewed.name]
    by_cases here : i / ss = fp.fptr / ss
    · have split_ := Nat.div_add_mod' i ss
      have rem : i % ss < ss := Nat.mod_lt _ (by decide)
      rw [here] at split_
      rw [FIL.view_dirty dirty (by rw [sect, here]), buf]
      by_cases before : i < fp.fptr
      · rw [put_before _ _ (by omega), put_before _ _ before, loaded _ rem (by omega), split_]
        rfl
      · obtain ⟨j, rfl⟩ := Nat.exists_eq_add_of_le (Nat.le_of_not_lt before)
        rw [show (fp.fptr + j) % ss = fp.fptr % ss + j by omega]
        apply put_shift
        intro after
        rw [loaded _ (by omega) (by omega), ← Nat.add_assoc, whole]
        rfl
    · rw [FIL.view_other (by rw [sect]; exact fun same => here (Option.some.inj same).symm), outside i here]
      unfold FIL.bytes
      by_cases before : i < fp.fptr
      · rw [put_before _ _ before]
      · rw [put_after _ ?_]
        rw [length]
        by_contra within
        apply here
        unfold ss at *
        omega
  · exact renewed.name ▸ touches.isSome before.entry
  · exact renewed.csize ▸ before.roomy
  · rw [show fp₁.has faDirty = false from clean] at dirty
    cases dirty
  · dsimp only at inside ⊢
    rw [sector_stay (by omega) inside]
    exact sect

/-- Above the file pointer, a late dirty buffer is not seen. -/
theorem FIL.Late.above (h : fp.Late) (top : fp.fptr % ss = 0) {i : Nat} (le : fp.fptr ≤ i)
    (v : Volume Name) : fp.bytes v i = v.data fp.name i := by
  unfold FIL.bytes
  cases dirty : fp.has faDirty with
  | false => rw [FIL.view_clean dirty]
  | true =>
    obtain ⟨positive, at_⟩ := h dirty
    refine FIL.view_other ?_
    rw [at_]
    intro same
    have below := Option.some.inj same
    unfold ss at *
    omega

/-- The chain followed and the buffer written back. -/
structure Ready (fp : FIL Name) (s : Snap Name) (fp' : FIL Name) (t : Snap Name) : Prop where
  same : fp.Rebuffered fp'
  clusters : fp.clusters ≤ fp'.clusters
  touches : Touches fp.name s.vol t.vol
  calm : Calm fp.name s.log t.log
  data : t.vol.data fp.name = fp.bytes s.vol
  clean : fp'.has faDirty = false
  sound : fp'.Sound t.vol

/-- A sector read changes nothing. -/
theorem Ready.read (ready : Ready fp s fp' t) (b : Bool) :
    Ready fp s fp' (t.logged (.answered (.diskRead fp'.name) b)) :=
  ⟨ready.same, ready.clusters, ready.touches, ready.calm.trans (.cons (by simp) (by simp)), ready.data,
    ready.clean, ready.sound⟩

/-- The buffer goes to the sector at the file pointer, and the bytes into it. -/
theorem Ready.buffer (ready : Ready fp s fp' t) (before : fp.Sound s.vol) (top : fp.fptr % ss = 0)
    (within : fp.fptr ≤ fp.objsize) (more : bytes ≠ []) (buf : Nat → BYTE)
    (loaded : ∀ j < ss, fp.fptr + j < fp.objsize → buf j = fp.bytes s.vol (fp.fptr + j)) :
    Took fp bytes s
      (writeBuffer { fp' with buf := buf, sect := some (fp.fptr / ss) } bytes).1
      (writeBuffer { fp' with buf := buf, sect := some (fp.fptr / ss) } bytes).2 t := by
  have whole := Nat.div_add_mod' fp.fptr ss
  rw [top, Nat.add_zero] at whole
  refine .buffer (ready.same.buffer _ _) ready.clusters ready.touches (fun i _ => .inr ?_) ready.calm
    before within more rfl ?_ (fun i _ => ?_) fun late i above => ?_
  · rw [ready.data]
  · rwa [whole]
  · rw [ready.data]
  · rw [ready.data]
    exact late.above top (above.resolve_left fun off => off top) _

/-- The chain followed or stretched. -/
structure Linked (fp : FIL Name) (s : Snap Name) (fp' : FIL Name) (t : Snap Name) : Prop where
  same : fp.Rebuffered fp'
  clusters : fp.clusters ≤ fp'.clusters
  touches : Touches fp.name s.vol t.vol
  calm : Calm fp.name s.log t.log
  data : t.vol.data fp.name = s.vol.data fp.name
  bytes : fp'.bytes t.vol = fp.bytes s.vol
  sound : fp'.Sound t.vol

theorem Linked.within (h : fp.Sound s.vol) (touches : Touches fp.name s.vol t.vol)
    (data : t.vol.data fp.name = s.vol.data fp.name) (calm : Calm fp.name s.log t.log) :
    Linked fp s fp t :=
  ⟨.refl fp, Nat.le_refl _, touches, calm, data, congrArg fp.view data,
    h.frame (touches.isSome h.entry) data⟩

theorem WroteBack.calm {r : FRESULT × FIL Name} (h : WroteBack G fp s r t) (ok : r.1 = .ok) :
    Calm fp.name s.log t.log := by
  cases h with
  | nothing => exact .refl _ _
  | done => exact .cons (by simp) (by simp)
  | failed => cases ok

theorem Linked.ready {r : FRESULT × FIL Name} {u : Snap Name} (linked : Linked fp s fp' t)
    (back : WroteBack G fp' t r u) (ok : r.1 = .ok) : Ready fp s r.2 u := by
  obtain ⟨data, clean⟩ := back.data ok
  rw [linked.bytes] at data
  have name := linked.same.name
  exact ⟨linked.same.trans back.same, back.clusters ▸ linked.clusters,
    linked.touches.trans (name ▸ back.touches), linked.calm.trans (name ▸ back.calm ok), name ▸ data,
    clean, back.sound linked.sound ok⟩

/-- The buffer after whole sectors were written directly. -/
theorem refill_clean {data : Nat → BYTE} (clean : fp.has faDirty = false)
    (loaded : ∀ s, fp.sect = some s → ∀ i < ss, fp.buf i = data (s * ss + i))
    (top : fp.fptr % ss = 0) {piece : List BYTE} {count : Nat} (length : piece.length = count * ss) :
    (refill fp piece count).has faDirty = false ∧ ∀ s, (refill fp piece count).sect = some s →
      ∀ i < ss, (refill fp piece count).buf i = put data fp.fptr piece (s * ss + i) := by
  have whole := Nat.div_add_mod' fp.fptr ss
  rw [top, Nat.add_zero] at whole
  unfold refill
  split
  · rename_i s at_
    split
    · rename_i inside
      refine ⟨FIL.has_clear_dirty _, ?_⟩
      intro s' same i lt
      cases at_.symm.trans same
      have place : (s - fp.fptr / ss) * ss = s * ss - fp.fptr := by rw [Nat.sub_mul, whole]
      have low : fp.fptr ≤ s * ss := whole ▸ Nat.mul_le_mul_right ss inside.1
      have high := Nat.mul_le_mul_right ss (Nat.succ_le_of_lt inside.2)
      rw [Nat.succ_mul] at high
      unfold ss at *
      rw [put_at _ (Nat.le_add_right_of_le low) (by omega)]
      simp only [FIL.clear, place]
      rw [List.getD_eq_getElem _ _ (by omega)]
      congr 1
      omega
    · rename_i outside
      refine ⟨clean, ?_⟩
      intro s' same i lt
      cases at_.symm.trans same
      unfold ss at *
      rw [loaded s at_ i lt]
      by_cases below : s * 512 + i < fp.fptr
      · rw [put_before _ _ below]
      · rw [put_after _ (by omega)]
  · rename_i none_
    exact ⟨clean, fun s at_ => by rw [none_] at at_; cases at_⟩

/-! ## The loop -/

/-- The flags that `f_write` changes. -/
abbrev faWritten : BYTE := faDirty ||| faModified

theorem written_disjoint {b : BYTE} (h : b &&& faWritten = 0) : b &&& faDirty = 0 ∧ b &&& faModified = 0 := by
  rw [BitVec.and_or_distrib_left] at h
  exact BitVec.or_eq_zero_iff.1 h

/-- What the loop of `f_write` does that takes `n` bytes. -/
structure LoopWrote (fp : FIL Name) (bytes : List BYTE) (s : Snap Name) (res : FRESULT)
    (fp' : FIL Name) (n : Nat) (t : Snap Name) : Prop where
  like : fp.Like faWritten fp'
  clusters : fp.clusters ≤ fp'.clusters
  touches : Touches fp.name s.vol t.vol
  framed : ∀ i < fp.fptr, t.vol.data fp.name i = s.vol.data fp.name i ∨
    t.vol.data fp.name i = fp.bytes s.vol i
  le : n ≤ bytes.length
  modified : fp'.has faModified = if res = .ok then true else fp.has faModified
  torn : res = .ok → Torn fp.name t.log → Torn fp.name s.log
  whole : res = .ok → n = bytes.length → Full fp.name t.log → Full fp.name s.log
  short : res = .ok → n < bytes.length → Full fp.name t.log ∧ fp.clusters * fp.bcs ≤ fp.fptr + n
  err : res = .ok → fp'.err = fp.err
  fptr : res = .ok → fp'.fptr = fp.fptr + n
  objsize : res = .ok → fp'.objsize = max fp.objsize (fp.fptr + n)
  seen : res = .ok → ∀ i < max fp.objsize (fp.fptr + n),
    fp'.bytes t.vol i = put (fp.bytes s.vol) fp.fptr (bytes.take n) i
  sound : res = .ok → fp'.Sound t.vol
  late : res = .ok → bytes.length < ss → fp.Late →
    fp'.Late ∧ (fp.has faDirty = true ∨ 0 < n → fp'.has faDirty = true) ∧
    ∀ i, (fp.fptr + n - 1) / ss * ss ≤ i → t.vol.data fp.name i = s.vol.data fp.name i

theorem FIL.Sound.set_modified {v : Volume Name} (h : fp.Sound v) : (fp.set faModified).Sound v := by
  have dirty : (fp.set faModified).has faDirty = fp.has faDirty := FIL.has_set_other (by decide)
  exact ⟨h.entry, h.roomy, fun clean => h.clean (dirty ▸ clean), fun d => h.dirty (dirty ▸ d), h.here⟩

theorem FIL.bytes_set_modified (fp : FIL Name) (v : Volume Name) :
    (fp.set faModified).bytes v = fp.bytes v := by
  have dirty : (fp.set faModified).has faDirty = fp.has faDirty := FIL.has_set_other (by decide)
  funext i
  unfold FIL.bytes FIL.view
  rw [dirty]
  rfl

/-- The loop ends where no bytes are left, or the disk is full. -/
theorem LoopWrote.done (h : fp.Sound s.vol) (within : fp.fptr ≤ fp.objsize)
    (touches : Touches fp.name s.vol t.vol) (data : t.vol.data fp.name = s.vol.data fp.name)
    (torn : Torn fp.name t.log → Torn fp.name s.log)
    (none_ : bytes = [] → Full fp.name t.log → Full fp.name s.log)
    (some_ : bytes ≠ [] → Full fp.name t.log ∧ fp.clusters * fp.bcs ≤ fp.fptr) :
    LoopWrote fp bytes s .ok (fp.set faModified) 0 t where
  like := (fp.like_set faModified).wider fun _ disjoint => (written_disjoint disjoint).2
  clusters := Nat.le_refl _
  touches := touches
  framed i _ := .inl (congrFun data i)
  le := Nat.zero_le _
  modified := fp.has_set_modified
  torn _ := torn
  whole _ all := none_ (List.length_eq_zero_iff.1 all.symm)
  short _ some := some_ (List.length_pos_iff.1 some)
  err _ := rfl
  fptr _ := rfl
  objsize _ := (Nat.max_eq_left within).symm
  seen _ i _ := by
    have same : fp.bytes t.vol = fp.bytes s.vol := congrArg fp.view data
    rw [FIL.bytes_set_modified, same]
    exact (congrFun (put_nil _ _) i).symm
  sound _ := (h.frame (touches.isSome h.entry) data).set_modified
  late _ _ late := by
    have dirty : (fp.set faModified).has faDirty = fp.has faDirty := FIL.has_set_other (by decide)
    refine ⟨fun d => late (dirty ▸ d), fun d => ?_, fun i _ => congrFun data i⟩
    rw [dirty]
    exact d.resolve_right (Nat.lt_irrefl 0)

/-- A turn that fails ends the loop. -/
theorem LoopWrote.stop {res : FRESULT} (bad : res ≠ .ok) (same : fp.Rebuffered fp')
    (clusters : fp.clusters ≤ fp'.clusters) (touches : Touches fp.name s.vol t.vol)
    (framed : ∀ i < fp.fptr, t.vol.data fp.name i = s.vol.data fp.name i ∨
      t.vol.data fp.name i = fp.bytes s.vol i) : LoopWrote fp bytes s res (fp'.abort res) 0 t where
  like := ⟨same.name, same.attached, same.csize, fun b disjoint => same.modes b (written_disjoint disjoint).1⟩
  clusters := clusters
  touches := touches
  framed := framed
  le := Nat.zero_le _
  modified := by
    rw [if_neg bad]
    exact same.modes faModified (by decide)
  torn ok := absurd ok bad
  whole ok := absurd ok bad
  short ok := absurd ok bad
  err ok := absurd ok bad
  fptr ok := absurd ok bad
  objsize ok := absurd ok bad
  seen ok := absurd ok bad
  sound ok := absurd ok bad
  late ok := absurd ok bad

/-- The file object for the next turn. -/
def FIL.advanced (fp : FIL Name) (n : Nat) : FIL Name :=
  { fp with fptr := fp.fptr + n, objsize := max (fp.fptr + n) fp.objsize }

/-- A turn, and then the rest of the loop. -/
theorem Took.then {fp₁ : FIL Name} {n m : Nat} {u : Snap Name} {res : FRESULT}
    (within : fp.fptr ≤ fp.objsize) (took : Took fp bytes s fp₁ n t)
    (loop : LoopWrote (fp₁.advanced n) (bytes.drop n) t res fp' m u) :
    LoopWrote fp bytes s res fp' (n + m) u := by
  have name : (fp₁.advanced n).name = fp.name := took.same.name
  have fptr : (fp₁.advanced n).fptr = fp.fptr + n := congrArg (· + n) took.same.fptr
  have objsize : (fp₁.advanced n).objsize = max fp.objsize (fp.fptr + n) := by
    unfold FIL.advanced
    dsimp only
    rw [took.same.fptr, took.same.objsize, Nat.max_comm]
  have positive := took.some_
  have le := took.le
  have rest := loop.le
  rw [List.length_drop] at rest
  have like : fp.Like faWritten (fp₁.advanced n) :=
    ⟨name, took.same.attached, took.same.csize, fun b d => took.same.modes b (written_disjoint d).1⟩
  have seen : ∀ i < max fp.objsize (fp.fptr + n), (fp₁.advanced n).bytes t.vol i =
      put (fp.bytes s.vol) fp.fptr (bytes.take n) i := took.seen
  refine
    { like := like.trans loop.like
      clusters := Nat.le_trans took.clusters loop.clusters
      touches := took.touches.trans (name ▸ loop.touches)
      framed := fun i below => ?_
      le := by omega
      modified := ?_
      torn := fun ok torn => took.calm.2 (name ▸ loop.torn ok (name ▸ torn))
      whole := fun ok all full => ?_
      short := fun ok less => ?_
      err := fun ok => (loop.err ok).trans took.same.err
      fptr := fun ok => by rw [loop.fptr ok, fptr, Nat.add_assoc]
      objsize := fun ok => by rw [loop.objsize ok, objsize, fptr]; omega
      seen := fun ok i lt => ?_
      sound := loop.sound
      late := fun ok small late => ?_ }
  · have first := took.framed i below
    have after := loop.framed i (by omega)
    rw [name, seen i (by omega), put_before _ _ below] at after
    rcases after with after | after
    · rwa [after]
    · exact .inr after
  · have unchanged : (fp₁.advanced n).has faModified = fp.has faModified := took.same.modes _ (by decide)
    rw [loop.modified, unchanged]
  · have rest_ : m = (bytes.drop n).length := by
      rw [List.length_drop]
      omega
    exact took.calm.1 (name ▸ loop.whole ok rest_ (name ▸ full))
  · have less_ : m < (bytes.drop n).length := by
      rw [List.length_drop]
      omega
    obtain ⟨full, end_⟩ := loop.short ok less_
    rw [fptr, like.bcs] at end_
    have grown : fp.clusters * fp.bcs ≤ (fp₁.advanced n).clusters * fp.bcs :=
      Nat.mul_le_mul_right _ took.clusters
    exact ⟨name ▸ full, by omega⟩
  · have length : (bytes.take n).length = n := by
      rw [List.length_take]
      omega
    rw [loop.seen ok i (by rw [objsize, fptr]; omega), fptr, List.take_add, ← put_append, length]
    refine put_congr _ fun outside => seen i ?_
    rw [List.length_take, List.length_drop] at outside
    omega
  · obtain ⟨dirty, sect, untouched⟩ := took.small small
    have late₁ : (fp₁.advanced n).Late := by
      intro _
      rw [fptr]
      exact ⟨by omega, sect⟩
    obtain ⟨late', dirty', same⟩ := loop.late ok (by rw [List.length_drop]; omega) late₁
    refine ⟨late', fun _ => dirty' (.inl dirty), fun i above => ?_⟩
    rw [name, fptr, Nat.add_assoc] at same
    rw [same i above]
    refine untouched late i ?_
    unfold ss at *
    omega

theorem refill_same (fp : FIL Name) (piece : List BYTE) (count : Nat) :
    fp.Rebuffered (refill fp piece count) ∧ (refill fp piece count).clusters = fp.clusters := by
  unfold refill
  split
  · split
    · exact ⟨((FIL.Rebuffered.refl fp).buffer _ _).trans (.clear _), rfl⟩
    · exact ⟨.refl fp, rfl⟩
  · exact ⟨.refl fp, rfl⟩

variable [DecidableEq Name]

theorem wp_writeSectors (ready : Ready fp s fp' t) (top : fp.fptr % ss = 0)
    (sectors : bytes.length / ss ≠ 0) : (writeSectors fp' bytes).wp (rules G)
      (fun r u => TurnWrote fp bytes s r.1 r.2.1 r.2.2 u) t := by
  unfold writeSectors
  dsimp only
  generalize counted : cc fp' bytes.length = count
  have positive : 0 < count := counted ▸ cc_pos ready.sound.roomy sectors
  have length : (bytes.take (count * ss)).length = count * ss := by
    rw [List.length_take]
    exact Nat.min_eq_left (counted ▸ cc_le fp' bytes.length)
  rw [wp_bind, wp_diskWrite]
  intro a _
  have wrote (bs : List BYTE) :
      (t.vol.writeData fp'.name fp'.fptr bs).data fp.name = put (fp.bytes s.vol) fp.fptr bs := by
    have entry := ready.sound.entry
    rw [ready.same.name] at entry
    rw [ready.same.name, ready.same.fptr, data_writeData entry, ready.data]
  have touches (bs : List BYTE) : Touches fp.name s.vol (t.vol.writeData fp'.name fp'.fptr bs) :=
    ready.touches.trans (ready.same.name ▸ touches_writeData _ _ _ _)
  cases a with
  | some k =>
    refine .failed (by simp) ready.same (touches _) ready.clusters fun i below => .inr ?_
    simp only [Option.elim_some, Snap.withVol_vol, wrote]
    exact put_before _ _ below
  | none =>
    obtain ⟨same, chain⟩ := refill_same fp' (bytes.take (count * ss)) count
    have loaded : ∀ s', fp'.sect = some s' → ∀ i < ss, fp'.buf i = t.vol.data fp'.name (s' * ss + i) :=
      ready.sound.clean ready.clean
    obtain ⟨clean, coherent⟩ := refill_clean ready.clean loaded (ready.same.fptr ▸ top) length
    simp only [Option.isNone_none, if_true, Option.elim_none]
    generalize refill fp' (bytes.take (count * ss)) count = fp₁ at *
    have renewed := ready.same.trans same
    rw [length]
    have data := wrote (bytes.take (count * ss))
    refine .took ⟨renewed, chain ▸ ready.clusters, touches _, fun i below => .inr ?_,
      ready.calm.trans (.cons (by simp) (by simp)), Nat.mul_pos positive (by decide),
      counted ▸ cc_le fp' bytes.length, fun i _ => ?_, ?_, fun small => ?_⟩
    · rw [Snap.withVol_vol, data]
      exact put_before _ _ below
    · rw [FIL.bytes_clean clean, renewed.name, Snap.withVol_vol, data]
    · have entry : ((t.vol.writeData fp'.name fp'.fptr (bytes.take (count * ss))).node fp₁.name).isSome := by
        rw [same.name]
        exact (touches_writeData _ _ _ _).isSome ready.sound.entry
      refine ⟨entry, same.csize ▸ ready.sound.roomy, fun _ s' at_ i lt => ?_,
        fun dirty => absurd dirty (by simpa [FIL.has] using clean), fun inside => absurd ?_ inside⟩
      · rw [Snap.withVol_vol, renewed.name, data]
        have held := coherent s' at_ i lt
        rw [ready.same.name, ready.data, ready.same.fptr] at held
        exact held
      · dsimp only
        rw [Nat.add_mul_mod_self_right, top]
    · exact absurd (Nat.div_eq_of_lt small) sectors

theorem Linked.longer (h : fp.Sound s.vol) (vol : t.vol = s.vol.stretch fp.name)
    (calm : Calm fp.name s.log t.log) : Linked fp s { fp with clusters := fp.clusters + 1 } t := by
  have touches : Touches fp.name s.vol t.vol := vol ▸ touches_stretch _ _
  have data : t.vol.data fp.name = s.vol.data fp.name := vol ▸ data_stretch _ _
  have sound : fp.Sound t.vol := h.frame (touches.isSome h.entry) data
  refine ⟨⟨rfl, rfl, rfl, rfl, rfl, rfl, fun _ _ => rfl⟩, Nat.le_succ _, touches, calm, data, ?_,
    ⟨sound.entry, sound.roomy, sound.clean, sound.dirty, sound.here⟩⟩
  exact congrArg fp.view data

theorem wp_writeTurn (h : fp.Sound s.vol) (within : fp.fptr ≤ fp.objsize) (more : bytes ≠ []) :
    (writeTurn fp bytes).wp (rules G) (fun r t => TurnWrote fp bytes s r.1 r.2.1 r.2.2 t) s := by
  unfold writeTurn
  split
  · rename_i off
    have at_ := h.here off
    refine .took (.buffer (.refl fp) (Nat.le_refl _) (.refl _ _) (fun _ _ => .inl rfl) (.refl _ _) h
      within more at_ (fun j lt _ => (h.buffered at_ lt).symm) (fun i other => ?_) fun _ _ _ => rfl)
    refine (FIL.view_other ?_).symm
    rw [at_]
    exact fun same => other (Option.some.inj same).symm
  rename_i boundary
  have top : fp.fptr % ss = 0 := by simpa using boundary
  have link : (if fp.fptr / ss % fp.csize = 0 then stretchCluster fp else pure (some .ok, fp)).wp
      (rules G) (fun r t => Stretched G fp s r.1 r.2 t) s := by
    split
    · exact wp_stretchCluster fp s
    · exact .within (.refl _ _) rfl (.refl _ _)
  rw [wp_bind]
  apply wp_mono link
  rintro ⟨res, fp₁⟩ t₁ stretched
  have linked : res = some .ok → Linked fp s fp₁ t₁ := by
    intro ok
    cases stretched with
    | within touches data calm => exact .within h touches data calm
    | longer _ vol calm => exact .longer h vol calm
    | full => cases ok
    | failed bad => exact absurd (Option.some.inj ok) bad
  dsimp only
  split
  · rename_i bad
    cases stretched with
    | within | longer => exact absurd rfl bad
    | full end_ touches data log => exact .full end_ touches data log
    | failed wrong touches data =>
      exact .failed wrong (.refl _) touches (Nat.le_refl _) fun i _ => .inl (congrFun data i)
  rename_i fine
  replace linked := linked (by simpa using fine)
  have name := linked.same.name
  rw [wp_bind]
  apply wp_mono (wp_writeBack linked.sound.entry linked.sound.dirty)
  rintro ⟨res, fp₂⟩ t₂ back
  dsimp only
  split
  · rename_i bad
    refine .failed bad (linked.same.trans back.same) (linked.touches.trans (name ▸ back.touches))
      (back.clusters ▸ linked.clusters) fun i _ => ?_
    have framed := back.framed i
    rwa [name, linked.data, linked.bytes] at framed
  rename_i fine
  have ready : Ready fp s fp₂ t₂ := linked.ready back (by simpa using fine)
  split
  · exact wp_writeSectors ready top ‹_›
  have whole := Nat.div_add_mod' fp.fptr ss
  rw [top, Nat.add_zero] at whole
  have name₂ := ready.same.name
  have bytes₂ : fp₂.bytes t₂.vol = fp.bytes s.vol := by rw [FIL.bytes_clean ready.clean, name₂, ready.data]
  have place : fp₂.fptr / ss = fp.fptr / ss := by rw [ready.same.fptr]
  rw [wp_bind]
  split
  · apply wp_fill
    · intro _
      have loaded : Took fp bytes s _ _ _ := (ready.read true).buffer h top within more
        (fun i => t₂.vol.data fp₂.name (fp₂.fptr / ss * ss + i)) fun j _ _ => by
          rw [place, whole, name₂, ready.data]
      rw [← place] at loaded
      exact .took loaded
    · intro _
      exact .failed (by simp) ready.same ready.touches ready.clusters fun i _ =>
        .inr (by rw [Snap.logged_vol, ready.data])
  · rename_i kept
    have filled : Took fp bytes s _ _ _ := ready.buffer h top within more fp₂.buf fun j lt inside => by
      have at_ : fp₂.sect = some (fp.fptr / ss) := by
        by_contra other
        refine kept ⟨place.symm ▸ other, ?_⟩
        rw [ready.same.fptr, ready.same.objsize]
        omega
      have held := ready.sound.buffered at_ lt
      rw [whole, bytes₂] at held
      exact held.symm
    rw [← place] at filled
    exact .took filled

theorem wp_writeLoop (turns : Nat) (h : fp.Sound s.vol) (within : fp.fptr ≤ fp.objsize)
    (enough : bytes.length ≤ turns) (bw : Nat) :
    (writeLoop turns fp bytes bw).wp (rules G) (fun r t => ∃ n, r.2.2 = bw + n ∧
      LoopWrote fp bytes s r.1 r.2.1 n t) s := by
  induction turns generalizing fp bytes bw s with
  | zero =>
    have none_ : bytes = [] := List.length_eq_zero_iff.1 (by omega)
    exact ⟨0, rfl, .done h within (.refl _ _) rfl id (fun _ full => full) fun some_ => absurd none_ some_⟩
  | succ turns ih =>
    unfold writeLoop
    split
    · rename_i none_
      exact ⟨0, rfl, .done h within (.refl _ _) rfl id (fun _ full => full) fun some_ => absurd none_ some_⟩
    rename_i more
    rw [wp_bind]
    apply wp_mono (wp_writeTurn h within more)
    rintro ⟨res, fp₁, n⟩ t (turn : TurnWrote fp bytes s res fp₁ n t)
    cases turn with
    | full end_ touches data log =>
      refine ⟨0, rfl, .done h within touches data ?_ (fun none_ => absurd none_ more) fun _ => ⟨?_, end_⟩⟩
      · rintro ⟨count, k, mem⟩
        rw [log] at mem
        exact ⟨count, k, (List.mem_cons.1 mem).resolve_left (by simp)⟩
      · rw [Full, log]
        exact List.mem_cons_self
    | @failed res _ _ bad same touches clusters framed =>
      have stop : LoopWrote _ bytes s _ _ 0 _ := .stop bad same clusters touches framed
      cases res with
      | ok => exact absurd rfl bad
      | _ => exact ⟨0, rfl, stop⟩
    | took took =>
      have fptr := took.same.fptr
      have inside : (fp₁.advanced n).fptr ≤ (fp₁.advanced n).objsize := Nat.le_max_left _ _
      have sound : (fp₁.advanced n).Sound t.vol := by
        have moved := took.sound
        rw [← fptr] at moved
        exact ⟨moved.entry, moved.roomy, moved.clean, moved.dirty, moved.here⟩
      have positive := took.some_
      apply wp_mono (ih sound inside (by rw [List.length_drop]; omega) (bw + n))
      rintro ⟨res, fp', all⟩ u ⟨m, same, loop⟩
      exact ⟨n + m, by rw [same, Nat.add_assoc], took.then within loop⟩

/-- How `f_write` ends: with an error before it begins, or with the loop for the bytes, or
as many as the length of a file allows. -/
inductive WriteEnd (fp : FIL Name) (bytes : List BYTE) (s : Snap Name) :
    FRESULT → FIL Name → Nat → Snap Name → Prop
  | refused {res : FRESULT} {t : Snap Name} (bad : res ≠ .ok) (vol : t.vol = s.vol) :
      WriteEnd fp bytes s res fp 0 (t.logged (.returned .write fp.name res 0))
  | looped {res : FRESULT} {fp' : FIL Name} {n : Nat} {t u : Snap Name} (vol : t.vol = s.vol)
      (calm : Calm fp.name s.log t.log) (err : fp.err = .ok)
      (loop : LoopWrote fp (if fp.fptr + bytes.length < 2 ^ 32 then bytes
        else bytes.take (0xFFFFFFFF - fp.fptr)) t res fp' n u) :
      WriteEnd fp bytes s res fp' n (u.logged (.returned .write fp.name res n))

theorem wp_fWrite (h : fp.Sound s.vol) (within : fp.fptr ≤ fp.objsize) :
    (fWrite fp bytes).wp (rules G) (fun r t => WriteEnd fp bytes s r.1 r.2.1 r.2.2 t) s := by
  unfold fWrite
  rw [wp_noted, wp_bind]
  apply wp_mono (wp_check fp)
  intro res t checked
  split
  · rename_i bad
    exact .refused bad checked.vol
  rename_i fine
  obtain ⟨attached, err⟩ := checked.valid (by simpa using fine)
  split
  · exact .refused (by simp) checked.vol
  · have sound : fp.Sound t.vol := by rwa [checked.vol]
    have calm : Calm fp.name s.log t.log := by
      rcases checked.log with log | ⟨a, log⟩
      · rw [log]
        exact .refl _ _
      · rw [log]
        exact .cons (by simp) (by simp)
    apply wp_mono (wp_writeLoop _ sound within (Nat.le_refl _) 0)
    rintro ⟨res, fp', n⟩ u ⟨m, same, loop⟩
    rw [Nat.zero_add] at same
    cases same
    exact .looped checked.vol calm err loop

end FatFsParticle.Files
