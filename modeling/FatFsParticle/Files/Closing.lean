import FatFsParticle.Files.Writing
import FatFsParticle.Files.Opening
import FatFsParticle.Files.Footprint

/-!
# Closing

What `f_sync` and `f_close` leave of a file: the disk as it was, where there is nothing to
record or the object is no longer valid; or what was seen through the file object, and
the directory entry as it was, or with the new length, which may be in the window only.
-/

namespace FatFsParticle.Files
open Interact Program Cells Volume

variable {Name : Type} {G : Answers Name} {fp fp' : FIL Name} {s t u : Snap Name} {n : Name}
  {res : FRESULT} {log : List (Event Name)}

/-- The directory entry of `n` was written. -/
def Recorded (n : Name) (log : List (Event Name)) : Prop :=
  ∃ a, a ≠ some false ∧ .answered (.syncFs n) a ∈ log

/-- The last sector of `n` was written before the directory entry. -/
def Flushed (n : Name) (log : List (Event Name)) : Prop :=
  (∃ b, .answered (.moveWindow n) b ∈ log) ∨
    ∃ count k, .answered (.diskWrite n count) (some (k + 1)) ∈ log

/-- An event that is no sign of closing. -/
def Event.Idle (n : Name) (e : Event Name) : Prop :=
  (∀ a, e ≠ .answered (.syncFs n) a) ∧ (∀ b, e ≠ .answered (.moveWindow n) b) ∧
    ∀ count k, e ≠ .answered (.diskWrite n count) (some (k + 1))

theorem recorded_cons {e : Event Name} (h : Recorded n (e :: log))
    (idle : ∀ a, a ≠ some false → e ≠ .answered (.syncFs n) a) : Recorded n log := by
  obtain ⟨a, wrote, mem⟩ := h
  exact ⟨a, wrote, (List.mem_cons.1 mem).resolve_left fun eq => idle a wrote eq.symm⟩

theorem flushed_cons {e : Event Name} (h : Flushed n (e :: log)) (idle : e.Idle n) : Flushed n log := by
  rcases h with ⟨b, mem⟩ | ⟨count, k, mem⟩
  · exact .inl ⟨b, (List.mem_cons.1 mem).resolve_left fun eq => idle.2.1 b eq.symm⟩
  · exact .inr ⟨count, k, (List.mem_cons.1 mem).resolve_left fun eq => idle.2.2 count k eq.symm⟩

theorem Recorded.cons (h : Recorded n log) (e : Event Name) : Recorded n (e :: log) := by
  obtain ⟨a, wrote, mem⟩ := h
  exact ⟨a, wrote, List.mem_cons_of_mem e mem⟩

theorem Flushed.cons (h : Flushed n log) (e : Event Name) : Flushed n (e :: log) := by
  rcases h with ⟨b, mem⟩ | ⟨count, k, mem⟩
  · exact .inl ⟨b, List.mem_cons_of_mem e mem⟩
  · exact .inr ⟨count, k, List.mem_cons_of_mem e mem⟩

theorem returned_idle (c : Call) (m : Name) (res : FRESULT) (count : Nat) :
    (Event.returned c m res count).Idle n :=
  ⟨fun _ => nofun, fun _ => nofun, fun _ _ => nofun⟩

theorem validate_idle (m : Name) (r : FRESULT) : (Event.answered (.validate m) r).Idle n :=
  ⟨fun _ => nofun, fun _ => nofun, fun _ _ => nofun⟩

/-! ## What is stored -/

variable {v v' : Volume Name} {f : Node} {m : Name}

theorem Volume.Touches.contents (h : Touches n v v') (there : v.node n = some f) :
    v'.contents n = some (slice (v'.data n) 0 f.size.toNat) := by
  obtain ⟨f', there', size⟩ := h.entry f there
  unfold Volume.contents Node.contents
  rw [there', data_some there', Option.map_some, size]

theorem stored_eq {k : Nat} (h : v.covered n = some k) : v.stored n = some (slice (v.data n) 0 k) := by
  unfold Volume.stored
  rw [h]
  rfl

theorem Volume.Locks.keeps_data (h : Locks n v v') (there : (v.node m).isSome) : v'.data m = v.data m :=
  (data_unlocked there (h.node m)).2

theorem Volume.Locks.contents (h : Locks n v v') (m : Name) : v'.contents m = v.contents m :=
  h.same Node.contents (fun _ => rfl) m

/-! ## What closing does -/

variable [DecidableEq Name]

theorem isSome_record (there : (v.node n).isSome) (size clusters : Nat) :
    ((v.record n size clusters).node n).isSome := by
  obtain ⟨f, at_⟩ := Option.isSome_iff_exists.1 there
  unfold Volume.record
  simp only [at_]
  rw [node_setNode]
  rfl

theorem data_record (v : Volume Name) (n : Name) (size clusters : Nat) :
    (v.record n size clusters).data n = v.data n := by
  unfold Volume.record
  split
  · rename_i f there
    rw [data_some (node_setNode v n _), data_some there]
  · rfl

theorem ctr_record (v : Volume Name) (n : Name) (size clusters : Nat) :
    (v.record n size clusters).ctr n = v.ctr n := by
  unfold Volume.record
  split
  · rename_i f there
    rw [ctr_some (node_setNode v n _), ctr_some there]
  · rfl

theorem size_record (there : (v.node n).isSome) (size clusters : Nat) :
    (v.record n size clusters).size n = size % 2 ^ 32 := by
  obtain ⟨f, at_⟩ := Option.isSome_iff_exists.1 there
  unfold Volume.record
  simp only [at_]
  rw [size_some (node_setNode v n _), BitVec.toNat_ofNat]

/-- A longer file in the window is no longer on the disk. -/
theorem covered_record (v : Volume Name) (n : Name) (size clusters : Nat) :
    (v.record n size clusters).covered n = (v.covered n).map (min (size % 2 ^ 32)) := by
  unfold Volume.record
  split
  · rename_i f there
    rw [covered_some (node_setNode v n _), covered_some there, ← BitVec.toNat_ofNat]
    rfl
  · rename_i missing
    rw [covered_none missing]
    rfl

/-- What `f_sync` or `f_close` leaves, with the result `res`. -/
inductive Stored (fp : FIL Name) (s : Snap Name) (res : FRESULT) (t : Snap Name) : Prop
  | kept {v : Volume Name} (touches : Touches fp.name s.vol v)
      (data : v.data fp.name = s.vol.data fp.name) (locks : Locks fp.name v t.vol)
      (disk : t.vol.covered fp.name = s.vol.covered fp.name)
      (recorded : Recorded fp.name t.log → Recorded fp.name s.log)
      (flushed : Flushed fp.name t.log → Flushed fp.name s.log)
      (clean : res = .ok → fp.has faModified = false)
  | flushed {v : Volume Name} (touches : Touches fp.name s.vol v)
      (data : v.data fp.name = fp.bytes s.vol) (locks : Locks fp.name v t.vol)
      (disk : t.vol.covered fp.name = s.vol.covered fp.name)
      (recorded : Recorded fp.name t.log → Recorded fp.name s.log)
      (flushed : Flushed fp.name t.log) (bad : res ≠ .ok)
  | lost {v : Volume Name} (touches : Touches fp.name s.vol v)
      (data : v.data fp.name = fp.bytes s.vol)
      (locks : Locks fp.name (v.record fp.name fp.objsize fp.clusters) t.vol)
      (disk : t.vol.covered fp.name = (s.vol.covered fp.name).map (min (fp.objsize % 2 ^ 32)))
      (recorded : Recorded fp.name t.log → Recorded fp.name s.log)
      (flushed : Flushed fp.name t.log) (bad : res ≠ .ok)
  | recorded {v : Volume Name} (touches : Touches fp.name s.vol v)
      (data : v.data fp.name = fp.bytes s.vol)
      (locks : Locks fp.name (v.record fp.name fp.objsize fp.clusters) t.vol)
      (disk : t.vol.covered fp.name = some (fp.objsize % 2 ^ 32))
      (recorded : Recorded fp.name t.log)

/-- One more event that is no sign, and maybe a lock released. -/
theorem Stored.step {res' : FRESULT} {e : Event Name} {v : Volume Name} (h : Stored fp s res t)
    (idle : e.Idle fp.name) (locks : Locks fp.name t.vol v)
    (disk : v.covered fp.name = t.vol.covered fp.name) (ok : res' = .ok → res = .ok) :
    Stored fp s res' ((t.logged e).withVol v) := by
  cases h with
  | kept touches data before same recorded flushed clean =>
    exact .kept touches data (before.trans locks) (disk.trans same)
      (fun h => recorded (recorded_cons h fun a _ => idle.1 a)) (fun h => flushed (flushed_cons h idle))
      fun fine => clean (ok fine)
  | flushed touches data before same recorded flushed bad =>
    exact .flushed touches data (before.trans locks) (disk.trans same)
      (fun h => recorded (recorded_cons h fun a _ => idle.1 a)) (flushed.cons e) fun fine => bad (ok fine)
  | lost touches data before same recorded flushed bad =>
    exact .lost touches data (before.trans locks) (disk.trans same)
      (fun h => recorded (recorded_cons h fun a _ => idle.1 a)) (flushed.cons e) fun fine => bad (ok fine)
  | recorded touches data before same recorded =>
    exact .recorded touches data (before.trans locks) (disk.trans same) (recorded.cons e)

theorem Stored.logged {e : Event Name} (h : Stored fp s res t) (idle : e.Idle fp.name) :
    Stored fp s res (t.logged e) :=
  h.step idle (.refl _ t.vol) rfl id

/-- Where nothing was written. -/
theorem Stored.untouched (vol : t.vol = s.vol) (recorded : Recorded fp.name t.log → Recorded fp.name s.log)
    (flushed : Flushed fp.name t.log → Flushed fp.name s.log)
    (clean : res = .ok → fp.has faModified = false) : Stored fp s res t :=
  .kept (.refl _ _) rfl (by rw [vol]; exact .refl _ _) (by rw [vol]) recorded flushed clean

/-- What `f_sync` leaves after the last sector was written or was clean. -/
theorem wp_syncEntry (same : fp.Rebuffered fp') (clusters : fp'.clusters = fp.clusters)
    (touches : Touches fp.name s.vol t.vol) (data : t.vol.data fp.name = fp.bytes s.vol)
    (disk : t.vol.covered fp.name = s.vol.covered fp.name) (there : (s.vol.node fp.name).isSome)
    (recorded : Recorded fp.name t.log → Recorded fp.name s.log) :
    (syncEntry fp').wp (rules G) (fun r u => Stored fp s r.1 u ∧ r.2.name = fp.name) t := by
  have name := same.name
  unfold syncEntry
  rw [wp_bind]
  apply (wp_ask _ _ _ _).2
  intro moved _
  rw [name]
  have flushed : Flushed fp.name (.answered (.moveWindow fp.name) moved :: t.log) :=
    .inl ⟨moved, List.mem_cons_self⟩
  cases moved with
  | false =>
    refine ⟨.flushed touches data (.refl _ _) disk (fun h => recorded (recorded_cons h fun _ _ => nofun))
      flushed (fun no => nomatch no), name⟩
  | true =>
    rw [if_neg (by simp), wp_bind, wp_store, wp_bind]
    apply (wp_ask _ _ _ _).2
    intro a _
    rw [wp_bind, wp_store, wp_pure]
    refine ⟨?_, name⟩
    rw [same.objsize, clusters]
    have there' := touches.isSome there
    have noted : (t.vol.record fp.name fp.objsize fp.clusters).covered fp.name =
        (s.vol.covered fp.name).map (min (fp.objsize % 2 ^ 32)) := by
      rw [covered_record, disk]
    by_cases lost : a = some false
    · subst lost
      have quiet (h : Recorded fp.name (.answered (.syncFs fp.name) (some false) ::
          .answered (.moveWindow fp.name) true :: t.log)) : Recorded fp.name t.log := by
        refine recorded_cons (recorded_cons h fun a wrote eq => ?_) fun _ _ => nofun
        cases eq
        exact wrote rfl
      rw [if_pos rfl]
      exact .lost touches data (.refl _ _) noted (fun h => recorded (quiet h)) (flushed.cons _)
        fun no => nomatch no
    · have entered : Recorded fp.name (.answered (.syncFs fp.name) a ::
          .answered (.moveWindow fp.name) true :: t.log) := ⟨a, lost, List.mem_cons_self⟩
      rw [if_neg lost]
      refine .recorded touches data (locks_enter _ _) ?_ entered
      exact (covered_enter (isSome_record there' _ _)).trans (congrArg some (size_record there' _ _))

/-- `f_sync` of a file object that is sound, or has nothing to record. -/
theorem wp_fSync (h : fp.has faModified = true → fp.Sound s.vol) :
    (fSync fp).wp (rules G) (fun r t => Stored fp s r.1 t ∧ r.2.name = fp.name) s := by
  unfold fSync
  rw [wp_noted, wp_bind]
  apply wp_validate
  · intro _
    have refused : Stored fp s .invalidObject s := .untouched rfl id id fun no => nomatch no
    exact ⟨refused.logged (returned_idle _ _ _ _), rfl⟩
  intro _ r _
  have checked (clean : r = .ok → fp.has faModified = false) :
      Stored fp s r (s.logged (.answered (.validate fp.name) r)) :=
    .untouched rfl (fun h => recorded_cons h fun _ _ => nofun) (fun h => flushed_cons h (validate_idle _ _))
      clean
  split
  · rename_i bad
    exact ⟨(checked fun ok => absurd ok bad).logged (returned_idle _ _ _ _), rfl⟩
  rename_i fine
  have ok : r = .ok := by simpa using fine
  subst ok
  split
  · rename_i unmodified
    have clean : fp.has faModified = false := by simpa using unmodified
    exact ⟨(checked fun _ => clean).logged (returned_idle _ _ _ _), rfl⟩
  rename_i modified
  have sound := h (by simpa using modified)
  rw [wp_bind]
  apply wp_mono (wp_writeBack (G := G) (s := s.logged _) sound.entry sound.dirty)
  rintro ⟨res, fp₁⟩ t back
  have entry (ok : res = .ok) (recorded : Recorded fp.name t.log → Recorded fp.name s.log) :
      (syncEntry fp₁).wp (rules G) (fun a u => Stored fp s a.1
        (u.logged (.returned .sync fp.name a.1 0)) ∧ a.2.name = fp.name) t := by
    apply wp_mono (wp_syncEntry (s := s) back.same back.clusters back.touches (back.data ok).1 back.disk
      sound.entry recorded)
    rintro a u ⟨stored, name⟩
    exact ⟨stored.logged (returned_idle _ _ _ _), name⟩
  have quiet {e : Event Name} (h : Recorded fp.name (e :: .answered (.validate fp.name) .ok :: s.log))
      (idle : ∀ a, e ≠ .answered (.syncFs fp.name) a) : Recorded fp.name s.log :=
    recorded_cons (recorded_cons h fun a _ => idle a) fun _ _ => nofun
  cases back with
  | nothing => exact entry rfl fun h => recorded_cons h fun _ _ => nofun
  | done => exact entry rfl fun h => quiet h fun _ => nofun
  | @failed v k _ touches data disk =>
    have torn : Stored fp s .diskErr (((s.logged (.answered (.validate fp.name) .ok)).logged
        (.answered (.diskWrite fp.name 1) (some k))).withVol v) := by
      cases k with
      | zero =>
        refine .kept touches data (.refl _ _) disk (fun h => quiet h fun _ => nofun) (fun h => ?_)
          fun no => nomatch no
        exact flushed_cons (flushed_cons h ⟨fun _ => nofun, fun _ => nofun, fun _ _ => nofun⟩)
          (validate_idle _ _)
      | succ k =>
        exact .flushed touches data (.refl _ _) disk (fun h => quiet h fun _ => nofun)
          (.inr ⟨1, k, List.mem_cons_self⟩) fun no => nomatch no
    exact ⟨torn.logged (returned_idle _ _ _ _), rfl⟩

/-- `f_close` of a file object that is sound, or has nothing to record. -/
theorem wp_fClose (h : fp.has faModified = true → fp.Sound s.vol) :
    (fClose fp).wp (rules G) (fun r t => Stored fp s r.1 t) s := by
  unfold fClose
  rw [wp_noted, wp_bind]
  apply wp_mono (wp_fSync h)
  rintro ⟨res, fp₁⟩ t ⟨stored, name⟩
  dsimp only at stored name ⊢
  split
  · exact stored.logged (returned_idle _ _ _ _)
  rename_i fine
  have ok : res = .ok := by simpa using fine
  subst ok
  rw [wp_bind]
  apply wp_validate
  · intro _
    have refused : Stored fp s .invalidObject (t.logged (.returned .close fp.name .invalidObject 0)) :=
      stored.step (returned_idle _ _ _ _) (.refl _ _) rfl fun no => nomatch no
    exact refused
  intro _ r _
  have checked := stored.logged (validate_idle fp.name r)
  rw [← name] at checked
  split
  · rename_i bad
    exact checked.step (returned_idle _ _ _ _) (.refl _ _) rfl fun _ => rfl
  · have locks (v : Volume Name) : Locks fp.name v (decLock v fp₁.name) := by
      rw [name]
      exact locks_decLock v fp.name
    have disk (v : Volume Name) : (decLock v fp₁.name).covered fp.name = v.covered fp.name := by
      rw [name]
      exact covered_decLock v fp.name
    rw [wp_bind, wp_store, wp_pure]
    exact checked.step (returned_idle .close fp.name .ok 0) (locks _) (disk _) id

/-! ## Closing without a look at the bytes -/

/-- The calls that closing adds. -/
theorem wp_fClose_calls (fp : FIL Name) (s : Snap Name) : (fClose fp).wp (rules G) (fun r t =>
    ∃ synced, calls t.log = (.close, fp.name, r.1, 0) :: (.sync, fp.name, synced, 0) :: calls s.log) s := by
  unfold fClose
  rw [wp_noted, wp_bind]
  apply wp_mono (fSync_calls fp s)
  rintro ⟨res, fp₁⟩ t ⟨-, synced⟩
  have rest : Emits Event.Answer (fun _ => True) (if res ≠ .ok then pure (res, fp₁) else do
      let res ← validate fp₁
      if res ≠ .ok then pure (res, fp₁)
      else do
        store fun v => decLock v fp₁.name
        pure (.ok, { fp₁ with attached := false })) := by
    split
    · exact trivial
    apply emits_bind (validate_emits (fun _ _ _ => trivial) rfl)
    intro res' _
    split
    · exact trivial
    · exact ⟨trivial, fun _ => trivial⟩
  apply wp_mono (rest.wp t)
  rintro r u ⟨-, adds⟩
  exact ⟨res, by rw [Snap.logged_log, calls_returned, adds.same_calls, synced]⟩

/-- What the disk has after closing, where there were no signs of closing before. -/
theorem Stored.stored (h : Stored fp s res t) (there : s.vol.node fp.name = some f)
    (objsize : fp.objsize < 2 ^ 32) (grown : f.size.toNat ≤ fp.objsize)
    (recorded : ¬Recorded fp.name s.log) (flushed : ¬Flushed fp.name s.log) :
    ¬Recorded fp.name t.log ∧ ¬Flushed fp.name t.log ∧
        t.vol.stored fp.name = (s.vol.covered fp.name).map (slice (s.vol.data fp.name) 0) ∨
      ¬Recorded fp.name t.log ∧ Flushed fp.name t.log ∧
        t.vol.stored fp.name = (s.vol.covered fp.name).map (slice (fp.bytes s.vol) 0) ∨
      Recorded fp.name t.log ∧ t.vol.stored fp.name = some (slice (fp.bytes s.vol) 0 fp.objsize) := by
  have some_ : (s.vol.node fp.name).isSome := by rw [there]; rfl
  cases h with
  | kept touches data locks disk recorded' flushed' =>
    refine .inl ⟨fun h => recorded (recorded' h), fun h => flushed (flushed' h), ?_⟩
    unfold Volume.stored
    rw [disk, locks.keeps_data (touches.isSome some_), data]
  | flushed touches data locks disk recorded' flushed' =>
    refine .inr (.inl ⟨fun h => recorded (recorded' h), flushed', ?_⟩)
    unfold Volume.stored
    rw [disk, locks.keeps_data (touches.isSome some_), data]
  | lost touches data locks disk recorded' flushed' =>
    refine .inr (.inl ⟨fun h => recorded (recorded' h), flushed', ?_⟩)
    unfold Volume.stored
    rw [disk, locks.keeps_data (isSome_record (touches.isSome some_) _ _), data_record, data, Option.map_map]
    apply Option.map_congr
    intro k covers
    have le : k ≤ f.size.toNat := Node.covered_le ((covered_some there).symm.trans covers)
    rw [Function.comp_apply, Nat.mod_eq_of_lt objsize, Nat.min_eq_right (Nat.le_trans le grown)]
  | recorded touches data locks disk recorded' =>
    refine .inr (.inr ⟨recorded', ?_⟩)
    rw [stored_eq disk, locks.keeps_data (isSome_record (touches.isSome some_) _ _), data_record, data,
      Nat.mod_eq_of_lt objsize]

/-- How much the disk has after closing; and what, if it succeeds. -/
theorem Stored.length (h : Stored fp s res t) (there : s.vol.node fp.name = some f)
    (objsize : fp.objsize < 2 ^ 32) :
    (∀ k, t.vol.covered fp.name = some k → k ≤ max f.size.toNat fp.objsize) ∧
    (res = .ok → fp.has faModified = true →
      t.vol.stored fp.name = some (slice (fp.bytes s.vol) 0 fp.objsize)) := by
  have before {k : Nat} (covers : s.vol.covered fp.name = some k) : k ≤ max f.size.toNat fp.objsize :=
    Nat.le_trans (Node.covered_le ((covered_some there).symm.trans covers)) (Nat.le_max_left _ _)
  have some_ : (s.vol.node fp.name).isSome := by rw [there]; rfl
  cases h with
  | kept touches data locks disk _ _ clean =>
    constructor
    · exact fun k covers => before (disk.symm.trans covers)
    · intro ok modified
      rw [clean ok] at modified
      cases modified
  | flushed touches data locks disk _ _ bad =>
    exact ⟨fun k covers => before (disk.symm.trans covers), fun ok => absurd ok bad⟩
  | lost touches data locks disk _ _ bad =>
    refine ⟨fun k covers => ?_, fun ok => absurd ok bad⟩
    obtain ⟨k', covers', rfl⟩ := Option.map_eq_some_iff.1 (disk.symm.trans covers)
    exact Nat.le_trans (Nat.min_le_right _ _) (before covers')
  | recorded touches data locks disk =>
    constructor
    · intro k covers
      cases disk.symm.trans covers
      rw [Nat.mod_eq_of_lt objsize]
      exact Nat.le_max_right _ _
    · intro _ _
      rw [stored_eq disk, locks.keeps_data (isSome_record (touches.isSome some_) _ _), data_record, data,
        Nat.mod_eq_of_lt objsize]

end FatFsParticle.Files
