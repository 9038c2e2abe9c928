import FatFsParticle.Files.Cache

/-!
# Opening

`f_open` in a mode that does not empty the file: either it fails and no file changed, or
the file was there, or is there now and empty, and the file object is sound.
-/

namespace FatFsParticle.Files
open Interact Program Cells Volume

variable {Name : Type} {G : Answers Name} {fp fp' : FIL Name} {s t : Snap Name} {n : Name}
  {mode : BYTE} {f : Node}

/-- The file, however often it is open, and whatever the disk has of its entry. -/
def Node.unlocked (f : Node) : Node :=
  { f.enter with ctr := 0 }

/-- Only the counter of `n` may differ, and what the disk has of its entry. -/
structure Volume.Locks (n : Name) (v v' : Volume Name) : Prop where
  csize : v'.csize = v.csize
  node : ∀ m, (v'.node m).map Node.unlocked = (v.node m).map Node.unlocked
  others : ∀ m, m ≠ n → v'.node m = v.node m

namespace Volume.Locks

variable {v v' v'' : Volume Name}

theorem refl (n : Name) (v : Volume Name) : Locks n v v := ⟨rfl, fun _ => rfl, fun _ _ => rfl⟩

theorem trans (h : Locks n v v') (h' : Locks n v' v'') : Locks n v v'' where
  csize := h'.csize.trans h.csize
  node m := (h'.node m).trans (h.node m)
  others m other := (h'.others m other).trans (h.others m other)

/-- What is the same of a file on both sides. -/
theorem same (h : Locks n v v') {α : Type} (g : Node → α) (ctr : ∀ f, g f.unlocked = g f) (m : Name) :
    (v'.node m).map g = (v.node m).map g := by
  have both := congrArg (Option.map g) (h.node m)
  simpa only [Option.map_map, Function.comp_def, ctr] using both

theorem isSome (h : Locks n v v') (m : Name) : (v'.node m).isSome = (v.node m).isSome := by
  have both := congrArg Option.isSome (h.node m)
  simpa using both

theorem data (h : Locks n v v') {m : Name} (there : v.node m = some f) : v'.data m = f.data := by
  have both := h.same Node.data (fun _ => rfl) m
  rw [there] at both
  obtain ⟨f', at_, eq⟩ := Option.map_eq_some_iff.1 both
  rw [data_some at_, eq]

end Volume.Locks

/-- A file that differs in its counter only has the same bytes. -/
theorem data_unlocked {v v' : Volume Name} {m : Name} (there : (v.node m).isSome)
    (same : (v'.node m).map Node.unlocked = (v.node m).map Node.unlocked) :
    (v'.node m).isSome ∧ v'.data m = v.data m := by
  obtain ⟨f, at_⟩ := Option.isSome_iff_exists.1 there
  rw [at_] at same
  obtain ⟨f', at', eq⟩ := Option.map_eq_some_iff.1 same
  have data : f'.unlocked.data = f.unlocked.data := congrArg Node.data eq
  rw [data_some at_, data_some at', at']
  exact ⟨rfl, data⟩

theorem Volume.Locks.size {v v' : Volume Name} (h : Locks n v v') : v'.size n = v.size n := by
  have both := h.same (fun f => f.size.toNat) (fun _ => rfl) n
  cases at_ : v.node n with
  | none =>
    rw [at_] at both
    rw [size_none at_, size_none (Option.map_eq_none_iff.1 both)]
  | some f =>
    rw [at_] at both
    obtain ⟨f', at', size⟩ := Option.map_eq_some_iff.1 both
    rw [size_some at_, size_some at', size]

variable [DecidableEq Name]

theorem setNode_self {v : Volume Name} (there : v.node n = some f) : v.setNode n f = v := by
  unfold Volume.setNode
  rw [← there, Function.update_eq_self]

theorem locks_setNode {v : Volume Name} {f' : Node} (there : v.node n = some f)
    (same : f'.unlocked = f.unlocked) (e : Nat) : Locks n v { v.setNode n f' with entries := e } := by
  refine ⟨rfl, fun m => ?_, fun m other => node_setNode_ne v f' other⟩
  by_cases here : m = n
  · subst here
    show Option.map _ ((v.setNode m f').node m) = _
    rw [node_setNode, there]
    exact congrArg some same
  · show Option.map _ ((v.setNode n f').node m) = _
    rw [node_setNode_ne v f' here]

theorem locks_decLock (v : Volume Name) (n : Name) : Locks n v (decLock v n) := by
  unfold decLock
  split
  · exact .refl n v
  · rename_i f there
    apply locks_setNode there
    rfl

theorem covered_decLock (v : Volume Name) (n : Name) : (decLock v n).covered n = v.covered n := by
  unfold decLock
  split
  · rfl
  · rename_i f there
    rw [covered_some there]
    show Option.bind ((v.setNode n _).node n) Node.covered = f.covered
    rw [node_setNode]
    rfl

theorem enter_none {v : Volume Name} (missing : v.node n = none) : v.enter n = v := by
  unfold enter
  rw [missing]

theorem node_enter {v : Volume Name} (there : v.node n = some f) :
    (v.enter n).node n = some f.enter := by
  unfold enter
  rw [there]
  exact node_setNode v n _

theorem covered_enter {v : Volume Name} (there : (v.node n).isSome) :
    (v.enter n).covered n = some (v.size n) := by
  obtain ⟨f, at_⟩ := Option.isSome_iff_exists.1 there
  rw [covered_some (node_enter at_), size_some at_, Node.enter_covered]

theorem locks_enter (v : Volume Name) (n : Name) : Locks n v (v.enter n) := by
  unfold enter
  split
  · rename_i f there
    have same : f.enter.unlocked = f.unlocked := rfl
    exact locks_setNode there same v.entries
  · exact .refl n v

/-- What `inc_lock` does where it succeeds. -/
theorem incLock_some {v v' : Volume Name} {acc : Bool} (there : v.node n = some f)
    (h : incLock v n f acc = some v') :
    Locks n v v' ∧ v'.ctr n ≠ 0 ∧ v'.covered n = v.covered n := by
  unfold incLock at h
  split at h
  · cases h
  split at h
  · cases h
  cases h
  refine ⟨?_, ?_, ?_⟩
  · apply locks_setNode there
    rfl
  · unfold Volume.ctr
    show (Option.elim ((v.setNode n _).node n) 0 Node.ctr) ≠ 0
    rw [node_setNode]
    cases acc <;> simp
  · rw [covered_some there]
    unfold Volume.covered
    show Option.bind ((v.setNode n _).node n) Node.covered = f.covered
    rw [node_setNode]
    rfl

/-- The lock that `chk_lock` allows can be had. -/
theorem incLock_free {v : Volume Name} {acc : Bool} (there : v.node n = some f)
    (h : chkLock v n acc = .ok) : (incLock v n f acc).isSome ∧ (acc = true → v.ctr n = 0) := by
  have ctr : v.ctr n = f.ctr := by
    unfold Volume.ctr
    rw [there]
    rfl
  unfold chkLock at h
  rw [ctr] at h
  unfold incLock
  split at h
  · rename_i free
    split at h
    · rename_i room
      rw [if_neg (by omega), if_neg (by simp [free])]
      exact ⟨rfl, fun _ => ctr.trans free⟩
    · cases h
  · rename_i busy
    split at h
    · cases h
    · rename_i shared
      have reader : acc = false := by
        cases acc
        · rfl
        · simp at shared
      subst reader
      rw [if_neg (by simp [busy]), if_neg (by simp)]
      exact ⟨rfl, fun no => nomatch no⟩

/-- A mode that may make a file. -/
def creates (mode : BYTE) : Prop := mode &&& (faCreateAlways ||| faOpenAlways ||| faCreateNew) ≠ 0

/-- A mode that empties no file. -/
structure Keeping (mode : BYTE) : Prop where
  plain : mode &&& 0x3F = mode
  keeps : mode &&& (faCreateAlways ||| faCreateNew) = 0

theorem Keeping.always (h : Keeping mode) : mode &&& faCreateAlways = 0 := by
  have both := h.keeps
  rw [BitVec.and_or_distrib_left] at both
  exact (BitVec.or_eq_zero_iff.1 both).1

theorem Keeping.new_ (h : Keeping mode) : mode &&& faCreateNew = 0 := by
  have both := h.keeps
  rw [BitVec.and_or_distrib_left] at both
  exact (BitVec.or_eq_zero_iff.1 both).2

theorem wp_dirRegister {Q : FRESULT → Snap Name → Prop} (failed : ∀ r t, r ≠ .ok → t.vol = s.vol → Q r t)
    (made : ∀ t, t.vol = s.vol.setNode n (.created s.vol.scrap) → Q .ok t) :
    (dirRegister n).wp (rules G) Q s := by
  unfold dirRegister
  rw [wp_bind]
  apply (wp_ask _ _ _ _).2
  intro r _
  split
  · rw [wp_bind, wp_store]
    exact made _ rfl
  · exact failed _ _ ‹_› rfl

theorem wp_createOrOpen (keeping : Keeping mode) {res : FRESULT}
    (there : res = .ok → (s.vol.node n).isSome) {Q : FRESULT × BYTE → Snap Name → Prop}
    (failed : ∀ r m t, r ≠ .ok → t.vol = s.vol → Q (r, m) t)
    (kept : ∀ f, s.vol.node n = some f → res = .ok → Q (.ok, mode) s)
    (made : ∀ t, creates mode → res = .noFile → s.vol.entries < fsLock →
      t.vol = s.vol.setNode n (.created s.vol.scrap) → Q (.ok, mode ||| faCreateAlways) t) :
    (createOrOpen n mode res).wp (rules G) Q s := by
  unfold createOrOpen
  rw [wp_bind, wp_load]
  split
  · rename_i making
    split
    · rename_i bad
      rw [wp_bind]
      split
      · split
        · rename_i missing room
          apply wp_dirRegister
          · exact fun r t => failed r _ t
          · exact fun t => made t making missing (by simpa [enqLock] using room)
        · exact failed _ _ _ (by simp) rfl
      · exact failed _ _ _ bad rfl
    rename_i fine
    have ok : res = .ok := by simpa using fine
    obtain ⟨f, at_⟩ := Option.isSome_iff_exists.1 (there ok)
    simp only [at_]
    split
    · exact failed _ _ _ (by simp) rfl
    rw [if_neg (not_not_intro keeping.new_), if_neg (not_not_intro keeping.always)]
    exact kept f at_ ok
  split
  · rename_i bad
    exact failed _ _ _ bad rfl
  rename_i fine
  have ok : res = .ok := by simpa using fine
  obtain ⟨f, at_⟩ := Option.isSome_iff_exists.1 (there ok)
  simp only [at_]
  split
  · exact failed _ _ _ (by simp) rfl
  split
  · exact failed _ _ _ (by simp) rfl
  · exact kept f at_ ok

omit [DecidableEq Name] in
theorem wp_followChain (n : Name) (k : Nat) {Q : FRESULT → Snap Name → Prop}
    (h : ∀ r t, t.vol = s.vol → Q r t) : (followChain n k).wp (rules G) Q s := by
  induction k generalizing s with
  | zero => exact h _ _ rfl
  | succ k ih =>
    unfold followChain
    rw [wp_bind]
    apply (wp_ask _ _ _ _).2
    intro a _
    cases a with
    | none => exact ih fun r t vol => h r t vol
    | some f => exact h _ _ rfl

/-- Nothing is buffered yet. -/
structure FIL.Blank (fp : FIL Name) : Prop where
  fptr : fp.fptr = 0
  sect : fp.sect = none
  clean : fp.has faDirty = false

/-- Where the file pointer of a file object stands that was just opened. -/
def FIL.start (fp : FIL Name) : Nat := if fp.has faSeekend then fp.objsize else 0

omit [DecidableEq Name] in
theorem wp_seekEnd (blank : fp.Blank) (sound : fp.Sound s.vol) :
    (seekEnd fp).wp (rules G) (fun r t => t.vol = s.vol ∧ (fp.objsize = 0 → r.1 = .ok) ∧
      (r.1 = .ok → ∃ sect buf, r.2 = { fp with fptr := fp.start, sect := sect, buf := buf } ∧
        r.2.Sound t.vol)) s := by
  have sought {sect : Option Nat} {buf : Nat → BYTE} (at_ : ∀ i, sect = some i → ∀ j < ss,
      buf j = s.vol.data fp.name (i * ss + j))
      (here : fp.start % ss ≠ 0 → sect = some (fp.start / ss)) :
      ({ fp with fptr := fp.start, sect := sect, buf := buf } : FIL Name).Sound s.vol :=
    ⟨sound.entry, sound.roomy, fun _ => at_, fun d => absurd d (by simpa [FIL.has] using blank.clean), here⟩
  unfold seekEnd
  split
  · rename_i seeks
    have start : fp.start = fp.objsize := if_pos seeks.1
    rw [start] at sought ⊢
    have some_ : fp.objsize ≠ 0 := by omega
    rw [wp_bind]
    apply wp_followChain
    intro res t vol
    split
    · rename_i bad
      exact ⟨vol, fun none_ => absurd none_ some_, fun ok => absurd ok bad⟩
    split
    · rename_i top
      refine ⟨vol, fun _ => rfl, fun _ => ⟨fp.sect, fp.buf, rfl, vol ▸ sought ?_ fun off => absurd top off⟩⟩
      rw [blank.sect]
      intro i no
      cases no
    split
    · refine ⟨vol, fun none_ => absurd none_ some_, ?_⟩
      intro no
      cases no
    rw [wp_bind]
    apply (wp_ask _ _ _ _).2
    intro read _
    rw [wp_bind, wp_load]
    cases read with
    | false =>
      refine ⟨vol, fun none_ => absurd none_ some_, ?_⟩
      intro no
      cases no
    | true =>
      refine ⟨vol, fun _ => rfl, fun _ => ⟨_, _, rfl, ?_⟩⟩
      show FIL.Sound _ t.vol
      rw [vol]
      refine sought ?_ fun _ => rfl
      intro i at_ j _
      cases Option.some.inj at_
      exact congrArg (fun v : Volume Name => v.data fp.name _) vol
  · rename_i stays
    have start : fp.start = fp.fptr := by
      unfold FIL.start
      rw [blank.fptr]
      split
      · rename_i seeks
        exact Nat.eq_zero_of_not_pos fun some_ => stays ⟨seeks, some_⟩
      · rfl
    refine ⟨rfl, fun _ => rfl, fun _ => ⟨fp.sect, fp.buf, ?_, sound⟩⟩
    rw [start]

/-- A file that was opened: it was there, or was made. -/
structure Opened (n : Name) (mode : BYTE) (v : Volume Name) (f : Node) (fp : FIL Name)
    (v' : Volume Name) : Prop where
  locks : Locks n (v.setNode n f) v'
  found : v.node n = some f ∧ fp.flag = mode ∨
    v.node n = none ∧ f = .created v.scrap ∧ fp.flag = mode ||| faCreateAlways ||| faModified ∧
      creates mode
  free : wantsWrite mode = true → v.ctr n = 0
  busy : v'.ctr n ≠ 0
  name : fp.name = n
  attached : fp.attached = true
  err : fp.err = .ok
  csize : fp.csize = v.csize n
  objsize : fp.objsize = f.size.toNat
  clusters : fp.clusters = f.clusters
  fptr : fp.fptr = fp.start
  clean : fp.has faDirty = false
  sound : fp.Sound v'

theorem Opened.covered {v v' : Volume Name} (o : Opened n mode v f fp v') : v.covered n = f.covered := by
  obtain ⟨found, -⟩ | ⟨missing, new_, -⟩ := o.found
  · exact covered_some found
  · rw [covered_none missing, new_]
    rfl

theorem Opened.size {v v' : Volume Name} (o : Opened n mode v f fp v') : v.size n = f.size.toNat := by
  obtain ⟨found, -⟩ | ⟨missing, new_, -⟩ := o.found
  · exact size_some found
  · rw [size_none missing, new_]
    rfl

/-- How `f_open` ends. -/
inductive OpenEnd (n : Name) (mode : BYTE) (s : Snap Name) : FRESULT → FIL Name → Snap Name → Prop
  | failed {res : FRESULT} {fp : FIL Name} {t : Snap Name} (bad : res ≠ .ok)
      (locks : Locks n s.vol t.vol) (held : s.vol.ctr n ≠ 0 → t.vol.ctr n ≠ 0) :
      OpenEnd n mode s res fp (t.logged (.returned .open_ n res 0))
  | opened {f : Node} {fp : FIL Name} {t : Snap Name} (opened : Opened n mode s.vol f fp t.vol) :
      OpenEnd n mode s .ok fp (t.logged (.returned .open_ n .ok 0))

/-- From the entry on that was found or made. -/
theorem wp_opened {m : BYTE} {f : Node} {v : Volume Name} (at_ : t.vol.node n = some f)
    (vol : t.vol = v.setNode n f)
    (found : v.node n = some f ∧ m = mode ∨
      v.node n = none ∧ f = .created v.scrap ∧ m = mode ||| faCreateAlways ||| faModified ∧
        creates mode)
    (plain : m &&& faDirty = 0) (free : wantsWrite mode = true → v.ctr n = 0)
    {w : Volume Name} (locked : Locks n t.vol w) (busy : w.ctr n ≠ 0)
    {Q : FRESULT × FIL Name → Snap Name → Prop}
    (failed : ∀ r fp u, r ≠ .ok → u.vol = w → f.size ≠ 0 → Q (r, fp) u)
    (opened : ∀ fp u, u.vol = w → Opened n mode v f fp w → Q (.ok, fp) u) :
    (seekEnd (.opened n (t.vol.csize n) f m) >>= fun r =>
      pure (r.1, if r.1 ≠ .ok then { r.2 with attached := false } else r.2)).wp (rules G) Q
        (t.withVol w) := by
  have blank : (FIL.opened n (t.vol.csize n) f m).Blank := by
    refine ⟨rfl, rfl, ?_⟩
    show (m &&& faDirty != 0) = false
    rw [plain]
    rfl
  have entry : (w.node n).isSome := by
    rw [locked.isSome, at_]
    rfl
  have sound : (FIL.opened n (t.vol.csize n) f m).Sound w :=
    ⟨entry, t.vol.csize_pos n, (fun _ _ no => nomatch no),
      fun d => absurd d (by rw [blank.clean]; decide), fun off => absurd rfl off⟩
  rw [wp_bind]
  apply wp_mono (wp_seekEnd blank sound)
  rintro ⟨res, fp⟩ u ⟨same, none_, ok⟩
  cases res with
  | ok =>
    obtain ⟨sect, buf, rfl, sound'⟩ := ok rfl
    refine opened _ u same ?_
    rw [vol] at locked
    rw [show u.vol = w from same] at sound'
    refine ⟨locked, found, free, busy, rfl, rfl, rfl, ?_, rfl, rfl, rfl, blank.clean, sound'⟩
    rw [vol]
    rfl
  | _ =>
    apply failed _ _ u (by simp) same
    intro zero
    have size : f.size.toNat = 0 := by rw [zero]; rfl
    cases none_ size

/-- An entry that was in the window before the open is opened as it is. -/
theorem Opened.of_enter {v v' : Volume Name} (o : Opened n mode (v.enter n) f fp v') :
    ∃ f', Opened n mode v f' fp v' := by
  cases at_ : v.node n with
  | none =>
    rw [enter_none at_] at o
    exact ⟨f, o⟩
  | some g =>
    obtain ⟨found, flag⟩ | ⟨missing, -⟩ := o.found
    · have locks := o.locks
      rw [setNode_self found] at locks
      rw [node_enter at_] at found
      cases found
      have free := o.free
      have csize := o.csize
      rw [(touches_enter v n).ctr] at free
      rw [(touches_enter v n).csize] at csize
      refine ⟨g, ?_, .inl ⟨at_, flag⟩, free, o.busy, o.name, o.attached, o.err, csize, o.objsize,
        o.clusters, o.fptr, o.clean, o.sound⟩
      rw [setNode_self at_]
      exact (locks_enter v n).trans locks
    · rw [node_enter at_] at missing
      cases missing

theorem OpenEnd.of_moved {s' u : Snap Name} {res : FRESULT} (h : OpenEnd n mode u res fp t)
    (moved : MovedOn n s' u) (same : s'.vol = s.vol) : OpenEnd n mode s res fp t := by
  have vol : u.vol = s.vol ∨ u.vol = s.vol.enter n := by
    rw [← same]
    cases moved with
    | idle => exact .inl rfl
    | kept => exact .inl rfl
    | written => exact .inr rfl
  cases h with
  | failed bad locks held =>
    rcases vol with vol | vol
    · rw [vol] at locks held
      exact .failed bad locks held
    · rw [vol] at locks held
      rw [(touches_enter _ n).ctr] at held
      exact .failed bad ((locks_enter _ _).trans locks) held
  | opened o =>
    rcases vol with vol | vol
    · rw [vol] at o
      exact .opened o
    · rw [vol] at o
      obtain ⟨f', o'⟩ := o.of_enter
      exact .opened o'

/-- `f_open` from where the path was followed: it writes no entry to the disk. -/
theorem wp_openFound (keeping : Keeping mode) {path : FRESULT} (led : path ≠ .noFile) :
    (openFound n mode path).wp (rules G) (fun r t =>
      OpenEnd n mode s r.1 r.2 (t.logged (.returned .open_ n r.1 0)) ∧
        t.vol.covered n = s.vol.covered n) s := by
  unfold openFound
  rw [wp_bind, wp_load, wp_bind]
  generalize found : (if path ≠ .ok then path
    else if (s.vol.node n).isNone then .noFile else chkLock s.vol n (wantsWrite mode)) = res
  have there : res = .ok → (s.vol.node n).isSome ∧ chkLock s.vol n (wantsWrite mode) = .ok := by
    intro ok
    rw [ok] at found
    split at found
    · contradiction
    split at found
    · cases found
    · rename_i some_
      exact ⟨by simpa [Option.isSome_iff_ne_none] using some_, found⟩
  have missing : res = .noFile → s.vol.node n = none := by
    intro no
    rw [no] at found
    split at found
    · exact absurd found led
    split at found
    · simpa using ‹(s.vol.node n).isNone = true›
    · unfold chkLock at found
      split at found
      · split at found <;> cases found
      · split at found <;> cases found
  refine wp_createOrOpen keeping (fun ok => (there ok).1) ?_ ?_ ?_
  · intro r m t bad vol
    dsimp only
    rw [if_pos bad]
    exact ⟨.failed bad (by rw [vol]; exact .refl _ _) (by rw [vol]; exact id), by rw [vol]⟩
  · intro f at_ ok
    obtain ⟨locked, free⟩ := incLock_free at_ (there ok).2
    obtain ⟨w, inc⟩ := Option.isSome_iff_exists.1 locked
    obtain ⟨locks, busy, same⟩ := incLock_some at_ inc
    dsimp only
    rw [if_neg (by simp), if_neg (not_not_intro keeping.always), wp_bind, wp_load]
    simp only [at_, inc]
    rw [wp_bind, wp_store]
    have self : s.vol = s.vol.setNode n f := (setNode_self at_).symm
    have clean : mode &&& faDirty = 0 := by
      rw [← keeping.plain, BitVec.and_assoc]
      simp
    have rest := wp_opened (G := G) at_ self (.inl ⟨at_, rfl⟩) clean free locks busy
      (Q := fun r t => OpenEnd n mode s r.1 r.2 (t.logged (.returned .open_ n r.1 0)) ∧
        t.vol.covered n = s.vol.covered n)
      (fun r fp t bad vol _ => ⟨.failed bad (vol ▸ locks) (fun _ => vol ▸ busy), vol ▸ same⟩)
      (fun fp t vol opened => ⟨.opened (vol ▸ opened), vol ▸ same⟩)
    exact rest
  · intro t making no room vol
    have none_ := missing no
    have at_ : t.vol.node n = some (.created s.vol.scrap) := by
      rw [vol]
      exact node_setNode _ _ _
    have create : (mode ||| faCreateAlways) &&& faCreateAlways ≠ 0 := by
      rw [BitVec.and_or_distrib_right, BitVec.and_self]
      intro zero
      cases (BitVec.or_eq_zero_iff.1 zero).2
    have entries : t.vol.entries = s.vol.entries := by rw [vol]; rfl
    have inc : ∃ w, incLock t.vol n (.created s.vol.scrap)
        (wantsWrite (mode ||| faCreateAlways ||| faModified)) = some w := by
      unfold incLock
      rw [if_neg (by rw [entries]; omega), if_neg (fun both => both.2 rfl)]
      exact ⟨_, rfl⟩
    obtain ⟨w, inc⟩ := inc
    obtain ⟨locks, busy, same⟩ := incLock_some at_ inc
    have same : w.covered n = s.vol.covered n := by
      rw [same, covered_some at_, covered_none none_]
      rfl
    dsimp only
    rw [if_neg (by simp), if_pos create, wp_bind, wp_load]
    simp only [at_, inc]
    rw [wp_bind, wp_store]
    have clean : (mode ||| faCreateAlways ||| faModified) &&& faDirty = 0 := by
      have plain : mode &&& faDirty = 0 := by
        rw [← keeping.plain, BitVec.and_assoc]
        simp
      rw [BitVec.and_or_distrib_right, BitVec.and_or_distrib_right, plain]
      decide
    have free : wantsWrite mode = true → s.vol.ctr n = 0 := by
      intro _
      unfold Volume.ctr
      rw [none_]
      rfl
    exact wp_opened at_ vol (.inr ⟨none_, rfl, rfl, making⟩) clean free locks busy
      (Q := fun r t => OpenEnd n mode s r.1 r.2 (t.logged (.returned .open_ n r.1 0)) ∧
        t.vol.covered n = s.vol.covered n)
      (fun r fp t _ _ some_ => absurd rfl some_)
      (fun fp t vol opened => ⟨.opened (vol ▸ opened), vol ▸ same⟩)

theorem wp_fOpen (keeping : Keeping mode) :
    (fOpen n mode).wp (rules G) (fun r t => OpenEnd n mode s r.1 r.2 t) s := by
  unfold fOpen
  rw [wp_noted, keeping.plain, wp_bind]
  apply (wp_ask _ _ _ _).2
  intro r _
  split
  · exact .failed ‹_› (.refl _ _) id
  rw [wp_bind]
  apply (wp_ask _ _ _ _).2
  intro path _
  rw [wp_bind]
  apply wp_mono (wp_moveOn n _)
  intro _ u moved
  apply wp_mono (wp_openFound keeping path.2)
  intro r t found
  exact found.1.of_moved moved rfl

end FatFsParticle.Files
