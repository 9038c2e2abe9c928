import FatFsParticle.Files.Copy
import FatFsParticle.Sdspi.Driver

/-!
# Whether f_copy ends

The loop of `f_copy` counts the bytes that `f_read` stored. With a block size of 0 these
are none, and the loop goes on as long as no call fails; with any other it is through
after as many turns as there are bytes.
-/

namespace FatFsParticle.Files
open Interact Program Cells Volume

variable {Name : Type}

/-! ## What is claimed -/

/-- How many calls of `f_read` there were. -/
def reads (log : List (Event Name)) : Nat := (calls log).countP fun c => c.1 = .read

/-- Every turn of the loop that ended with `FR_OK` read something. -/
def Progress (log : List (Event Name)) : Prop :=
  ∀ n m c k, [(.write, m, .ok, k), (.read, n, .ok, c)] <:+: calls log → 0 < c

/-- What was opened was closed. -/
def Released (log : List (Event Name)) : Prop :=
  ∀ n k, (.open_, n, .ok, k) ∈ calls log → ∃ res k, (.close, n, res, k) ∈ calls log

structure Ended (size : Nat) (log : List (Event Name)) : Prop where
  few : reads log ≤ size
  progress : Progress log
  released : Released log

variable {log log' : List (Event Name)} {n src dst : Name}

/-- No call of the function `c` was added. -/
def Without (c : Call) (log log' : List (Event Name)) : Prop :=
  ∃ cs, calls log' = cs ++ calls log ∧ ∀ x ∈ cs, x.1 ≠ c

theorem Without.refl (c : Call) (log : List (Event Name)) : Without c log log :=
  ⟨[], rfl, fun _ no => nomatch no⟩

theorem Without.trans {c : Call} {log'' : List (Event Name)} (h : Without c log log')
    (h' : Without c log' log'') : Without c log log'' := by
  obtain ⟨cs, same, none_⟩ := h
  obtain ⟨cs', same', none_'⟩ := h'
  refine ⟨cs' ++ cs, by rw [same', same, List.append_assoc], ?_⟩
  intro x mem
  rcases List.mem_append.1 mem with mem | mem
  · exact none_' x mem
  · exact none_ x mem

theorem Without.one {c : Call} {x : Call × Name × FRESULT × Nat} (same : calls log' = x :: calls log)
    (other : x.1 ≠ c) : Without c log log' :=
  ⟨[x], same, fun _ mem => List.mem_singleton.1 mem ▸ other⟩

theorem Adds.without {c : Call} {E : Event Name → Prop} (h : Adds E log log')
    (none_ : ∀ n res k, ¬E (.returned c n res k)) : Without c log log' := by
  obtain ⟨es, rfl, only⟩ := h
  refine ⟨Files.calls es, List.filterMap_append, ?_⟩
  rintro ⟨c', n, res, k⟩ mem rfl
  exact none_ n res k (only _ (mem_calls.1 mem))

theorem Without.grows {c : Call} (h : Without c log log') {x : Call × Name × FRESULT × Nat}
    (mem : x ∈ calls log) : x ∈ calls log' := by
  obtain ⟨cs, same, -⟩ := h
  rw [same]
  exact List.mem_append_right cs mem

theorem Without.old {c : Call} (h : Without c log log') {x : Call × Name × FRESULT × Nat}
    (mem : x ∈ calls log') (mine : x.1 = c) : x ∈ calls log := by
  obtain ⟨cs, same, none_⟩ := h
  rw [same] at mem
  exact (List.mem_append.1 mem).resolve_left fun new => none_ x new mine

theorem Without.reads (h : Without .read log log') : reads log' = reads log := by
  obtain ⟨cs, same, none_⟩ := h
  unfold Files.reads
  rw [same, List.countP_append, List.countP_eq_zero.2, Nat.zero_add]
  intro c mem
  simpa using none_ c mem

/-- `total` bytes were read, in turns that each read some. -/
structure Steady (total : Nat) (log : List (Event Name)) : Prop where
  few : reads log ≤ total
  some_ : ∀ n c, (.read, n, .ok, c) ∈ calls log → 0 < c

theorem Steady.progress {total : Nat} (h : Steady total log) : Progress log := by
  intro n m c k infix_
  apply h.some_ n c
  apply infix_.subset
  simp

theorem Steady.longer {total total' : Nat} (h : Steady total log) (le : total ≤ total') :
    Steady total' log :=
  ⟨Nat.le_trans h.few le, h.some_⟩

theorem ended_unread (none_ : ∀ c ∈ calls log, c.1 ≠ .read) (released : Released log) (size : Nat) :
    Ended size log := by
  refine ⟨?_, ?_, released⟩
  · unfold reads
    rw [List.countP_eq_zero.2]
    · exact Nat.zero_le size
    · intro c mem
      simpa using none_ c mem
  · intro n m c k infix_
    exact absurd rfl (none_ (.read, n, .ok, c) (infix_.subset (by simp)))

/-- One more call of `f_read`. -/
theorem Steady.more {c total total' : Nat} {res : FRESULT} (h : Steady total log)
    (same : calls log' = (.read, n, res, c) :: calls log) (some_ : res = .ok → 0 < c)
    (less : total < total') : Steady total' log' := by
  constructor
  · have few := h.few
    unfold reads at few ⊢
    rw [same, List.countP_cons]
    simp only [decide_true, if_true]
    omega
  · intro m k mem
    rw [same] at mem
    rcases List.mem_cons.1 mem with new | old
    · cases new
      exact some_ rfl
    · exact h.some_ m k old

/-- Calls of other functions read nothing. -/
theorem Steady.other {total : Nat} (h : Steady total log) (without : Without .read log log') :
    Steady total log' := by
  constructor
  · rw [without.reads]
    exact h.few
  · intro n c mem
    exact h.some_ n c (without.old mem rfl)

/-! ## A turn -/

variable [DecidableEq Name] {σ : Type} {host : Host Name σ} {w : World Name σ} {f : Node}
  {srcf dstf : FIL Name} {total blockSize : Nat} {buf : List BYTE}

/-- The destination can be written at its file pointer. -/
structure Writable (dstf : FIL Name) (v : Volume Name) : Prop where
  sound : dstf.Sound v
  within : dstf.fptr ≤ dstf.objsize

theorem exec_read (host : Host Name σ) (source : ReadFrom f srcf total w.vol) (blockSize : Nat) : ∃ r w',
    exec host (fRead srcf blockSize) w = some (r, w') ∧ r.2.1.name = srcf.name ∧
      (r.1 = .ok → PieceRead f srcf total blockSize w.snap r.2.1 r.2.2 w'.snap) ∧
      calls w'.log = (.read, srcf.name, r.1, r.2.2.length) :: calls w.log := by
  have emits : Emits (fun _ => True) _ (fRead srcf blockSize) :=
    fRead_emits (fun _ _ _ => trivial) (fun _ _ => trivial) rfl blockSize
  obtain ⟨r, w', run, ⟨read, -⟩, name, log⟩ := exec_total emits.halts (within_anything host)
    (wp_and source.read (fRead_calls srcf blockSize w.snap))
  exact ⟨r, w', run, name, read, log⟩

omit [DecidableEq Name] in
theorem WriteEnd.writable {s t : Snap Name} {fp : FIL Name} {k : Nat}
    (h : WriteEnd dstf buf s .ok fp k t) : Writable fp t.vol ∧ Touches dstf.name s.vol t.vol := by
  cases h with
  | refused bad => exact absurd rfl bad
  | looped vol _ _ loop =>
    have within : fp.fptr ≤ fp.objsize := by
      rw [loop.fptr rfl, loop.objsize rfl]
      exact Nat.le_max_right _ _
    exact ⟨⟨loop.sound rfl, within⟩, vol ▸ loop.touches⟩

theorem exec_write (host : Host Name σ) (dest : Writable dstf w.vol) (buf : List BYTE) : ∃ r w',
    exec host (fWrite dstf buf) w = some (r, w') ∧ r.2.1.name = dstf.name ∧
      (r.1 = .ok → Writable r.2.1 w'.vol ∧ Touches dstf.name w.vol w'.vol) ∧
      calls w'.log = (.write, dstf.name, r.1, r.2.2) :: calls w.log := by
  have emits : Emits (fun _ => True) _ (fWrite dstf buf) :=
    fWrite_emits (fun _ _ _ => trivial) (fun _ _ => trivial) rfl buf
  have wrote : (fWrite dstf buf).wp (rules anything) _ w.snap := wp_fWrite dest.sound dest.within
  obtain ⟨r, w', run, end_, name, log⟩ := exec_total emits.halts (within_anything host)
    (wp_and wrote (fWrite_calls dstf buf w.snap))
  refine ⟨r, w', run, name, ?_, log⟩
  intro ok
  rw [ok] at end_
  exact end_.writable

/-! ## The loop -/

/-- How the loop ends, with any block size but 0. -/
structure LoopEnds (size : Nat) (srcf dstf : FIL Name) (log : List (Event Name))
    (r : FRESULT × FIL Name × FIL Name) (log' : List (Event Name)) : Prop where
  src : r.2.1.name = srcf.name
  dst : r.2.2.name = dstf.name
  steady : Steady size log'
  without : Without .open_ log log'

theorem copyLoop_ends (host : Host Name σ) (turns : Nat) (positive : total < f.size.toNat → 0 < blockSize) (apart : dstf.name ≠ srcf.name)
    (source : ReadFrom f srcf total w.vol) (dest : Writable dstf w.vol) (le : total ≤ f.size.toNat)
    (enough : f.size.toNat - total < turns) (steady : Steady total w.log) :
    ∃ r w', exec host (copyLoop blockSize f.size.toNat turns srcf dstf total) w = some (r, w') ∧
      LoopEnds f.size.toNat srcf dstf w.log r w'.log := by
  induction turns generalizing srcf dstf total w with
  | zero => omega
  | succ turns ih =>
    unfold copyLoop
    split
    · rename_i more
      have positive' := positive more
      obtain ⟨⟨res, srcf₁, buf⟩, w₁, run, name, read, log⟩ := exec_read host source blockSize
      dsimp only at name read log
      rw [exec_bind run]
      dsimp only
      by_cases ok : res = .ok
      · subst ok
        obtain ⟨-, touches, piece, source₁⟩ := read rfl
        have length : buf.length = min blockSize (f.size.toNat - total) := by rw [piece, length_slice]
        have dest₁ : Writable dstf w₁.vol := by
          obtain ⟨entry, data⟩ := touches.others_data apart dest.sound.entry
          exact ⟨dest.sound.frame entry data, dest.within⟩
        have steady₁ : Steady (total + buf.length) w₁.log := steady.more log (by omega) (by omega)
        obtain ⟨⟨res, dstf₁, k⟩, w₂, run₂, name₂, wrote, log₂⟩ := exec_write host dest₁ buf
        dsimp only at name₂ wrote log₂
        have steady₂ : Steady (total + buf.length) w₂.log := steady₁.other (.one log₂ (by simp))
        have without : Without .open_ w.log w₂.log :=
          (Without.one log (by simp)).trans (.one log₂ (by simp))
        rw [if_neg (by simp), exec_bind run₂]
        dsimp only
        by_cases ok : res = .ok
        · subst ok
          obtain ⟨dest₂, touches₂⟩ := wrote rfl
          have source₂ : ReadFrom f srcf₁ (total + buf.length) w₂.vol := by
            obtain ⟨entry, data⟩ := touches₂.others_data (by rw [name]; exact apart.symm) source₁.sound.entry
            exact source₁.frame entry data
          rw [if_neg (by simp)]
          obtain ⟨r, w', run', ends⟩ := ih (fun _ => positive') (by rw [name, name₂]; exact apart) source₂ dest₂ (by omega)
            (by omega) steady₂
          exact ⟨r, w', run', ends.src.trans name, ends.dst.trans name₂, ends.steady,
            without.trans ends.without⟩
        · rw [if_pos ok]
          exact ⟨_, w₂, rfl, name, name₂, steady₂.longer (by omega), without⟩
      · rw [if_pos ok]
        exact ⟨_, w₁, rfl, name, rfl, steady.more log (fun no => absurd no ok) more, .one log (by simp)⟩
    · exact ⟨(.ok, srcf, dstf), w, rfl, rfl, rfl, steady.longer le, .refl _ _⟩

/-! ## A turn that reads nothing -/

variable {fp : FIL Name}

/-- The object was opened, and no call with it has failed. -/
structure FIL.Fresh (fp : FIL Name) : Prop where
  attached : fp.attached = true
  err : fp.err = .ok

/-- What `validate` is answered. -/
abbrev World.validity (host : Host Name σ) (n : Name) (w : World Name σ) : FRESULT :=
  (host (.validate n) w.env).1

/-- The world after `validate` was answered. -/
abbrev World.validated (host : Host Name σ) (n : Name) (w : World Name σ) : World Name σ :=
  (World.handle host (.outside (.validate n)) w).2

omit [DecidableEq Name] in
theorem exec_check (fresh : fp.Fresh) :
    exec host (check fp) w = some (w.validity host fp.name, w.validated host fp.name) := by
  unfold check validate
  rw [if_pos fresh.attached, exec_bind (a := w.validity host fp.name) rfl, fresh.err]
  by_cases ok : w.validity host fp.name = .ok
  · rw [if_neg (by simpa using ok), ok]
    rfl
  · rw [if_pos ok]
    rfl

/-- `f_read` of no bytes does nothing but check. -/
theorem exec_fRead_nothing (host : Host Name σ) (w : World Name σ) (fresh : fp.Fresh) (mode : fp.has faRead = true) :
    ∃ w', exec host (fRead fp 0) w = some ((w.validity host fp.name, fp, []), w') ∧ w'.vol = w.vol ∧
      w'.env = (w.validated host fp.name).env ∧
      calls w'.log = (.read, fp.name, w.validity host fp.name, 0) :: calls w.log := by
  have inner : exec host (do
      let res ← check fp
      if res ≠ .ok then pure (res, fp, [])
      else if !fp.has faRead then pure (.denied, fp, [])
      else
        let btr := min 0 (fp.objsize - fp.fptr)
        readLoop btr fp btr []) w = some ((w.validity host fp.name, fp, []), w.validated host fp.name) := by
    rw [exec_bind (exec_check fresh)]
    by_cases ok : w.validity host fp.name = .ok
    · rw [if_neg (by simpa using ok), mode, Nat.zero_min, ok]
      rfl
    · rw [if_pos ok]
      rfl
  unfold fRead noted
  rw [exec_bind inner]
  exact ⟨_, rfl, rfl, rfl, rfl⟩

/-- `f_write` of no bytes marks the file object at most. -/
theorem exec_fWrite_nothing (host : Host Name σ) (w : World Name σ) (fresh : fp.Fresh) (mode : fp.has faWrite = true) :
    ∃ fp' w', exec host (fWrite fp []) w = some ((w.validity host fp.name, fp', 0), w') ∧
      fp'.name = fp.name ∧ calls w'.log = (.write, fp.name, w.validity host fp.name, 0) :: calls w.log := by
  have none_ : (if fp.fptr + ([] : List BYTE).length < 2 ^ 32 then ([] : List BYTE)
      else ([] : List BYTE).take (0xFFFFFFFF - fp.fptr)) = [] := by
    split
    · rfl
    · exact List.take_nil
  unfold fWrite noted
  rw [bind_assoc, exec_bind (exec_check fresh)]
  by_cases ok : w.validity host fp.name = .ok
  · rw [if_neg (by simpa using ok), mode, ok]
    simp only [none_]
    exact ⟨fp.set faModified, _, rfl, rfl, congrArg (fun r => (Call.write, fp.name, r, 0) :: calls w.log) rfl⟩
  · rw [if_pos ok]
    exact ⟨fp, _, rfl, rfl, rfl⟩

/-! ## Before the loop -/

/-- How `f_copy` comes to its loop. -/
inductive Prelude (Name : Type) where
  /-- A file could not be opened. -/
  | refused (result : FRESULT)
  /-- A driver stored a block size through the null pointer. -/
  | crashed
  | ready (srcf dstf : FIL Name) (blockSize : Nat)

/-- `f_copy` up to its loop. -/
def copyPrelude (src dst : Name) : Prog Name (Prelude Name) := do
  let (result, srcf) ← fOpen src faRead
  if result ≠ .ok then pure (.refused result)
  else do
    let (result, dstf) ← fOpen dst (faWrite ||| faOpenAlways)
    if result ≠ .ok then do
      let _ ← fClose srcf
      pure (.refused result)
    else do
      let srcBlockSize ← ioctlBlockSize srcf.name
      match srcBlockSize with
      | none => pure .crashed
      | some srcBlockSize => do
        let dstBlockSize ← ioctlBlockSize dstf.name
        match dstBlockSize with
        | none => pure .crashed
        | some dstBlockSize => pure (.ready srcf dstf (min srcBlockSize dstBlockSize))

/-- `f_copy` from its loop on. -/
def copyRest (turns : Nat) : Prelude Name → Prog Name (Option FRESULT)
  | .refused result => pure (some result)
  | .crashed => pure none
  | .ready srcf dstf blockSize => do
    let (result, srcf, dstf) ← copyLoop blockSize srcf.objsize turns srcf dstf 0
    let _ ← fClose srcf
    let _ ← fClose dstf
    pure (some result)

theorem fCopy_prelude (turns : Nat) (src dst : Name) :
    fCopy turns src dst = copyPrelude src dst >>= copyRest turns := by
  unfold fCopy copyPrelude copyOpen
  simp only [bind_assoc, bind_ite]
  congr 1
  funext r
  split
  · rfl
  congr 1
  funext r'
  split
  · rfl
  congr 1
  funext b
  cases b with
  | none => rfl
  | some b =>
    simp only [bind_assoc]
    congr 1
    funext b'
    cases b' with
    | none => rfl
    | some b' => rfl

variable {G : Answers Name} {s t : Snap Name}

theorem wp_fOpen_calls {mode : BYTE} (keeping : Keeping mode) : (fOpen n mode).wp (rules G)
    (fun r t => OpenEnd n mode s r.1 r.2 t ∧ calls t.log = (.open_, n, r.1, 0) :: calls s.log) s := by
  apply wp_mono (wp_and (wp_fOpen keeping) (fOpen_calls n mode s))
  rintro r t ⟨end_, -, log⟩
  exact ⟨end_, log⟩

/-- What closing adds. -/
def Event.Closing : Event Name → Prop
  | .answered _ _ => True
  | .returned c _ _ _ => c = .sync ∨ c = .close

/-- A file was closed. -/
structure Shut (n : Name) (log log' : List (Event Name)) : Prop where
  close : ∃ res, (.close, n, res, 0) ∈ calls log'
  others : ∀ c, c ≠ .sync → c ≠ .close → Without c log log'

theorem fClose_closing (fp : FIL Name) : Emits Event.Closing (fun r => r.2.name = fp.name) (fClose fp) :=
  fClose_emits (fun _ _ _ => trivial) (fun _ _ _ => trivial) (fun _ _ => .inl rfl) (fun _ _ => .inr rfl) rfl

theorem wp_fClose_shut (fp : FIL Name) :
    (fClose fp).wp (rules G) (fun _ t => Shut fp.name s.log t.log) s := by
  have noted : (fClose fp).wp (rules G) (fun r t => (.close, fp.name, r.1, 0) ∈ calls t.log) s := by
    unfold fClose
    rw [wp_noted]
    apply wp_any
    exact fun _ _ => List.mem_cons_self
  apply wp_mono (wp_and noted ((fClose_closing fp).wp s))
  rintro r t ⟨mem, -, adds⟩
  refine ⟨⟨r.1, mem⟩, fun c sync close => adds.without ?_⟩
  rintro n res k (same | same)
  · exact sync same
  · exact close same

/-- Both files are open, and nothing else was done. -/
structure Armed (src dst : Name) (f : Node) (srcf dstf : FIL Name) (t : Snap Name) : Prop where
  apart : dst ≠ src
  source : ReadFrom f srcf 0 t.vol
  dest : Writable dstf t.vol
  name : srcf.name = src
  name' : dstf.name = dst
  fresh : srcf.Fresh
  fresh' : dstf.Fresh
  mode : srcf.has faRead = true
  mode' : dstf.has faWrite = true
  called : calls t.log = [(.open_, dst, .ok, 0), (.open_, src, .ok, 0)]

/-- How `f_copy` comes to its loop. -/
inductive PreludeEnd (src dst : Name) (s : Snap Name) : Prelude Name → Snap Name → Prop
  | refused {result : FRESULT} {t : Snap Name} (ended : Ended 0 t.log) :
      PreludeEnd src dst s (.refused result) t
  | crashed {t : Snap Name} : PreludeEnd src dst s .crashed t
  | ready {f : Node} {srcf dstf : FIL Name} {blockSize : Nat} {t : Snap Name}
      (there : s.vol.node src = some f) (armed : Armed src dst f srcf dstf t) :
      PreludeEnd src dst s (.ready srcf dstf blockSize) t

theorem opened_writable {dst : Name} {v v' : Volume Name} {g : Node}
    (o : Opened dst (faWrite ||| faOpenAlways) v g dstf v') :
    Writable dstf v' ∧ dstf.has faWrite = true := by
  refine ⟨⟨o.sound, ?_⟩, ?_⟩
  · rw [opened_dest_fptr o]
    exact Nat.zero_le _
  · unfold FIL.has
    obtain ⟨-, flag⟩ | ⟨-, -, flag, -⟩ := o.found
    · rw [flag]
      rfl
    · rw [flag]
      rfl

theorem opened_readable {src : Name} {v v' : Volume Name} (o : Opened src faRead v f srcf v') :
    srcf.has faRead = true := by
  unfold FIL.has
  obtain ⟨-, flag⟩ | ⟨-, -, -, making⟩ := o.found
  · rw [flag]
    rfl
  · exact absurd rfl making

theorem wp_copyPrelude (fresh : s.log = []) :
    (copyPrelude src dst).wp (rules G) (PreludeEnd src dst s) s := by
  unfold copyPrelude
  rw [wp_bind]
  apply wp_mono (wp_fOpen_calls ⟨rfl, rfl⟩)
  rintro ⟨res, srcf⟩ t ⟨end_, called⟩
  rw [fresh] at called
  dsimp only at end_ called ⊢
  split
  · rename_i bad
    have only : ∀ c ∈ calls t.log, c = (.open_, src, res, 0) := by
      rw [called]
      exact fun c mem => List.mem_singleton.1 mem
    refine .refused (ended_unread (fun c mem => ?_) (fun n k mem => ?_) 0)
    · rw [only c mem]
      exact nofun
    · cases only _ mem
      exact absurd rfl bad
  cases end_ with
  | failed bad => exact absurd bad ‹_›
  | @opened f _ t o =>
  rw [wp_bind]
  apply wp_mono (wp_fOpen_calls ⟨rfl, rfl⟩)
  rintro ⟨res, dstf⟩ u ⟨end_, called'⟩
  rw [called] at called'
  dsimp only at end_ called' ⊢
  split
  · rename_i bad
    rw [wp_bind]
    apply wp_mono (wp_fClose_shut srcf)
    intro r u' shut
    have old : ∀ c ∈ calls u.log, c = (.open_, dst, res, 0) ∨ c = (.open_, src, .ok, 0) := by
      rw [called']
      exact fun c mem => List.mem_pair.1 mem
    refine .refused (ended_unread (fun c mem read => ?_) (fun n k mem => ?_) 0)
    · rcases old c ((shut.others .read nofun nofun).old mem read) with rfl | rfl
      · cases read
      · cases read
    · obtain ⟨res', close⟩ := shut.close
      rw [o.name] at close
      rcases old _ ((shut.others .open_ nofun nofun).old mem rfl) with same | same
      · cases same
        exact absurd rfl bad
      · cases same
        exact ⟨res', 0, close⟩
  cases end_ with
  | failed bad => exact absurd bad ‹_›
  | @opened g _ u o' =>
  obtain ⟨apart, source⟩ := opened_both o o'
  obtain ⟨dest, mode'⟩ := opened_writable o'
  have ready (blockSize : Nat) {t : Snap Name} (vol : t.vol = u.vol)
      (called : calls t.log = [(.open_, dst, .ok, 0), (.open_, src, .ok, 0)]) :
      PreludeEnd src dst s (.ready srcf dstf blockSize) t :=
    .ready (opened_source o).1 ⟨apart, vol ▸ source, vol ▸ dest, o.name, o'.name, ⟨o.attached, o.err⟩,
      ⟨o'.attached, o'.err⟩, opened_readable o, mode', called⟩
  rw [wp_bind]
  apply wp_ioctlBlockSize
  · exact fun _ => .crashed
  intro a _ _
  dsimp only
  rw [wp_bind]
  apply wp_ioctlBlockSize
  · exact fun _ => .crashed
  intro b _ _
  exact ready _ rfl called'

/-! ## The function -/

/-- The loop, and then both files are closed. -/
theorem exec_copyRest {turns : Nat} {srcf' dstf' : FIL Name} {res : FRESULT} {w₁ : World Name σ}
    (run : exec host (copyLoop blockSize srcf.objsize turns srcf dstf 0) w =
      some ((res, srcf', dstf'), w₁)) :
    ∃ w', exec host (copyRest turns (.ready srcf dstf blockSize)) w = some (some res, w') ∧
      Shut srcf'.name w₁.log w'.log ∧ Shut dstf'.name w₁.log w'.log := by
  obtain ⟨_, w₂, run₂, shut⟩ := exec_total (fClose_closing srcf').halts (within_anything host)
    (wp_fClose_shut (s := w₁.snap) srcf')
  obtain ⟨_, w₃, run₃, shut'⟩ := exec_total (fClose_closing dstf').halts (within_anything host)
    (wp_fClose_shut (s := w₂.snap) dstf')
  have log : Shut srcf'.name w₁.log w₂.log := shut
  have log' : Shut dstf'.name w₂.log w₃.log := shut'
  have others (c : Call) (sync : c ≠ .sync) (close : c ≠ .close) : Without c w₁.log w₃.log :=
    (log.others c sync close).trans (log'.others c sync close)
  refine ⟨w₃, ?_, ⟨?_, others⟩, ⟨log'.close, others⟩⟩
  · show exec host (copyLoop blockSize srcf.objsize turns srcf dstf 0 >>= _) w = _
    rw [exec_bind run, exec_bind run₂, exec_bind run₃]
    rfl
  · obtain ⟨res', mem⟩ := log.close
    exact ⟨res', (log'.others .open_ nofun nofun).grows mem⟩

omit [DecidableEq Name] in
/-- Both files that were opened were closed. -/
theorem released_both (opened : calls log = [(.open_, dst, .ok, 0), (.open_, src, .ok, 0)])
    (without : Without .open_ log log') (closed : ∃ res, (.close, src, res, 0) ∈ calls log')
    (closed' : ∃ res, (.close, dst, res, 0) ∈ calls log') : Released log' := by
  intro n k mem
  have old := without.old mem rfl
  rw [opened] at old
  rcases List.mem_pair.1 old with same | same
  · cases same
    obtain ⟨res, mem⟩ := closed'
    exact ⟨res, 0, mem⟩
  · cases same
    obtain ⟨res, mem⟩ := closed
    exact ⟨res, 0, mem⟩

omit [DecidableEq Name] in
theorem Armed.opens (armed : Armed src dst f srcf dstf t) : ∀ c ∈ calls t.log, c.1 = .open_ := by
  rw [armed.called]
  intro c mem
  rcases List.mem_pair.1 mem with rfl | rfl
  · rfl
  · rfl

omit [DecidableEq Name] in
theorem Armed.steady (armed : Armed src dst f srcf dstf t) : Steady 0 t.log := by
  have opens := armed.opens
  constructor
  · have none : reads t.log = 0 := by
      apply List.countP_eq_zero.2
      intro c mem
      simp [opens c mem]
    exact Nat.le_of_eq none
  · intro n c mem
    cases opens _ mem

/-- With a block size that is not 0, or nothing to read, the copy ends. -/
theorem rest_ends (host : Host Name σ) (armed : Armed src dst f srcf dstf w.snap)
    (positive : 0 < f.size.toNat → 0 < blockSize) : ∃ turns r w',
      exec host (copyRest turns (.ready srcf dstf blockSize)) w = some (some r, w') ∧
        Ended f.size.toNat w'.log := by
  have apart : dstf.name ≠ srcf.name := by
    rw [armed.name, armed.name']
    exact armed.apart
  obtain ⟨⟨res, srcf', dstf'⟩, w₁, run, ends⟩ := copyLoop_ends host (f.size.toNat + 1)
    positive apart armed.source armed.dest (Nat.zero_le _) (by omega) armed.steady
  rw [← armed.source.objsize] at run
  obtain ⟨w₂, run₂, closed, closed'⟩ := exec_copyRest run
  refine ⟨_, res, w₂, run₂, ?_⟩
  have steady := ends.steady.other (closed.others .read nofun nofun)
  refine ⟨steady.few, steady.progress, released_both armed.called
    (ends.without.trans (closed.others .open_ nofun nofun)) ?_ ?_⟩
  · rw [← armed.name, ← ends.src]
    exact closed.close
  · rw [← armed.name', ← ends.dst]
    exact closed'.close

/-- How a turn with a block size of 0 ends: with the answers to the checks of its calls. -/
def World.emptyTurn (host : Host Name σ) (src dst : Name) (w : World Name σ) : FRESULT :=
  if w.validity host src ≠ .ok then w.validity host src else (w.validated host src).validity host dst

/-- The calls of such a turn. -/
inductive TurnedEmpty (src dst : Name) (res : FRESULT) : List (Call × Name × FRESULT × Nat) → Prop
  | refused (bad : res ≠ .ok) : TurnedEmpty src dst res [(.read, src, res, 0)]
  | turned : TurnedEmpty src dst res [(.write, dst, res, 0), (.read, src, .ok, 0)]

theorem exec_emptyTurn (host : Host Name σ) (armed : Armed src dst f srcf dstf w.snap) (turns : Nat)
    (more : 0 < f.size.toNat) : ∃ dstf' w' cs, dstf'.name = dst ∧
      TurnedEmpty src dst (w.emptyTurn host src dst) cs ∧ calls w'.log = cs ++ calls w.log ∧
      exec host (copyLoop 0 srcf.objsize (turns + 1) srcf dstf 0) w =
        if w.emptyTurn host src dst ≠ .ok then some ((w.emptyTurn host src dst, srcf, dstf'), w')
        else exec host (copyLoop 0 srcf.objsize turns srcf dstf' 0) w' := by
  obtain ⟨w₁, run, vol, env, log⟩ := exec_fRead_nothing host w armed.fresh armed.mode
  rw [armed.name] at run env log
  rw [armed.source.objsize]
  unfold World.emptyTurn
  rw [copyLoop, if_pos more, exec_bind run]
  by_cases valid : w.validity host src = .ok
  · obtain ⟨dstf', w₂, run₂, name, log₂⟩ := exec_fWrite_nothing host w₁ armed.fresh' armed.mode'
    have same : w₁.validity host dst = (w.validated host src).validity host dst :=
      congrArg (fun e => (host (.validate dst) e).1) env
    rw [armed.name', same] at run₂ log₂
    rw [valid] at log
    rw [if_neg (not_not_intro valid)]
    refine ⟨dstf', w₂, _, name.trans armed.name', .turned, by rw [log₂, log]; rfl, ?_⟩
    rw [valid]
    dsimp only
    rw [if_neg (by simp), exec_bind run₂]
    dsimp only
    split
    · rfl
    · rfl
  · simp only [if_pos valid]
    exact ⟨dstf, w₁, _, armed.name', .refused valid, log, rfl⟩

/-- With a block size of 0, the copy ends in one turn, which fails. -/
theorem rest_ends_empty (host : Host Name σ) (armed : Armed src dst f srcf dstf w.snap)
    (more : 0 < f.size.toNat) (failed : w.emptyTurn host src dst ≠ .ok) : ∃ turns r w',
      exec host (copyRest turns (.ready srcf dstf 0)) w = some (some r, w') ∧
        Ended f.size.toNat w'.log := by
  obtain ⟨dstf', w₁, cs, name, turn, log, run⟩ := exec_emptyTurn host armed 0 more
  generalize w.emptyTurn host src dst = res at failed turn run
  rw [if_pos failed] at run
  obtain ⟨w₂, run₂, closed, closed'⟩ := exec_copyRest run
  have opens : ∀ c ∈ calls w.log, c.1 = .open_ := armed.opens
  refine ⟨_, _, w₂, run₂, ?_, ?_, released_both armed.called (.trans ⟨cs, log, ?_⟩
    (closed.others .open_ nofun nofun)) (armed.name ▸ closed.close) (name ▸ closed'.close)⟩
  · have before : reads w.log = 0 := Nat.eq_zero_of_le_zero armed.steady.few
    rw [(closed.others .read nofun nofun).reads]
    unfold reads at before ⊢
    rw [log, List.countP_append, before]
    cases turn with
    | refused => exact more
    | turned => exact more
  · intro n m c k infix_
    have wrote : (.write, m, .ok, k) ∈ calls w₂.log := infix_.subset (by simp)
    have old := (closed.others .write nofun nofun).old wrote rfl
    rw [log] at old
    rcases List.mem_append.1 old with new | old
    · cases turn with
      | refused => cases List.mem_singleton.1 new
      | turned =>
        rcases List.mem_pair.1 new with same | same
        · cases same
          exact absurd rfl failed
        · cases same
    · cases opens _ old
  · intro c mem
    cases turn with
    | refused => simp [List.mem_singleton.1 mem]
    | turned => rcases List.mem_pair.1 mem with rfl | rfl <;> simp

/-- With a block size of 0 and a turn that does not fail, no run of the copy makes progress. -/
theorem rest_spins {turns : Nat} {r : FRESULT} {w' : World Name σ}
    (armed : Armed src dst f srcf dstf w.snap) (more : 0 < f.size.toNat)
    (ok : w.emptyTurn host src dst = .ok)
    (run : exec host (copyRest turns (.ready srcf dstf 0)) w = some (some r, w')) :
    ¬Progress w'.log := by
  obtain ⟨⟨x, w₁⟩, loop, rest⟩ : ∃ y, exec host (copyLoop 0 srcf.objsize turns srcf dstf 0) w = some y ∧
      exec host (do let _ ← fClose y.1.2.1; let _ ← fClose y.1.2.2; pure (some y.1.1)) y.2 = some (some r, w') := by
    obtain ⟨x, w₁, loop, rest⟩ := run_bind_some.1 run
    exact ⟨(x, w₁), loop, rest⟩
  cases turns with
  | zero => cases loop
  | succ turns =>
    obtain ⟨dstf', w₂, cs, -, turn, log, first⟩ := exec_emptyTurn host armed turns more
    rw [ok] at turn first
    rw [if_neg (by simp)] at first
    rw [first] at loop
    cases turn with
    | refused bad => exact absurd rfl bad
    | turned =>
      obtain ⟨es, same, -⟩ := (exec_adds loop).trans (exec_adds rest)
      intro progress
      apply Nat.lt_irrefl 0
      apply progress src dst 0 0
      refine ⟨calls es, calls w.log, ?_⟩
      unfold calls at log ⊢
      rw [same, List.filterMap_append, log, List.append_assoc]

omit [DecidableEq Name] in
theorem ioctlBlockSize_halts (n : Name) : (ioctlBlockSize n).Halts := fun _ => trivial

theorem copyPrelude_halts (src dst : Name) : (copyPrelude src dst).Halts := by
  have opens (n : Name) (mode : BYTE) : (fOpen n mode).Halts :=
    (fOpen_emits (E := fun _ => True) (fun _ _ _ => trivial) (fun _ => trivial)
      (fun _ _ => trivial) mode).halts
  apply halts_bind (opens _ _)
  intro r
  apply halts_ite (halts_pure _)
  apply halts_bind (opens _ _)
  intro r'
  apply halts_ite
  · exact halts_bind (fClose_closing _).halts fun _ => halts_pure _
  apply halts_bind (ioctlBlockSize_halts _)
  intro b
  cases b with
  | none => exact halts_pure _
  | some b =>
    apply halts_bind (ioctlBlockSize_halts _)
    intro b'
    cases b' with
    | none => exact halts_pure _
    | some b' => exact halts_pure _

/-- When the loop gets forward from the world `w`. -/
def Prelude.Advances (host : Host Name σ) (src dst : Name) (size : Nat) (w : World Name σ) :
    Prelude Name → Prop
  | .refused _ => True
  | .crashed => False
  | .ready _ _ blockSize => size = 0 ∨ blockSize ≠ 0 ∨ w.emptyTurn host src dst ≠ .ok

/-- `f_copy` returns, after at most as many calls of `f_read` as the source has bytes, having
closed what it opened. -/
def CopyEnds (host : Host Name σ) (src dst : Name) (w : World Name σ) : Prop :=
  ∃ turns r w', exec host (fCopy turns src dst) w.fresh = some (some r, w') ∧
    Ended (w.vol.size src) w'.log

/-- From where its loop begins, or is not come to. -/
theorem copyEnds_iff {p : Prelude Name} {w₁ : World Name σ}
    (run : exec host (copyPrelude src dst) w.fresh = some (p, w₁)) :
    CopyEnds host src dst w ↔ p.Advances host src dst (w.vol.size src) w₁ := by
  have end_ := exec_rules (within_anything host) (wp_copyPrelude (s := w.fresh.snap) rfl) run
  unfold CopyEnds
  simp only [fCopy_prelude, exec_bind run]
  cases end_ with
  | refused ended =>
    refine ⟨fun _ => trivial, fun _ => ⟨0, _, w₁, rfl, ?_⟩⟩
    exact ⟨Nat.le_trans ended.few (Nat.zero_le _), ended.progress, ended.released⟩
  | crashed =>
    constructor
    · rintro ⟨turns, r, w', no, -⟩
      cases no
    · exact False.elim
  | @ready f srcf dstf blockSize _ there armed =>
    have size : w.vol.size src = f.size.toNat := by
      unfold Volume.size
      rw [show w.vol.node src = some f from there]
      rfl
    rw [size]
    constructor
    · rintro ⟨turns, r, w', run', ended⟩
      by_contra stays
      have stuck : f.size.toNat ≠ 0 ∧ blockSize = 0 ∧ w₁.emptyTurn host src dst = .ok := by
        unfold Prelude.Advances at stays
        tauto
      obtain ⟨more, rfl, ok⟩ := stuck
      exact rest_spins armed (Nat.pos_of_ne_zero more) ok run' ended.progress
    · intro advances
      by_cases positive : 0 < f.size.toNat → 0 < blockSize
      · exact rest_ends host armed positive
      · have zero : 0 < f.size.toNat ∧ blockSize = 0 := by omega
        obtain ⟨more, rfl⟩ := zero
        apply rest_ends_empty host armed more
        rcases advances with none_ | some_ | failed
        · omega
        · exact absurd rfl some_
        · exact failed

/-- It ends if and only if its loop gets forward, or is not come to. -/
theorem fCopy_ends_iff (host : Host Name σ) (src dst : Name) (w : World Name σ) :
    CopyEnds host src dst w ↔ ∃ p w₁, exec host (copyPrelude src dst) w.fresh = some (p, w₁) ∧
      p.Advances host src dst (w.vol.size src) w₁ := by
  obtain ⟨⟨p, w₁⟩, run⟩ := halts_run (World.handle host) (copyPrelude_halts src dst) w.fresh
  have run : exec host (copyPrelude src dst) w.fresh = some (p, w₁) := run
  rw [copyEnds_iff run, run]
  constructor
  · exact fun advances => ⟨p, w₁, rfl, advances⟩
  · rintro ⟨p', w', same, advances⟩
    cases same
    exact advances

/-! ## With the drivers of the repository -/

/-- `ioctl(GET_BLOCK_SIZE)` returns `RES_OK` if and only if it stores a block size. -/
theorem ioctlBlockSize_stores (fuel : Nat) :
    (Sdspi.ioctlBlockSize fuel).Yields fun x => x.1 = .ok ↔ x.2.isSome := by
  unfold Sdspi.ioctlBlockSize
  apply yields_bind (yields_true _)
  intro d _
  apply yields_ite
  · apply yields_bind (yields_true _)
    intro size _
    cases size with
    | none => exact ⟨nofun, nofun⟩
    | some size => exact ⟨fun _ => rfl, fun _ => rfl⟩
  · apply yields_bind (yields_true _)
    intro csd _
    apply yields_bind (yields_true _)
    intro d _
    cases csd with
    | none => exact ⟨nofun, nofun⟩
    | some csd => exact ⟨fun _ => rfl, fun _ => rfl⟩

theorem ioctl_getBlockSize_stores (fuel : Nat) (dp : DWORD × DWORD) :
    (Sdspi.ioctl fuel getBlockSize dp).Yields fun x => x.1 = .ok ↔ x.2.isSome := by
  have guarded {p : Sdspi.Prog (DRESULT × Option DWORD)}
      (h : p.Yields fun x => x.1 = .ok ↔ x.2.isSome) :
      (Sdspi.member .ioctl (Sdspi.lockGuard p)).Yields fun x => x.1 = .ok ↔ x.2.isSome := by
    apply yields_bind (yields_true _)
    intro _ _
    apply yields_bind
    · apply yields_bind (yields_true _)
      intro _ _
      apply yields_bind h
      intro x holds
      exact yields_bind (yields_true _) fun _ _ => holds
    · intro x holds
      exact yields_bind (yields_true _) fun _ _ => holds
  have refused : (pure (.notrdy, none) : Sdspi.Prog (DRESULT × Option DWORD)).Yields
      fun x => x.1 = .ok ↔ x.2.isSome := ⟨nofun, nofun⟩
  cases fuel with
  | zero => trivial
  | succ fuel =>
    apply guarded
    apply yields_bind (yields_true _)
    intro d _
    apply yields_ite refused
    apply yields_bind (yields_true _)
    intro present _
    apply yields_ite refused
    rw [if_neg (by decide), if_neg (by decide), if_pos rfl]
    apply yields_bind (ioctlBlockSize_stores fuel)
    intro x holds
    exact yields_bind (yields_true _) fun _ _ => holds

/-- Answers of such drivers. -/
def Answers.Stores (G : Answers Name) : Prop :=
  ∀ n a, G (.diskIoctl n getBlockSize) a → (a.1 = .ok ↔ a.2.isSome)

/-- With such drivers no block size is 0. -/
theorem wp_copyPrelude_stores (stores : G.Stores) : (copyPrelude src dst).wp (rules G)
    (fun p _ => ∀ srcf dstf blockSize, p = .ready srcf dstf blockSize → blockSize ≠ 0) s := by
  have code_ne {n : Name} {a : DRESULT × Option DWORD} (answer : G (.diskIoctl n getBlockSize) a)
      (none_ : a.2 = none) : code a.1 ≠ 0 := by
    obtain ⟨res, size⟩ := a
    cases none_
    have bad : res ≠ .ok := fun ok => nomatch (stores n _ answer).1 ok
    cases res with
    | ok => exact absurd rfl bad
    | _ => exact nofun
  unfold copyPrelude
  rw [wp_bind]
  apply wp_any
  rintro ⟨res, srcf⟩ t
  dsimp only
  split
  · exact fun _ _ _ no => nomatch no
  rw [wp_bind]
  apply wp_any
  rintro ⟨res', dstf⟩ u
  dsimp only
  split
  · rw [wp_bind]
    apply wp_any
    exact fun _ _ _ _ _ no => nomatch no
  rw [wp_bind]
  apply wp_ioctlBlockSize
  · exact fun _ _ _ _ no => nomatch no
  intro a answer none_
  dsimp only
  rw [wp_bind]
  apply wp_ioctlBlockSize
  · exact fun _ _ _ _ no => nomatch no
  intro b answer' none_' srcf dstf blockSize same
  cases same
  have first := code_ne answer none_
  have second := code_ne answer' none_'
  omega

/-- The drivers answer `GET_BLOCK_SIZE` with what some run of `SDSPIDriver::ioctl` returns. -/
def Driven {S : Type} (handle : (r : Sdspi.Request) → S → r.Ans × S) (host : Host Name σ) : Prop :=
  ∀ n e, ∃ fuel dp s s', (Sdspi.ioctl fuel getBlockSize dp).run handle s =
    some ((host (.diskIoctl n getBlockSize) e).1, s')

/-- With the drivers of the repository `f_copy` ends, or stores through the null pointer. -/
theorem fCopy_driven {S : Type} {handle : (r : Sdspi.Request) → S → r.Ans × S}
    (driven : Driven handle host) (src dst : Name) (w : World Name σ) :
    CopyEnds host src dst w ∨
      ∃ w₁, exec host (copyPrelude src dst) w.fresh = some (.crashed, w₁) := by
  have stores : Answers.Stores fun o a => ∃ e, (host o e).1 = a := by
    rintro n _ ⟨e, rfl⟩
    obtain ⟨fuel, dp, s, s', run⟩ := driven n e
    exact yields_run (ioctl_getBlockSize_stores fuel dp) run
  obtain ⟨p, w₁, run, sized⟩ := exec_total (copyPrelude_halts src dst) (fun o e => ⟨e, rfl⟩)
    (wp_copyPrelude_stores (s := w.fresh.snap) stores)
  cases p with
  | crashed => exact .inr ⟨w₁, run⟩
  | refused => exact .inl ((copyEnds_iff run).2 trivial)
  | ready => exact .inl ((copyEnds_iff run).2 (.inr (.inl (sized _ _ _ rfl))))

/-- A driver that stores a block size, as one with an initialised card does, stores it through
the null pointer. -/
theorem fCopy_crashes : ¬CopyEnds (sampleHost (.ok, some 16)) false true longer := by
  rintro ⟨turns, r, w', run, -⟩
  obtain ⟨w₁, start⟩ : ∃ w₁, exec (sampleHost (.ok, some 16)) (copyPrelude false true) longer.fresh =
      some (.crashed, w₁) := ⟨_, rfl⟩
  rw [fCopy_prelude, exec_bind start] at run
  cases run

end FatFsParticle.Files
