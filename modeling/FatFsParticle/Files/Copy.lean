import FatFsParticle.Files.Durable

/-!
# f_copy

`f_copy` takes the results of `disk_ioctl` for block sizes, ignores how many bytes
`f_write` took, and ignores how `f_close` ended. So its result says little about the
copy: here is exactly when the copy is exact.
-/

namespace FatFsParticle.Files
open Interact Program Cells Volume

variable {Name : Type}

/-! ## The function -/

/-- The value of a result of `disk_ioctl`. -/
def code : DRESULT → Nat
  | .ok => 0
  | .error => 1
  | .wrprt => 2
  | .notrdy => 3
  | .parerr => 4

/-- `disk_ioctl(drv, GET_BLOCK_SIZE, nullptr)` on the drive of `n`: the result as a number;
`none` where the driver stores a block size through the null pointer. -/
def ioctlBlockSize (n : Name) : Prog Name (Option Nat) := do
  let a ← ask (.diskIoctl n getBlockSize)
  pure (if a.2.isSome then none else some (code a.1))

variable [DecidableEq Name]

/-- The loop of `f_copy`, cut off after some turns. -/
def copyLoop (blockSize size : Nat) :
    Nat → FIL Name → FIL Name → Nat → Prog Name (FRESULT × FIL Name × FIL Name)
  | 0, _, _, _ => .stuck
  | turns + 1, srcf, dstf, totalRead =>
    if totalRead < size then do
      let (result, srcf, buf) ← fRead srcf blockSize
      if result ≠ .ok then pure (result, srcf, dstf)
      else do
        let (result, dstf, _) ← fWrite dstf buf
        if result ≠ .ok then pure (result, srcf, dstf)
        else copyLoop blockSize size turns srcf dstf (totalRead + buf.length)
    else pure (.ok, srcf, dstf)

/-- `f_copy` from where both files are open. -/
def copyOpen (turns : Nat) (srcf dstf : FIL Name) : Prog Name (Option FRESULT) := do
  let srcBlockSize ← ioctlBlockSize srcf.name
  match srcBlockSize with
  | none => pure none
  | some srcBlockSize => do
    let dstBlockSize ← ioctlBlockSize dstf.name
    match dstBlockSize with
    | none => pure none
    | some dstBlockSize => do
      let (result, srcf, dstf) ←
        copyLoop (min srcBlockSize dstBlockSize) srcf.objsize turns srcf dstf 0
      let _ ← fClose srcf
      let _ ← fClose dstf
      pure (some result)

/-- `f_copy`; `none` where it stores through a null pointer, and nothing is known from
there on. -/
def fCopy (turns : Nat) (src dst : Name) : Prog Name (Option FRESULT) := do
  let (result, srcf) ← fOpen src faRead
  if result ≠ .ok then pure (some result)
  else do
    let (result, dstf) ← fOpen dst (faWrite ||| faOpenAlways)
    if result ≠ .ok then do
      let _ ← fClose srcf
      pure (some result)
    else copyOpen turns srcf dstf

/-! ## Events -/

/-- Events of the open file `n`. -/
def Event.Of (n : Name) : Event Name → Prop
  | .answered o _ => o.Moves n ∨ o.Enters n
  | .returned _ m _ _ => m = n

omit [DecidableEq Name] in
theorem Outside.one_file {n m : Name} {o : Outside Name} (h : o.Moves n ∨ o.Enters n)
    (h' : o.Moves m ∨ o.Enters m) : n = m := by
  cases o <;> simp_all [Outside.Moves, Outside.Enters]

/-- Events that write nothing of a file, and take no cluster. -/
def Event.Faint : Event Name → Prop
  | .answered (.createChain _) _ | .answered (.diskWrite _ _) _ | .answered (.syncFs _) _
  | .answered (.moveWindow _) _ => False
  | _ => True

variable {G : Answers Name} {s t : Snap Name} {srcf dstf : FIL Name} {f g : Node}
  {total blockSize : Nat} {n m : Name} {res : FRESULT} {buf : List BYTE}

omit [DecidableEq Name] in
theorem Volume.Touches.others_data {v v' : Volume Name} (h : Touches n v v') (other : m ≠ n)
    (there : (v.node m).isSome) : (v'.node m).isSome ∧ v'.data m = v.data m := by
  have same := h.others m other
  exact ⟨by rwa [same], Volume.data_eq there same⟩

/-- Closing one file leaves the others as they are. -/
theorem Stored.others {fp : FIL Name} (h : Stored fp s res t) (other : m ≠ fp.name) :
    t.vol.node m = s.vol.node m := by
  have record (v : Volume Name) : (v.record fp.name fp.objsize fp.clusters).node m = v.node m := by
    unfold Volume.record
    split
    · exact node_setNode_ne _ _ other
    · rfl
  cases h with
  | kept touches _ locks => rw [locks.others m other, touches.others m other]
  | flushed touches _ locks => rw [locks.others m other, touches.others m other]
  | lost touches _ locks => rw [locks.others m other, record, touches.others m other]
  | recorded touches _ locks => rw [locks.others m other, record, touches.others m other]

/-! ## The source -/

/-- The source `f` is open, and `total` bytes of it were read. -/
structure ReadFrom (f : Node) (srcf : FIL Name) (total : Nat) (v : Volume Name) : Prop where
  sound : srcf.Sound v
  content : srcf.bytes v = f.data
  fptr : srcf.fptr = total
  objsize : srcf.objsize = f.size.toNat

omit [DecidableEq Name] in
theorem ReadFrom.frame {v v' : Volume Name} (h : ReadFrom f srcf total v)
    (entry : (v'.node srcf.name).isSome) (data : v'.data srcf.name = v.data srcf.name) :
    ReadFrom f srcf total v' :=
  ⟨h.sound.frame entry data, (congrArg srcf.view data).trans h.content, h.fptr, h.objsize⟩

/-- What a turn of the loop reads. -/
structure PieceRead (f : Node) (srcf : FIL Name) (total blockSize : Nat) (s : Snap Name)
    (srcf' : FIL Name) (buf : List BYTE) (t : Snap Name) : Prop where
  name : srcf'.name = srcf.name
  touches : Touches srcf.name s.vol t.vol
  piece : buf = slice f.data total (min blockSize (f.size.toNat - total))
  source : ReadFrom f srcf' (total + buf.length) t.vol

theorem ReadFrom.read (h : ReadFrom f srcf total s.vol) : (fRead srcf blockSize).wp (rules G)
    (fun r t => (r.1 = .ok → PieceRead f srcf total blockSize s r.2.1 r.2.2 t) ∧
      Adds (Event.Of srcf.name) s.log t.log) s := by
  have emits : Emits (Event.Of srcf.name) _ (fRead srcf blockSize) :=
    fRead_emits (fun _ _ moves => .inl moves) (fun _ _ => rfl) rfl blockSize
  apply wp_mono (wp_and (wp_fRead h.sound) (emits.wp s))
  rintro ⟨res, srcf', buf⟩ t ⟨end_, -, adds⟩
  refine ⟨fun ok => ?_, adds⟩
  dsimp only at ok end_ ⊢
  subst ok
  cases end_ with
  | refused bad => exact absurd rfl bad
  | looped vol _ _ loop =>
    have got := loop.got rfl
    rw [vol, h.content, h.fptr, h.objsize] at got
    have length : buf.length = min blockSize (srcf.objsize - srcf.fptr) := by
      rw [got, length_slice, h.fptr, h.objsize]
    refine ⟨loop.like.name, vol ▸ loop.touches, got, loop.sound rfl, ?_, ?_, ?_⟩
    · exact (loop.bytes rfl).trans (vol ▸ h.content)
    · rw [loop.fptr rfl, h.fptr, length, h.fptr]
    · exact loop.objsize.trans h.objsize

/-! ## The destination -/

/-- The destination is open, `g` at first: `total` bytes of the source `f` are seen in it,
and are on the disk up to the last sector, unless its disk was full. -/
structure WrittenTo (f g : Node) (dstf : FIL Name) (total : Nat) (s : Snap Name) : Prop where
  sound : dstf.Sound s.vol
  entry : ∃ g', s.vol.node dstf.name = some g' ∧ g'.size = g.size
  tells : Tells dstf.name g s
  fits : g.size.toNat ≤ dstf.clusters * dstf.bcs
  objsize : dstf.objsize = max g.size.toNat dstf.fptr
  fptr : dstf.fptr ≤ total
  late : dstf.Late
  dirty : 0 < dstf.fptr → dstf.has faDirty = true
  untouched : ∀ i, (dstf.fptr - 1) / ss * ss ≤ i → s.vol.data dstf.name i = g.data i
  torn : ¬Torn dstf.name s.log
  recorded : ∀ a, .answered (.syncFs dstf.name) a ∉ s.log
  moved : ∀ b, .answered (.moveWindow dstf.name) b ∉ s.log
  copied : ¬Full dstf.name s.log → dstf.fptr = total ∧ ∀ i < total, dstf.bytes s.vol i = f.data i
  full : Full dstf.name s.log → dstf.fptr < total ∧ g.size.toNat ≤ dstf.fptr

omit [DecidableEq Name] in
theorem WrittenTo.size (h : WrittenTo f g dstf total s) : s.vol.size dstf.name = g.size.toNat := by
  obtain ⟨g', at_, size⟩ := h.entry
  rw [size_some at_, size]

omit [DecidableEq Name] in
/-- What happens to other files leaves the destination alone. -/
theorem WrittenTo.frame {E : Event Name → Prop} (h : WrittenTo f g dstf total s)
    (same : t.vol.node dstf.name = s.vol.node dstf.name) (adds : Adds E s.log t.log)
    (other : ∀ o a, o.Moves dstf.name ∨ o.Enters dstf.name → ¬E (.answered o a)) :
    WrittenTo f g dstf total t := by
  have data : t.vol.data dstf.name = s.vol.data dstf.name := Volume.data_eq h.sound.entry same
  have bytes : dstf.bytes t.vol = dstf.bytes s.vol := congrArg dstf.view data
  have there : (t.vol.node dstf.name).isSome := by
    rw [same]
    exact h.sound.entry
  have puts : ∀ e, E e → ¬e.Puts dstf.name := by
    intro e of puts
    cases e with
    | answered o a =>
      obtain moves | enters := Event.Puts.own puts
      · exact other o a (.inl moves) of
      · exact other o a (.inr enters) of
    | returned => exact puts
  have size : t.vol.size dstf.name = s.vol.size dstf.name := by
    unfold Volume.size
    rw [same]
  have follows : Follows dstf.name s t := .of_adds adds puts size (covered_congr same)
  have back : Full dstf.name t.log → Full dstf.name s.log :=
    fun full => adds.old full (other _ _ (.inl rfl))
  have forth : Full dstf.name s.log → Full dstf.name t.log := adds.grows _
  exact
    { sound := h.sound.frame there data
      entry := same ▸ h.entry
      tells := follows.tells h.size h.tells
      fits := h.fits
      objsize := h.objsize
      fptr := h.fptr
      late := h.late
      dirty := h.dirty
      untouched := fun i above => (congrFun data i).trans (h.untouched i above)
      torn := fun ⟨count, k, mem⟩ => h.torn ⟨count, k, adds.old mem (other _ _ (.inl rfl))⟩
      recorded := fun a mem => h.recorded a (adds.old mem (other _ _ (.inr rfl)))
      moved := fun b mem => h.moved b (adds.old mem (other _ _ (.inr rfl)))
      copied := fun room => by
        rw [bytes]
        exact h.copied (room ∘ forth)
      full := fun full => h.full (back full) }

/-- What a turn of the loop writes. -/
structure PieceWritten (f g : Node) (dstf : FIL Name) (total : Nat) (s : Snap Name) (dstf' : FIL Name)
    (t : Snap Name) : Prop where
  name : dstf'.name = dstf.name
  touches : Touches dstf.name s.vol t.vol
  dest : WrittenTo f g dstf' total t

omit [DecidableEq Name] in
/-- The loop of `f_write` for a piece of the source. -/
theorem LoopWrote.dest {dstf' : FIL Name} {k : Nat} {s₀ : Snap Name} (h : WrittenTo f g dstf total s)
    (vol : s₀.vol = s.vol) (calm : Calm dstf.name s.log s₀.log)
    (loop : LoopWrote dstf buf s₀ .ok dstf' k t) (piece : buf = slice f.data total buf.length)
    (small : buf.length < ss)
    (recorded : ∀ a, .answered (.syncFs dstf.name) a ∉ t.log)
    (moved : ∀ b, .answered (.moveWindow dstf.name) b ∉ t.log)
    (tells : Tells dstf.name g t)
    (grows : Full dstf.name s.log → Full dstf.name t.log) :
    WrittenTo f g dstf' (total + buf.length) t := by
  have name := loop.like.name
  have bcs := loop.like.bcs
  have fptr : dstf'.fptr = dstf.fptr + k := loop.fptr rfl
  have le := loop.le
  have low := h.fptr
  have length := h.objsize
  have data : ∀ i, s₀.vol.data dstf.name i = s.vol.data dstf.name i := fun i => by rw [vol]
  obtain ⟨late, dirty, untouched⟩ := loop.late rfl small h.late
  have chain : dstf.clusters * dstf.bcs ≤ dstf'.clusters * dstf.bcs :=
    Nat.mul_le_mul_right _ loop.clusters
  have short (less : k < buf.length) : Full dstf.name t.log ∧ g.size.toNat ≤ dstf.fptr + k := by
    obtain ⟨full, end_⟩ := loop.short rfl less
    exact ⟨full, Nat.le_trans h.fits end_⟩
  refine
    { sound := loop.sound rfl
      entry := ?_
      tells := by rwa [name]
      fits := by rw [bcs]; exact Nat.le_trans h.fits chain
      objsize := by rw [loop.objsize rfl, length, fptr]; omega
      fptr := by omega
      late := late
      dirty := fun positive => dirty ?_
      untouched := fun i above => ?_
      torn := by rw [name]; exact fun torn => h.torn (calm.2 (loop.torn rfl torn))
      recorded := by rwa [name]
      moved := by rwa [name]
      copied := fun room => ?_
      full := fun full => ?_ }
  · obtain ⟨g', at_, size⟩ := h.entry
    rw [← vol] at at_
    obtain ⟨g'', at', size'⟩ := loop.touches.entry g' at_
    exact ⟨g'', by rw [name, at'], size'.trans size⟩
  · rcases Nat.eq_zero_or_pos dstf.fptr with zero | positive'
    · exact .inr (by omega)
    · exact .inl (h.dirty positive')
  · rw [fptr] at above
    rw [name, untouched i above, data]
    refine h.untouched i (Nat.le_trans (Nat.mul_le_mul_right _ ?_) above)
    exact Nat.div_le_div_right (by omega)
  · rw [name] at room
    obtain ⟨at_, copied⟩ := h.copied (room ∘ grows)
    have all : k = buf.length := by
      by_contra other
      exact room (short (by omega)).1
    refine ⟨by omega, fun i below => ?_⟩
    rw [loop.seen rfl i (by omega), all, List.take_length, at_, piece, put_slice, vol]
    split
    · rfl
    · exact copied i (by omega)
  · rw [name] at full
    by_cases all : k = buf.length
    · obtain ⟨less, size⟩ := h.full (calm.1 (loop.whole rfl all full))
      omega
    · have end_ := (short (by omega)).2
      omega

theorem WrittenTo.write (h : WrittenTo f g dstf total s) (piece : buf = slice f.data total buf.length)
    (small : buf.length < ss) (le : total + buf.length ≤ f.size.toNat) :
    (fWrite dstf buf).wp (rules G)
      (fun r t => r.1 = .ok → PieceWritten f g dstf (total + buf.length) s r.2.1 t) s := by
  have emits : Emits (fun e => (∃ o a, e = .answered o a ∧ o.Moves dstf.name) ∨
      ∃ res count, e = .returned .write dstf.name res count) _ (fWrite dstf buf) :=
    fWrite_emits (fun o a moves => .inl ⟨o, a, rfl, moves⟩) (fun res count => .inr ⟨res, count, rfl⟩) rfl buf
  have within : dstf.fptr ≤ dstf.objsize := h.objsize ▸ Nat.le_max_right _ _
  have tracks : Tracks G dstf.name _ (fWrite dstf buf) := fWrite_tracks rfl buf
  apply wp_mono (wp_and (wp_and (wp_fWrite h.sound within) (emits.wp s)) (tracks s h.sound.entry))
  rintro ⟨res, dstf', k⟩ t ⟨⟨end_, -, adds⟩, -, -, -, follows⟩ ok
  dsimp only at ok end_ adds ⊢
  subst ok
  cases end_ with
  | refused bad => exact absurd rfl bad
  | @looped _ _ s₀ u vol calm _ loop =>
    have fits : dstf.fptr + buf.length < 2 ^ 32 := by
      have low := h.fptr
      have size := f.size.isLt
      omega
    rw [if_pos fits] at loop
    have quiet {o : Outside Name} {a : o.Ans} (mem : .answered o a ∈ u.log) (other : ¬o.Moves dstf.name) :
        .answered o a ∈ s.log := by
      refine adds.old (List.mem_cons_of_mem _ mem) ?_
      rintro (⟨o', a', eq, moves⟩ | ⟨res, count, eq⟩)
      · cases eq
        exact other moves
      · cases eq
    have grows : Full dstf.name s.log → Full dstf.name u.log :=
      fun full => (List.mem_cons.1 (adds.grows _ full)).resolve_left (by simp)
    have tells := follows.tells h.size h.tells
    unfold Tells at tells
    rw [Snap.logged_log, put_returned] at tells
    have dest : WrittenTo f g dstf' (total + buf.length) u :=
      loop.dest h vol calm piece small (fun a mem => h.recorded a (quiet mem id))
        (fun b mem => h.moved b (quiet mem id)) tells grows
    refine ⟨loop.like.name, vol ▸ loop.touches, dest.frame rfl (E := fun e => ∀ o a, e ≠ .answered o a) ?_ ?_⟩
    · exact ⟨[_], rfl, fun e mem o a eq => by cases List.mem_singleton.1 mem; cases eq⟩
    · exact fun o a _ none_ => none_ o a rfl

/-! ## The loop -/

theorem code_le (res : DRESULT) : code res ≤ 4 := by
  cases res <;> decide

/-- The loop has come to its end. -/
structure CopyDone (f g : Node) (srcf dstf srcf' dstf' : FIL Name) (t : Snap Name) : Prop where
  src : srcf'.name = srcf.name
  dst : dstf'.name = dstf.name
  source : ReadFrom f srcf' f.size.toNat t.vol
  dest : WrittenTo f g dstf' f.size.toNat t

theorem wp_copyLoop (turns : Nat) (apart : dstf.name ≠ srcf.name) (small : blockSize < ss)
    (source : ReadFrom f srcf total s.vol) (dest : WrittenTo f g dstf total s)
    (le : total ≤ f.size.toNat) : (copyLoop blockSize f.size.toNat turns srcf dstf total).wp (rules G)
      (fun r t => r.1 = .ok → CopyDone f g srcf dstf r.2.1 r.2.2 t) s := by
  induction turns generalizing srcf dstf total s with
  | zero => trivial
  | succ turns ih =>
    unfold copyLoop
    split
    · rw [wp_bind]
      apply wp_mono source.read
      rintro ⟨res, srcf₁, buf⟩ t ⟨read, adds⟩
      dsimp only at read ⊢
      split
      · rename_i bad
        exact fun ok => absurd ok bad
      rename_i fine
      obtain ⟨src, touches, piece, source₁⟩ := read (by simpa using fine)
      have length : buf.length = min blockSize (f.size.toNat - total) := by rw [piece, length_slice]
      have dest₁ : WrittenTo f g dstf total t :=
        dest.frame (touches.others dstf.name apart) adds fun o a mine other =>
          apart (Outside.one_file mine other)
      rw [wp_bind]
      apply wp_mono (dest₁.write (length ▸ piece) (by omega) (by omega))
      rintro ⟨res, dstf₁, k⟩ u wrote
      dsimp only at wrote ⊢
      split
      · rename_i bad
        exact fun ok => absurd ok bad
      rename_i fine
      obtain ⟨dst, touches, dest₂⟩ := wrote (by simpa using fine)
      have source₂ : ReadFrom f srcf₁ (total + buf.length) u.vol := by
        obtain ⟨entry, data⟩ := touches.others_data (by rw [src]; exact apart.symm) source₁.sound.entry
        exact source₁.frame entry data
      apply wp_mono (ih (by rw [src, dst]; exact apart) source₂ dest₂ (by omega))
      rintro ⟨res, srcf', dstf'⟩ u' done ok
      obtain ⟨src', dst', source', dest'⟩ := done ok
      exact ⟨src'.trans src, dst'.trans dst, source', dest'⟩
    · rename_i all
      have end_ : total = f.size.toNat := by omega
      subst end_
      exact fun _ => ⟨rfl, rfl, source, dest⟩

/-! ## Closing -/

/-- Exactly when the disk has the source `f` as the destination, `g` at first, after both were
closed. -/
def Exact (f g : Node) (n : Name) (log : List (Event Name)) : Prop :=
  ¬Full n log ∧ (Recorded n log ∧ g.size.toNat ≤ f.size.toNat ∨ ¬Recorded n log ∧
    (Put n log ∧ g.size = f.size ∨ ¬Put n log ∧ g.covered = some f.size.toNat) ∧
    (Flushed n log ∨ ∀ i, (f.size.toNat - 1) / ss * ss ≤ i → i < f.size.toNat → g.data i = f.data i))

omit [DecidableEq Name] in
/-- Where the last sector was not written, the disk holds the sectors before it. -/
theorem WrittenTo.below (dest : WrittenTo f g dstf total s) (room : ¬Full dstf.name s.log) {i : Nat}
    (below : i < (total - 1) / ss * ss) : s.vol.data dstf.name i = f.data i := by
  obtain ⟨fptr, copied⟩ := dest.copied room
  have low := Nat.div_mul_le_self (total - 1) ss
  rw [← copied i (by omega)]
  cases dirty : dstf.has faDirty with
  | false => rw [FIL.bytes_clean dirty]
  | true =>
    obtain ⟨-, at_⟩ := dest.late dirty
    apply (FIL.view_other _).symm
    rw [at_, fptr]
    intro same
    have sector := Option.some.inj same
    unfold ss at *
    omega

omit [DecidableEq Name] in
/-- The same with the bytes from there on that the destination had. -/
theorem WrittenTo.kept_iff (dest : WrittenTo f g dstf f.size.toNat s) (room : ¬Full dstf.name s.log) :
    (∀ i < f.size.toNat, s.vol.data dstf.name i = f.data i) ↔
      ∀ i, (f.size.toNat - 1) / ss * ss ≤ i → i < f.size.toNat → g.data i = f.data i := by
  obtain ⟨fptr, -⟩ := dest.copied room
  constructor
  · intro same i above lt
    rw [← same i lt, dest.untouched i (by rwa [fptr])]
  · intro same i lt
    by_cases below : i < (f.size.toNat - 1) / ss * ss
    · exact dest.below room below
    · rw [dest.untouched i (by rw [fptr]; omega)]
      exact same i (by omega) lt

omit [DecidableEq Name] in
/-- A full disk leaves the destination shorter than the source. -/
theorem WrittenTo.room (dest : WrittenTo f g dstf f.size.toNat s) (long : f.size.toNat ≤ dstf.objsize) :
    ¬Full dstf.name s.log := by
  intro full
  have short := dest.full full
  have length := dest.objsize
  omega

omit [DecidableEq Name] in
/-- What the disk has of the destination before it is closed. -/
theorem WrittenTo.covered_iff (dest : WrittenTo f g dstf total s) (size : Nat) :
    s.vol.covered dstf.name = some size ↔
      Put dstf.name s.log ∧ g.size.toNat = size ∨ ¬Put dstf.name s.log ∧ g.covered = some size := by
  obtain ⟨puts, keeps⟩ := dest.tells
  by_cases put : Put dstf.name s.log
  · rw [puts put, Option.some_inj, or_iff_left fun other => other.1 put, and_iff_right put]
  · rw [keeps put, or_iff_right fun other => put other.1, and_iff_right put]

/-- The first bytes of `d`, if there are so many, are all those of `e`. -/
theorem map_slice_iff {d e : Nat → BYTE} {o : Option Nat} {m : Nat} :
    o.map (slice d 0) = some (slice e 0 m) ↔ o = some m ∧ ∀ i < m, d i = e i := by
  rw [Option.map_eq_some_iff]
  constructor
  · rintro ⟨k, rfl, same⟩
    obtain ⟨rfl, bytes⟩ := slice_zero_eq_iff.1 same
    exact ⟨rfl, bytes⟩
  · rintro ⟨rfl, bytes⟩
    exact ⟨m, rfl, slice_zero_eq_iff.2 ⟨rfl, bytes⟩⟩

theorem WrittenTo.exact_iff (dest : WrittenTo f g dstf f.size.toNat s) (stored : Stored dstf s res t)
    (full : Full dstf.name t.log ↔ Full dstf.name s.log)
    (put : ¬Recorded dstf.name t.log → (Put dstf.name t.log ↔ Put dstf.name s.log)) :
    t.vol.stored dstf.name = some f.contents ↔ Exact f g dstf.name t.log := by
  obtain ⟨g', there, size⟩ := dest.entry
  have length := dest.objsize
  have low := dest.fptr
  have flushed : ¬Flushed dstf.name s.log := by
    rintro (⟨b, mem⟩ | ⟨count, k, mem⟩)
    · exact dest.moved b mem
    · exact dest.torn ⟨count, _, mem⟩
  have recorded : ¬Recorded dstf.name s.log := fun ⟨a, _, mem⟩ => dest.recorded a mem
  have short : dstf.objsize < 2 ^ 32 := by
    have := f.size.isLt
    have := g.size.isLt
    omega
  have sizes : g.size = f.size ↔ g.size.toNat = f.size.toNat := BitVec.toNat_inj.symm
  have room (covers : s.vol.covered dstf.name = some f.size.toNat) : ¬Full dstf.name s.log := by
    have le := covered_le covers
    rw [dest.size] at le
    exact dest.room (by omega)
  unfold Exact
  rw [sizes, full]
  rcases stored.stored there short (by rw [size]; omega) recorded flushed with
    ⟨unrecorded, unflushed, holds⟩ | ⟨unrecorded, flushed', holds⟩ | ⟨recorded', holds⟩
  · rw [holds, Node.contents, map_slice_iff, put unrecorded, ← dest.covered_iff,
      or_iff_right fun no => unrecorded no.1, and_iff_right unrecorded, or_iff_right unflushed]
    constructor
    · rintro ⟨covers, bytes⟩
      exact ⟨room covers, covers, (dest.kept_iff (room covers)).1 bytes⟩
    · rintro ⟨roomy, covers, bytes⟩
      exact ⟨covers, (dest.kept_iff roomy).2 bytes⟩
  · rw [holds, Node.contents, map_slice_iff, put unrecorded, ← dest.covered_iff,
      or_iff_right fun no => unrecorded no.1, and_iff_right unrecorded]
    constructor
    · rintro ⟨covers, -⟩
      exact ⟨room covers, covers, .inl flushed'⟩
    · rintro ⟨roomy, covers, -⟩
      exact ⟨covers, (dest.copied roomy).2⟩
  · rw [holds, Option.some_inj, Node.contents, slice_zero_eq_iff, and_iff_right recorded',
      or_iff_left fun no => no.1 recorded']
    constructor
    · rintro ⟨same, -⟩
      have roomy := dest.room (by omega)
      exact ⟨roomy, by omega⟩
    · rintro ⟨roomy, le⟩
      obtain ⟨fptr, copied⟩ := dest.copied roomy
      have same : dstf.objsize = f.size.toNat := by omega
      rw [same]
      exact ⟨rfl, copied⟩

/-! ## The function -/

omit [DecidableEq Name] in
theorem wp_ioctlBlockSize (n : Name) {Q : Option Nat → Snap Name → Prop} (unknown : ∀ t, Q none t)
    (known : ∀ a, G (.diskIoctl n getBlockSize) a → a.2 = none →
      Q (some (code a.1)) (s.logged (.answered (.diskIoctl n getBlockSize) a))) :
    (ioctlBlockSize n).wp (rules G) Q s := by
  unfold ioctlBlockSize
  rw [wp_bind]
  apply (wp_ask _ _ _ _).2
  intro a answer
  rw [wp_pure]
  split
  · exact unknown _
  · exact known a answer (by simpa using ‹¬a.2.isSome = true›)

omit [DecidableEq Name] in
theorem WrittenTo.asked (h : WrittenTo f g dstf total s) {o : Outside Name}
    (other : ¬(o.Moves dstf.name ∨ o.Enters dstf.name)) (a : o.Ans) :
    WrittenTo f g dstf total (s.logged (.answered o a)) := by
  have adds : Adds (fun e => e = .answered o a) s.log (s.logged (.answered o a)).log :=
    adds_cons (E := fun e => e = .answered o a) rfl s.log
  apply h.frame (t := s.logged _) rfl adds
  intro o' a' mine same
  cases same
  exact other mine

/-- Closing takes no cluster, and moves the window to the directory entry only. -/
def Event.Settled : Event Name → Prop
  | .answered (.createChain _) _ | .answered (.window _) _ => False
  | _ => True

omit [DecidableEq Name] in
theorem stores_settled (o : Outside Name) (a : o.Ans) (h : o.Stores n) : (Event.answered o a).Settled := by
  cases o with
  | createChain | window => exact h
  | _ => trivial

omit [DecidableEq Name] in
theorem enters_settled (o : Outside Name) (a : o.Ans) (h : o.Enters n) : (Event.answered o a).Settled := by
  cases o with
  | createChain | window => exact h
  | _ => trivial

omit [DecidableEq Name] in
/-- Where closing did not write the entry, it put nothing on the disk. -/
theorem put_settled (adds : Adds Event.Settled s.log t.log) (unrecorded : ¬Recorded n t.log) :
    Put n t.log ↔ Put n s.log := by
  constructor
  · rintro ⟨e, mem, puts⟩
    cases e with
    | returned => exact puts.elim
    | answered o a =>
      refine ⟨_, ?_, puts⟩
      cases o with
      | window | createChain => exact adds.old mem id
      | syncFs m =>
        obtain ⟨rfl, wrote⟩ := puts
        exact absurd ⟨a, wrote, mem⟩ unrecorded
      | _ => exact puts.elim
  · rintro ⟨e, mem, puts⟩
    exact ⟨e, adds.grows e mem, puts⟩

theorem wp_copyOpen (turns : Nat) (apart : dstf.name ≠ srcf.name) (source : ReadFrom f srcf 0 s.vol)
    (dest : WrittenTo f g dstf 0 s) : (copyOpen turns srcf dstf).wp (rules G) (fun r t => r = some .ok →
      (t.vol.stored dstf.name = some f.contents ↔ Exact f g dstf.name t.log)) s := by
  unfold copyOpen
  rw [wp_bind]
  apply wp_ioctlBlockSize
  · exact fun t no => nomatch no
  intro a _ _
  dsimp only
  rw [wp_bind]
  apply wp_ioctlBlockSize
  · exact fun t no => nomatch no
  intro b _ _
  have small : min (code a.1) (code b.1) < ss := by
    have le := code_le a.1
    unfold ss
    omega
  have apart_ (m : Name) : ¬((Outside.diskIoctl m getBlockSize).Moves dstf.name ∨
      (Outside.diskIoctl m getBlockSize).Enters dstf.name) := by
    rintro (moves | enters)
    · exact moves
    · exact enters
  dsimp only
  rw [wp_bind, source.objsize]
  have dest₁ := (dest.asked (apart_ srcf.name) a).asked (apart_ dstf.name) b
  apply wp_mono (wp_copyLoop (s := (s.logged _).logged _) turns apart small source dest₁ (Nat.zero_le _))
  rintro ⟨res, srcf', dstf'⟩ t done
  dsimp only at done ⊢
  by_cases ok : res = .ok
  · obtain ⟨src, dst, source', dest'⟩ := done ok
    have emits : Emits (Event.Of srcf'.name) _ (fClose srcf') :=
      fClose_emits (fun _ _ h => .inl h.moves) (fun _ _ h => .inr h) (fun _ _ => rfl) (fun _ _ => rfl) rfl
    rw [wp_bind]
    apply wp_mono (wp_and (wp_fClose fun _ => source'.sound) (emits.wp t))
    rintro r u ⟨stored, -, adds⟩
    have apart' : dstf'.name ≠ srcf'.name := by rwa [src, dst]
    have dest₂ : WrittenTo f g dstf' f.size.toNat u :=
      dest'.frame (stored.others apart') adds fun o a mine other =>
        apart' (Outside.one_file mine other)
    rw [wp_bind]
    have emits' : Emits Event.Settled _ (fClose dstf') :=
      fClose_emits stores_settled enters_settled (fun _ _ => trivial) (fun _ _ => trivial) rfl
    apply wp_mono (wp_and (wp_fClose fun _ => dest₂.sound) (emits'.wp u))
    rintro r' u' ⟨stored', -, adds'⟩ -
    rw [← dst]
    exact dest₂.exact_iff stored' ⟨fun full => adds'.old full id, adds'.grows _⟩ (put_settled adds')
  · rw [wp_bind]
    apply wp_any
    intro r u
    rw [wp_bind]
    apply wp_any
    exact fun r' u' no => absurd (Option.some.inj no) ok

/-- The chain of the file covers its length. -/
def Volume.Fits (v : Volume Name) (n : Name) : Prop :=
  ∀ f, v.node n = some f → f.size.toNat ≤ f.clusters * (v.csize n * ss)

/-- The exact condition in terms of the files before the call and of what happened in it. -/
def CopiesExactly (v : Volume Name) (src dst : Name) (log : List (Event Name)) : Prop :=
  ¬Full dst log ∧ (Recorded dst log ∧ v.size dst ≤ v.size src ∨ ¬Recorded dst log ∧
    (Put dst log ∧ v.size dst = v.size src ∨ ¬Put dst log ∧ v.covered dst = some (v.size src)) ∧
    (Flushed dst log ∨ ∀ i, (v.size src - 1) / ss * ss ≤ i → i < v.size src → v.data dst i = v.data src i))

omit [DecidableEq Name] in
theorem Volume.Locks.fits {v v' : Volume Name} (h : Locks m v v') (fits : v.Fits n) : v'.Fits n := by
  intro f' there
  have same := h.node n
  rw [there] at same
  obtain ⟨f, at_, eq⟩ := Option.map_eq_some_iff.1 same.symm
  have size : f.unlocked.size = f'.unlocked.size := congrArg Node.size eq
  have clusters : f.unlocked.clusters = f'.unlocked.clusters := congrArg Node.clusters eq
  have covered : f.unlocked.size.toNat ≤ f.unlocked.clusters * (v.csize n * ss) := fits f at_
  rwa [size, clusters, ← h.csize] at covered

theorem opened_source {src : Name} {v v' : Volume Name} (o : Opened src faRead v f srcf v') :
    v.node src = some f ∧ ReadFrom f srcf 0 v' := by
  obtain ⟨there, flag⟩ | ⟨-, -, -, making⟩ := o.found
  · have locks := o.locks
    rw [setNode_self there] at locks
    have start : srcf.start = 0 := by
      unfold FIL.start FIL.has
      rw [flag]
      rfl
    refine ⟨there, o.sound, ?_, o.fptr.trans start, o.objsize⟩
    rw [FIL.bytes_clean o.clean, o.name, locks.data there]
  · exact absurd rfl making

theorem opened_dest_fptr {dst : Name} {v v' : Volume Name}
    (o : Opened dst (faWrite ||| faOpenAlways) v g dstf v') : dstf.fptr = 0 := by
  have start : dstf.start = 0 := by
    unfold FIL.start FIL.has
    obtain ⟨-, flag⟩ | ⟨-, -, flag, -⟩ := o.found
    · rw [flag]
      rfl
    · rw [flag]
      rfl
  exact o.fptr.trans start

theorem opened_dest {dst : Name} {v v' : Volume Name} {log : List (Event Name)} (fits : v.Fits dst)
    (o : Opened dst (faWrite ||| faOpenAlways) v g dstf v') (faint : ∀ e ∈ log, e.Faint)
    (tells : Tells dst g ⟨v', log⟩) : WrittenTo f g dstf 0 ⟨v', log⟩ := by
  have fptr := opened_dest_fptr o
  have there := o.locks.node dst
  rw [node_setNode, Option.map_some] at there
  obtain ⟨g', at_, same⟩ := Option.map_eq_some_iff.1 there
  have size : g'.unlocked.size = g.unlocked.size := congrArg Node.size same
  have data : v'.data dstf.name = g.data := by
    rw [o.name, o.locks.data (node_setNode _ _ _)]
  have faint {o' : Outside Name} {a : o'.Ans} (sign : ¬(Event.answered o' a).Faint) : .answered o' a ∉ log :=
    fun mem => sign (faint _ mem)
  have covered : g.size.toNat ≤ dstf.clusters * dstf.bcs := by
    unfold FIL.bcs
    rw [o.clusters, o.csize]
    obtain ⟨found, -⟩ | ⟨-, new_, -⟩ := o.found
    · exact fits g found
    · rw [new_]
      exact Nat.zero_le _
  exact
    { sound := o.sound
      entry := ⟨g', by rwa [o.name], size⟩
      tells := by rwa [o.name]
      fits := covered
      objsize := by rw [o.objsize, fptr, Nat.max_zero]
      fptr := Nat.le_of_eq fptr
      late := fun dirty => absurd dirty (by rw [o.clean]; decide)
      dirty := fun some_ => absurd some_ (by omega)
      untouched := fun i _ => congrFun data i
      torn := fun ⟨count, k, mem⟩ => faint id mem
      recorded := fun a => faint id
      moved := fun b => faint id
      copied := fun _ => ⟨fptr, fun i no => absurd no (Nat.not_lt_zero i)⟩
      full := fun full => absurd full (faint id) }

/-- Source and destination are two files, and the second open leaves the first one alone. -/
theorem opened_both {src dst : Name} {v v₁ v' : Volume Name} (o : Opened src faRead v f srcf v₁)
    (o' : Opened dst (faWrite ||| faOpenAlways) v₁ g dstf v') : dst ≠ src ∧ ReadFrom f srcf 0 v' := by
  have apart : dst ≠ src := by
    rintro rfl
    exact o.busy (o'.free rfl)
  have same := o'.locks.node src
  rw [node_setNode_ne _ _ apart.symm] at same
  obtain ⟨-, source⟩ := opened_source o
  have entry := source.sound.entry
  rw [o.name] at entry
  obtain ⟨entry', data⟩ := data_unlocked entry same
  refine ⟨apart, source.frame ?_ ?_⟩
  · rwa [o.name]
  · rwa [o.name]

/-- What the second open finds is what was there before the first. -/
theorem opened_before {src dst : Name} {v v₁ v' : Volume Name} {mode : BYTE} {fp : FIL Name}
    (locks : Locks src v v₁) (o : Opened dst mode v₁ g fp v') :
    v.size dst = g.size.toNat ∧ ∀ i < g.size.toNat, v.data dst i = g.data i := by
  have before := locks.node dst
  obtain ⟨found, -⟩ | ⟨missing, new_, -⟩ := o.found
  · rw [found] at before
    obtain ⟨g₀, at_, same⟩ := Option.map_eq_some_iff.1 before.symm
    have size : g₀.unlocked.size = g.unlocked.size := congrArg Node.size same
    have data : g₀.unlocked.data = g.unlocked.data := congrArg Node.data same
    unfold Volume.size
    rw [at_, data_some at_]
    exact ⟨congrArg BitVec.toNat size, fun i _ => congrFun data i⟩
  · rw [missing] at before
    have none_ : v.node dst = none := Option.map_eq_none_iff.1 before.symm
    unfold Volume.size
    rw [none_, new_]
    exact ⟨rfl, fun i no => absurd no (Nat.not_lt_zero i)⟩

omit [DecidableEq Name] in
theorem exact_copiesExactly {v : Volume Name} {src dst : Name} {log : List (Event Name)}
    (there : v.node src = some f) (covered : v.covered dst = g.covered)
    (size : v.size dst = g.size.toNat) (data : ∀ i < g.size.toNat, v.data dst i = g.data i) :
    Exact f g dst log ↔ CopiesExactly v src dst log := by
  unfold Exact CopiesExactly
  rw [size_some there, size, covered, data_some there, ← BitVec.toNat_inj]
  apply and_congr_right
  intro _
  apply or_congr_right
  apply and_congr_right
  intro _
  apply and_congr_right
  intro whole
  have le : f.size.toNat ≤ g.size.toNat := by
    rcases whole with ⟨-, same⟩ | ⟨-, covers⟩
    · exact Nat.le_of_eq same.symm
    · exact Node.covered_le covers
  apply or_congr_right
  constructor
  · intro agree i above lt
    rw [data i (by omega)]
    exact agree i above lt
  · intro agree i above lt
    rw [← data i (by omega)]
    exact agree i above lt

omit [DecidableEq Name] in
theorem finds_faint (o : Outside Name) (a : o.Ans) (h : o.Finds n) : (Event.answered o a).Faint := by
  cases o with
  | createChain | diskWrite | syncFs | moveWindow => exact h
  | _ => trivial

theorem wp_fCopy (turns : Nat) {src dst : Name} (fits : s.vol.Fits dst) (fresh : s.log = []) :
    (fCopy turns src dst).wp (rules G) (fun r t => r = some .ok →
      (t.vol.stored dst = s.vol.contents src ↔ CopiesExactly s.vol src dst t.log)) s := by
  have opens (m : Name) (mode : BYTE) :
      Emits (fun e => e.Faint ∧ (dst ≠ m → ¬e.Puts dst)) _ (fOpen m mode) :=
    fOpen_emits (fun o a finds => ⟨finds_faint o a finds, fun _ => finds.silent a dst⟩)
      (fun _ => ⟨trivial, fun other puts => other puts.1.symm⟩) (fun _ _ => ⟨trivial, fun _ => id⟩) mode
  unfold fCopy
  rw [wp_bind]
  apply wp_mono (wp_and (wp_fOpen ⟨rfl, rfl⟩) ((opens src faRead).wp s))
  rintro ⟨res, srcf⟩ t ⟨end_, -, adds⟩
  dsimp only at end_ adds ⊢
  split
  · rename_i bad
    exact fun ok => absurd (Option.some.inj ok) bad
  cases end_ with
  | failed bad => exact absurd bad ‹_›
  | @opened f _ t o =>
  obtain ⟨there, -⟩ := opened_source o
  have locks : Locks src s.vol t.vol := by
    have locks := o.locks
    rwa [setNode_self there] at locks
  rw [wp_bind]
  apply wp_mono (wp_and (wp_and (wp_fOpen ⟨rfl, rfl⟩) ((opens dst (faWrite ||| faOpenAlways)).wp _))
    (wp_fOpen_follows ⟨rfl, rfl⟩))
  rintro ⟨res, dstf⟩ u ⟨⟨end_, -, adds'⟩, follows⟩
  dsimp only at end_ adds' follows ⊢
  split
  · rename_i bad
    rw [wp_bind]
    apply wp_any
    exact fun _ _ ok => absurd (Option.some.inj ok) bad
  cases end_ with
  | failed bad => exact absurd bad ‹_›
  | @opened g _ u o' =>
  obtain ⟨apart, source'⟩ := opened_both o o'
  have found : t.vol.covered dst = g.covered := o'.covered
  have covered : s.vol.covered dst = g.covered :=
    (covered_congr (locks.others dst apart)).symm.trans found
  have unput : ¬Put dst (Snap.logged t (.returned .open_ src .ok 0)).log := by
    rw [fresh] at adds
    rintro ⟨e, mem, puts⟩
    exact (adds.all e mem).2 apart puts
  have told : Tells dst g (t.logged (.returned .open_ src .ok 0)) :=
    ⟨fun put => absurd put unput, fun _ => found⟩
  have dest : WrittenTo f g dstf 0 (u.logged (.returned .open_ dst .ok 0)) := by
    have faint := (adds.mono fun _ => And.left).trans (adds'.mono fun _ => And.left)
    rw [fresh] at faint
    exact opened_dest (locks.fits fits) o' faint.all (follows.tells o'.size told)
  obtain ⟨size, data⟩ := opened_before locks o'
  have content : s.vol.contents src = some f.contents := by
    unfold Volume.contents
    rw [there]
    rfl
  have named : dstf.name = dst := o'.name
  have copied := wp_copyOpen (G := G) (s := u.logged _) turns (by rwa [o.name, o'.name]) source' dest
  apply wp_mono copied
  intro r t' exact_ ok
  rw [← named, content, exact_ ok, named]
  exact exact_copiesExactly there covered size data

/-- A copy that ends with `FR_OK` is exact on the disk just then. -/
theorem fCopy_ok_iff {σ : Type} {host : Host Name σ} {w w' : World Name σ} {turns : Nat} {src dst : Name}
    (fits : w.vol.Fits dst) (run : exec host (fCopy turns src dst) w.fresh = some (some .ok, w')) :
    w'.vol.stored dst = w.vol.contents src ↔ CopiesExactly w.vol src dst w'.log :=
  exec_rules (within_anything host) (wp_fCopy (s := w.fresh.snap) turns fits rfl) run rfl

/-- Two files, the destination, `true`, longer than the source. -/
abbrev longer : World Bool Unit :=
  sampleWorld fun n => if n then some [7, 8, 9] else some [1, 2]

theorem longer_fits : longer.vol.Fits true := by
  intro f there
  cases Option.some.inj there
  decide

/-- The end of a longer destination stays. -/
theorem fCopy_keeps_tail : ∃ w', exec (sampleHost (.error, none)) (fCopy 3 false true) longer.fresh =
    some (some .ok, w') ∧ w'.vol.stored true ≠ longer.vol.contents false := by
  obtain ⟨r, w', run, seen⟩ := exec_seen (sampleHost (.error, none)) (fCopy 3 false true) longer.fresh
    (fun r => (r.1, r.2.vol.stored true)) (some .ok, some [1, 2, 9]) (by decide +kernel)
  cases (Prod.mk.inj seen).1
  refine ⟨w', run, ?_⟩
  rw [(Prod.mk.inj seen).2]
  decide

theorem fCopy_ok_iff_longer : ∃ w', exec (sampleHost (.error, none)) (fCopy 3 false true) longer.fresh =
    some (some .ok, w') ∧ (w'.vol.stored true = longer.vol.contents false ↔
      CopiesExactly longer.vol false true w'.log) := by
  obtain ⟨r, w', run, seen⟩ := exec_seen (sampleHost (.error, none)) (fCopy 3 false true) longer.fresh
    (fun r => r.1) (some .ok) (by decide +kernel)
  cases seen
  exact ⟨w', run, fCopy_ok_iff longer_fits run⟩

end FatFsParticle.Files
