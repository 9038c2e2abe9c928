import FatFsParticle.Files.Durable

/-!
# Log messages

`f_append_string` returns the result of `f_write`. It ignores how many bytes that took
and how `f_close` ended, so a message can be lost that counts as written; and what was in
the window of the volume, a file that `f_open` made or the length that an earlier `f_sync`
could not write, can come to the disk when the message does not. The loop of a log handler
tries again what failed.
-/

namespace FatFsParticle.Files
open Interact Program Cells Volume

variable {Name : Type} [DecidableEq Name]

/-! ## The functions -/

def fAppendString (path : Name) (str : List BYTE) : Prog Name FRESULT := do
  let (result, fil) ← fOpen path (faOpenAppend ||| faWrite)
  if result ≠ .ok then pure result
  else do
    let (result, fil, _) ← fWrite fil str
    let _ ← fClose fil
    pure result

/-- A `FileLogHandler`: its file, unless the name is empty, and whether `_errorCallback`
is set. -/
structure FileLogHandler (Name : Type) where
  filename : Option Name
  errorCallback : Bool

namespace FileLogHandler

/-- `repeat`, after an attempt with the result `result`. -/
def again (h : FileLogHandler Name) (result : FRESULT) : Prog Name Bool :=
  if result ≠ .ok then if h.errorCallback then ask (.errorCallback result) else pure false
  else pure false

/-- The loop of `write`, cut off after some turns: the result of the last attempt. -/
def writeLoop (h : FileLogHandler Name) (path : Name) (data : List BYTE) : Nat → Prog Name FRESULT
  | 0 => .stuck
  | turns + 1 => do
    let result ← fAppendString path data
    let more ← h.again result
    if more then writeLoop h path data turns else pure result

/-- `FileLogHandler::write`, with the result that it drops; `none` where it does nothing. -/
def write (h : FileLogHandler Name) (turns : Nat) (data : List BYTE) : Prog Name (Option FRESULT) :=
  match h.filename with
  | none => pure none
  | some path => do
    let result ← h.writeLoop path data turns
    pure (some result)

end FileLogHandler

/-! ## What is claimed -/

variable {σ : Type}

/-- A call of `f_append_string`. -/
structure Append (Name σ : Type) where
  path : Name
  before : World Name σ
  result : FRESULT
  after : World Name σ

namespace Append

/-- What happened in it, newest first. -/
def events (a : Append Name σ) : List (Event Name) :=
  a.after.log.take (a.after.log.length - a.before.log.length)

/-- The calls it made. -/
def calls (a : Append Name σ) : List (Call × Name × FRESULT × Nat) := Files.calls a.events

/-- `FR_OK` only for the old content with all of the string behind it, and a file that was
closed; after an error, the file is as it was. -/
def Right (a : Append Name σ) (str : List BYTE) : Prop :=
  (a.result = .ok → a.after.vol.stored a.path =
      some ((a.before.vol.contents a.path).getD [] ++ str) ∧ (.close, a.path, .ok, 0) ∈ a.calls) ∧
  (a.result ≠ .ok → a.after.vol.stored a.path = a.before.vol.stored a.path)

/-- `f_open` or `f_write` failed. -/
def Failed (a : Append Name σ) : Prop :=
  (.open_, a.path, .ok, 0) ∉ a.calls ∨
    ∃ result bw, (.write, a.path, result, bw) ∈ a.calls ∧ result ≠ .ok

/-- All of the string was taken, and the file closed; or the attempt failed, with a
directory entry that was on the disk before, or that did not get there. -/
def Whole (a : Append Name σ) (str : List BYTE) : Prop :=
  (.write, a.path, .ok, str.length) ∈ a.calls ∧ (.close, a.path, .ok, 0) ∈ a.calls ∨
    a.Failed ∧ (a.before.vol.entered a.path = true ∨ ¬Put a.path a.events)

end Append

namespace FileLogHandler

/-- The attempts of the loop of `write`. -/
def attempts (host : Host Name σ) (h : FileLogHandler Name) (path : Name) (data : List BYTE) :
    Nat → World Name σ → List (Append Name σ)
  | 0, _ => []
  | turns + 1, w =>
    match exec host (fAppendString path data) w with
    | none => []
    | some (result, w') =>
      { path := path, before := w, result := result, after := w' } ::
        match exec host (h.again result) w' with
        | some (true, w'') => attempts host h path data turns w''
        | _ => []

/-- Every attempt is right; and the message is in the file once if the last one succeeded,
and not at all if it failed. -/
def Right (host : Host Name σ) (h : FileLogHandler Name) (turns : Nat) (data : List BYTE)
    (w : World Name σ) (result : Option FRESULT) (w' : World Name σ) : Prop :=
  ∀ path, h.filename = some path → (∀ a ∈ h.attempts host path data turns w, a.Right data) ∧
    (result = some .ok → w'.vol.stored path = some ((w.vol.contents path).getD [] ++ data)) ∧
    (result ≠ some .ok → w'.vol.stored path = w.vol.stored path)

end FileLogHandler

/-! ## An attempt -/

variable {G : Answers Name} {s t : Snap Name} {n : Name} {str : List BYTE} {fil : FIL Name} {f : Node}

/-- How an attempt ends. -/
inductive AppendEnd (n : Name) (str : List BYTE) (s : Snap Name) : FRESULT → Snap Name → Prop
  | unopened {res : FRESULT} {t : Snap Name} (bad : res ≠ .ok)
      (log : calls t.log = (.open_, n, res, 0) :: calls s.log) (follows : Follows n s t)
      (kept : t.vol.contents n = s.vol.contents n) (held : s.vol.ctr n ≠ 0 → t.vol.ctr n ≠ 0) :
      AppendEnd n str s res t
  | opened {res closed synced : FRESULT} {bw : Nat} {t : Snap Name} (free : s.vol.ctr n = 0)
      (log : calls t.log = (.close, n, closed, 0) :: (.sync, n, synced, 0) :: (.write, n, res, bw) ::
        (.open_, n, .ok, 0) :: calls s.log) (places : Places n s t)
      (kept : res ≠ .ok → (s.vol.node n).isSome →
        t.vol.contents n = s.vol.contents n ∧ Follows n s t)
      (made : res ≠ .ok → s.vol.node n = none → (t.vol.covered n).isSome ∨ t.vol.ctr n ≠ 0)
      (short : res = .ok → bw ≠ str.length →
        t.vol.stored n ≠ some ((s.vol.contents n).getD [] ++ str))
      (whole : res = .ok → bw = str.length → closed = .ok →
        t.vol.stored n = some ((s.vol.contents n).getD [] ++ str)) : AppendEnd n str s res t

/-- The file that `f_append_string` opened, `old` in it. -/
structure OpenedEnd (n : Name) (old : List BYTE) (v : Volume Name) (fil : FIL Name) (v' : Volume Name) :
    Prop where
  name : fil.name = n
  entry : ∃ f, v'.node n = some f ∧ f.size.toNat = old.length
  sound : fil.Sound v'
  bytes : slice (fil.bytes v') 0 old.length = old
  clean : fil.has faDirty = false
  fptr : fil.fptr = old.length
  objsize : fil.objsize = old.length
  found : (v.node n).isSome → v.contents n = some old ∧ fil.has faModified = false
  missing : v.node n = none → old = [] ∧ fil.has faModified = true

theorem opened_end {v v' : Volume Name} (o : Opened n (faOpenAppend ||| faWrite) v f fil v') :
    OpenedEnd n f.contents v fil v' := by
  have length : f.contents.length = f.size.toNat := length_slice _ _ _
  have there := o.locks.node n
  rw [node_setNode, Option.map_some] at there
  obtain ⟨f', at_, same⟩ := Option.map_eq_some_iff.1 there
  have size : f'.unlocked.size = f.unlocked.size := congrArg Node.size same
  have seeks : fil.has faSeekend = true := by
    unfold FIL.has
    obtain ⟨-, flag⟩ | ⟨-, -, flag, -⟩ := o.found
    · rw [flag]
      rfl
    · rw [flag]
      rfl
  have start : fil.start = fil.objsize := if_pos seeks
  exact
    { name := o.name
      entry := ⟨f', at_, by rw [length]; exact congrArg BitVec.toNat size⟩
      sound := o.sound
      bytes := by
        rw [FIL.bytes_clean o.clean, o.name, o.locks.data (node_setNode _ _ _), length]
        rfl
      clean := o.clean
      fptr := by rw [o.fptr, start, o.objsize, length]
      objsize := by rw [o.objsize, length]
      found := fun some_ => by
        obtain ⟨found, flag⟩ | ⟨none_, -⟩ := o.found
        · constructor
          · unfold Volume.contents
            rw [found]
            rfl
          · unfold FIL.has
            rw [flag]
            rfl
        · rw [none_] at some_
          cases some_
      missing := fun none_ => by
        obtain ⟨found, -⟩ | ⟨-, new_, flag, -⟩ := o.found
        · rw [none_] at found
          cases found
        · rw [new_]
          unfold FIL.has
          rw [flag]
          exact ⟨rfl, rfl⟩ }

/-- What `f_write` leaves of it. -/
structure Appended (n : Name) (old str : List BYTE) (fil : FIL Name) (res : FRESULT) (fil' : FIL Name)
    (bw : Nat) (v : Volume Name) : Prop where
  name : fil'.name = n
  entry : ∃ f, v.node n = some f ∧ f.size.toNat = old.length
  kept : res ≠ .ok → slice (v.data n) 0 old.length = old
  modified : fil'.has faModified = if res = .ok then true else fil.has faModified
  le : bw ≤ str.length
  sound : res = .ok → fil'.Sound v
  objsize : res = .ok → fil'.objsize = old.length + bw ∧ old.length + bw < 2 ^ 32
  content : res = .ok → bw = str.length → slice (fil'.bytes v) 0 (old.length + bw) = old ++ str

variable {old : List BYTE} {v : Volume Name}

theorem OpenedEnd.write (o : OpenedEnd n old v fil s.vol) : (fWrite fil str).wp (rules G)
    (fun r t => Appended n old str fil r.1 r.2.1 r.2.2 t.vol) s := by
  have data (i : Nat) : fil.bytes s.vol i = s.vol.data n i := by
    rw [FIL.bytes_clean o.clean, o.name]
  have before : slice (s.vol.data n) 0 old.length = old := by
    rw [← slice_congr fun i _ _ => data i]
    exact o.bytes
  apply wp_mono (wp_fWrite o.sound (Nat.le_of_eq (o.fptr.trans o.objsize.symm)))
  rintro ⟨res, fil', bw⟩ t end_
  dsimp only at end_ ⊢
  cases end_ with
  | refused bad vol =>
    have entry := o.entry
    rw [← vol] at entry before
    exact
      { name := o.name
        entry := entry
        kept := fun _ => before
        modified := by rw [if_neg bad]
        le := Nat.zero_le _
        sound := fun ok => absurd ok bad
        objsize := fun ok => absurd ok bad
        content := fun ok => absurd ok bad }
  | @looped _ _ s₀ t vol _ _ loop =>
    have name := loop.like.name.trans o.name
    have size : fil.objsize < 2 ^ 32 := by
      obtain ⟨f, -, length⟩ := o.entry
      rw [o.objsize, ← length]
      exact f.size.isLt
    have fptr := o.fptr
    have objsize := o.objsize
    have framed := loop.framed
    have seen := loop.seen
    have le := loop.le
    rw [o.name, vol] at framed
    have all : (if fil.fptr + str.length < 2 ^ 32 then str else str.take (0xFFFFFFFF - fil.fptr)).length ≤
          str.length ∧ fil.fptr +
          (if fil.fptr + str.length < 2 ^ 32 then str else str.take (0xFFFFFFFF - fil.fptr)).length < 2 ^ 32 := by
      split
      · omega
      · rw [List.length_take]
        omega
    exact
      { name := name
        entry := by
          obtain ⟨f, at_, length⟩ := o.entry
          rw [← vol] at at_
          have touches := loop.touches
          rw [o.name] at touches
          obtain ⟨f', at', same⟩ := touches.entry f at_
          exact ⟨f', at', by rw [same, length]⟩
        kept := fun _ => by
          have same : slice (t.vol.data n) 0 old.length = slice (s.vol.data n) 0 old.length := by
            apply slice_congr
            intro i _ lt
            rcases framed i (by omega) with eq | eq
            · exact eq
            · exact eq.trans (data i)
          exact same.trans before
        modified := loop.modified
        le := by omega
        sound := loop.sound
        objsize := fun ok => by
          have length := loop.objsize ok
          omega
        content := fun ok full => by
          have fits : fil.fptr + str.length < 2 ^ 32 := by
            by_contra long
            rw [if_neg long, List.length_take] at le
            omega
          subst full
          rw [if_pos fits, List.take_length] at seen
          rw [Snap.logged_vol, slice_append]
          have low : slice (fil'.bytes t.vol) 0 old.length = old := by
            refine (slice_congr fun i _ lt => ?_).trans o.bytes
            rw [seen ok i (by omega), put_before _ _ (by omega), vol]
          have high : slice (fil'.bytes t.vol) (0 + old.length) str.length = str := by
            refine (slice_congr fun i _ lt => ?_).trans (slice_put (fil.bytes s₀.vol) (0 + old.length) str)
            rw [seen ok i (by omega), fptr, Nat.zero_add]
          rw [low, high] }

omit [DecidableEq Name] in
theorem contents_some {f : Node} (there : v.node n = some f) :
    v.contents n = some (slice (v.data n) 0 f.size.toNat) := by
  unfold Volume.contents Node.contents
  rw [there, data_some there]
  rfl

omit [DecidableEq Name] in
theorem OpenedEnd.before {v' : Volume Name} (o : OpenedEnd n old v fil v') : (v.contents n).getD [] = old := by
  cases there : v.node n with
  | none =>
    unfold Volume.contents
    rw [there, (o.missing there).1]
    rfl
  | some g =>
    rw [(o.found (by rw [there]; rfl)).1]
    rfl

theorem Appended.close {res : FRESULT} {fil' : FIL Name} {bw : Nat} (o : OpenedEnd n old v fil t.vol)
    (a : Appended n old str fil res fil' bw s.vol) : (fClose fil').wp (rules G) (fun r u =>
      (res ≠ .ok → (v.node n).isSome → u.vol.contents n = v.contents n ∧ Follows n s u) ∧
      (res = .ok → bw ≠ str.length → u.vol.stored n ≠ some ((v.contents n).getD [] ++ str)) ∧
      (res = .ok → bw = str.length → r.1 = .ok →
        u.vol.stored n = some ((v.contents n).getD [] ++ str))) s := by
  obtain ⟨f, at_, size⟩ := a.entry
  rw [o.before]
  by_cases ok : res = .ok
  · subst ok
    obtain ⟨objsize, short⟩ := a.objsize rfl
    have le := a.le
    have modified : fil'.has faModified = true := a.modified
    have entry : s.vol.node fil'.name = some f := by rw [a.name, at_]
    apply wp_mono (wp_fClose fun _ => a.sound rfl)
    rintro r u stored
    obtain ⟨length, closed⟩ := stored.length entry (by omega)
    rw [a.name] at length closed
    refine ⟨fun bad => absurd rfl bad, fun _ part found => ?_, fun _ whole fine => ?_⟩
    · obtain ⟨k, covers, same⟩ := Option.map_eq_some_iff.1 found
      have least := length k covers
      have both := congrArg List.length same
      rw [length_slice, List.length_append] at both
      omega
    · rw [closed fine modified, objsize, a.content rfl whole]
  · cases there : v.node n with
    | none =>
      apply wp_any
      exact fun r u => ⟨fun _ no => (nomatch no), fun fine => absurd fine ok, fun fine => absurd fine ok⟩
    | some g =>
      obtain ⟨content, clean⟩ := o.found (by rw [there]; rfl)
      have unmodified : fil'.has faModified = false := by rw [a.modified, if_neg ok, clean]
      have name := a.name
      subst name
      apply wp_mono (wp_fClose_unmodified unmodified)
      rintro r u ⟨locks, follows⟩
      refine ⟨fun _ _ => ⟨?_, follows⟩, fun fine => absurd fine ok, fun fine => absurd fine ok⟩
      rw [locks.contents, contents_some at_, size, a.kept ok, content]

theorem wp_fAppendString (n : Name) (str : List BYTE) (s : Snap Name) :
    (fAppendString n str).wp (rules G) (fun res t => AppendEnd n str s res t) s := by
  unfold fAppendString
  rw [wp_bind]
  apply wp_mono (wp_and (wp_and (wp_fOpen ⟨rfl, rfl⟩) (fOpen_calls n _ s)) (wp_fOpen_follows ⟨rfl, rfl⟩))
  rintro ⟨res, fil⟩ t ⟨⟨end_, name, log⟩, follows⟩
  dsimp only at end_ name log follows ⊢
  cases end_ with
  | failed bad locks held =>
    rw [if_pos bad]
    exact .unopened bad log follows (locks.contents n) held
  | @opened f _ t opened =>
  have o := opened_end opened
  have log' : (fWrite fil str).wp (rules G) (fun r u => r.2.1.name = n ∧
      calls u.log = (.write, n, r.1, r.2.2) :: calls (t.logged (.returned .open_ n .ok 0)).log)
      (t.logged (.returned .open_ n .ok 0)) := by
    have added := fWrite_calls (G := G) fil str (t.logged (.returned .open_ n .ok 0))
    rw [name] at added
    exact added
  have there : (t.vol.node n).isSome := by
    obtain ⟨f, at_, -⟩ := o.entry
    rw [at_]
    rfl
  have writes : Tracks G n _ (fWrite fil str) := fWrite_tracks name str
  rw [if_neg (by simp), wp_bind]
  apply wp_mono (wp_and (wp_and (o.write (s := t.logged _)) log') (writes _ there))
  rintro ⟨res, fil', bw⟩ u ⟨⟨appended, name', log'⟩, -, there', ctr, wrote⟩
  dsimp only at appended name' log' ⊢
  rw [wp_bind]
  apply wp_mono (wp_and (wp_and (appended.close o) (wp_fClose_calls fil' u)) (fClose_places name' there'))
  rintro r u' ⟨⟨⟨kept, short, whole⟩, synced, log''⟩, closed, entered, held⟩
  rw [name', log', log] at log''
  refine .opened (opened.free rfl) log'' ((follows.trans wrote).places.trans closed) (fun bad some_ => ?_)
    (fun bad none_ => ?_) short whole
  · obtain ⟨same, still⟩ := kept bad some_
    exact ⟨same, (follows.trans wrote).trans still⟩
  · by_cases fine : r.1 = .ok
    · have modified : fil'.has faModified = true := by
        rw [appended.modified, if_neg bad]
        exact (o.missing none_).2
      have covers := entered_iff.1 (entered fine modified)
      exact .inl (by rw [covers]; rfl)
    · rw [held fine, ctr]
      exact .inr opened.busy

variable {host : Host Name σ} {w w' : World Name σ} {h : FileLogHandler Name} {path : Name}
  {data : List BYTE} {turns : Nat} {result : FRESULT}

omit [DecidableEq Name] in
theorem Append.events_eq {a : Append Name σ} {new : List (Event Name)}
    (log : a.after.log = new ++ a.before.log) : a.events = new := by
  unfold Append.events
  rw [log, List.length_append, Nat.add_sub_cancel]
  exact List.take_left' rfl

omit [DecidableEq Name] in
theorem Append.calls_eq {a : Append Name σ} {new : List (Event Name)}
    {cs : List (Call × Name × FRESULT × Nat)} (log : a.after.log = new ++ a.before.log)
    (same : Files.calls a.after.log = cs ++ Files.calls a.before.log) : a.calls = cs := by
  unfold Append.calls
  rw [Append.events_eq log]
  rw [log, calls_append] at same
  exact List.append_cancel_right same

/-- An attempt is right if and only if all of the string was taken and stored, or nothing of
it changed the disk. -/
theorem append_right_iff (run : exec host (fAppendString path data) w = some (result, w')) :
    ({ path := path, before := w, result := result, after := w' } : Append Name σ).Right data ↔
      ({ path := path, before := w, result := result, after := w' } : Append Name σ).Whole data := by
  have end_ := exec_rules (within_anything host) (wp_fAppendString path data w.snap) run
  generalize attempt : ({ path := path, before := w, result := result, after := w' } : Append Name σ) = a
  have facts : a.path = path ∧ a.before = w ∧ a.result = result ∧ a.after = w' := by
    rw [← attempt]
    exact ⟨rfl, rfl, rfl, rfl⟩
  obtain ⟨rfl, rfl, rfl, rfl⟩ := facts
  unfold Append.Right Append.Whole Append.Failed
  cases end_ with
  | unopened bad log follows kept =>
    obtain ⟨new, grown, unchanged⟩ := follows.stored_iff kept
    have calls : a.calls = [(.open_, a.path, a.result, 0)] := Append.calls_eq grown log
    have unopened : (.open_, a.path, .ok, 0) ∉ a.calls := by
      rw [calls]
      intro mem
      have same := List.mem_singleton.1 mem
      simp only [Prod.mk.injEq] at same
      exact bad same.2.2.1.symm
    rw [Append.events_eq grown]
    constructor
    · rintro ⟨-, failed⟩
      exact .inr ⟨.inl unopened, unchanged.1 (failed bad)⟩
    · rintro (⟨wrote, -⟩ | ⟨-, still⟩)
      · rw [calls] at wrote
        cases List.mem_singleton.1 wrote
      · exact ⟨fun ok => absurd ok bad, fun _ => unchanged.2 still⟩
  | @opened closed synced bw _ _ log places kept made short whole =>
    obtain ⟨new, grown, covers⟩ := places
    have covers : (a.after.vol.covered a.path).isSome ↔
        (a.before.vol.covered a.path).isSome ∨ Put a.path new := covers
    have calls : a.calls = [(.close, a.path, closed, 0), (.sync, a.path, synced, 0),
      (.write, a.path, a.result, bw), (.open_, a.path, .ok, 0)] := Append.calls_eq grown log
    have unchanged (bad : a.result ≠ .ok) : a.after.vol.stored a.path = a.before.vol.stored a.path ↔
        a.before.vol.entered a.path = true ∨ ¬Put a.path new := by
      cases before : a.before.vol.node a.path with
      | none =>
        have missing : a.before.vol.covered a.path = none := covered_none before
        have apart : ¬a.before.vol.entered a.path = true := by
          rw [entered_iff, missing]
          exact nofun
        have none_ : a.before.vol.stored a.path = none := by
          unfold Volume.stored
          rw [missing, Option.map_none]
        rw [missing, or_iff_right nofun] at covers
        rw [or_iff_right apart, none_, ← covers]
        unfold Volume.stored
        rw [Option.map_eq_none_iff, Option.not_isSome_iff_eq_none]
      | some f =>
        obtain ⟨same, follows⟩ := kept bad (Option.isSome_iff_exists.2 ⟨f, before⟩)
        obtain ⟨new', grown', unchanged⟩ := follows.stored_iff same
        cases List.append_cancel_right (grown'.symm.trans grown)
        exact unchanged
    rw [calls, Append.events_eq grown]
    constructor
    · rintro ⟨fine, failed⟩
      by_cases ok : a.result = .ok
      · obtain ⟨stored, close⟩ := fine ok
        refine .inl ⟨?_, close⟩
        have full : bw = data.length := by
          by_contra part
          exact short ok part stored
        rw [ok, full]
        simp
      · exact .inr ⟨.inr ⟨a.result, bw, by simp, ok⟩, (unchanged ok).1 (failed ok)⟩
    · rintro (⟨wrote, close⟩ | ⟨unopened | ⟨res, bw', wrote, bad⟩, still⟩)
      · have ok : a.result = .ok ∧ bw = data.length := by simpa [eq_comm] using wrote
        have closed_ : closed = .ok := by simpa [eq_comm] using close
        exact ⟨fun _ => ⟨whole ok.1 ok.2 closed_, close⟩, fun bad => absurd ok.1 bad⟩
      · exact absurd (by simp) unopened
      · have same : res = a.result ∧ bw' = bw := by simpa using wrote
        have failed : a.result ≠ .ok := same.1 ▸ bad
        exact ⟨fun ok => absurd ok failed, fun bad => (unchanged bad).2 still⟩

/-! ## The loop -/

omit [DecidableEq Name] in
/-- The callback does not touch the file. -/
theorem exec_again {more : Bool} (run : exec host (h.again result) w = some (more, w')) :
    w'.vol = w.vol ∧ (more = true → result ≠ .ok) := by
  have kept : (h.again result).wp (rules anything) (fun more t => t.vol = w.vol ∧
      (more = true → result ≠ .ok)) w.snap := by
    unfold FileLogHandler.again
    split
    · rename_i bad
      split
      · apply (wp_ask _ _ _ _).2
        intro more _
        exact ⟨rfl, fun _ => bad⟩
      · exact ⟨rfl, fun no => nomatch no⟩
    · exact ⟨rfl, fun no => nomatch no⟩
  exact exec_rules (within_anything host) kept run

/-- A file that is open already cannot be opened. -/
theorem append_locked (run : exec host (fAppendString path data) w = some (result, w'))
    (locked : w.vol.ctr path ≠ 0) : result ≠ .ok ∧ w'.vol.ctr path ≠ 0 := by
  have end_ := exec_rules (within_anything host) (wp_fAppendString path data w.snap) run
  cases end_ with
  | unopened bad _ _ _ held => exact ⟨bad, held locked⟩
  | opened free => exact absurd free locked

theorem writeLoop_locked (run : exec host (h.writeLoop path data turns) w = some (result, w'))
    (locked : w.vol.ctr path ≠ 0) : result ≠ .ok := by
  induction turns generalizing w with
  | zero => cases run
  | succ turns ih =>
    unfold FileLogHandler.writeLoop at run
    obtain ⟨res, w₁, first, run⟩ := run_bind_some.1 run
    obtain ⟨more, w₂, asked, run⟩ := run_bind_some.1 run
    have first : exec host (fAppendString path data) w = some (res, w₁) := first
    obtain ⟨bad, locked'⟩ := append_locked first locked
    obtain ⟨vol, -⟩ := exec_again asked
    cases more with
    | false =>
      cases run
      exact bad
    | true => exact ih run (by rwa [vol])

/-- After an attempt that failed and left the disk as it was, the next one finds what this one
found, or does not open the file. -/
theorem append_again (run : exec host (fAppendString path data) w = some (result, w')) (bad : result ≠ .ok)
    (same : w'.vol.stored path = w.vol.stored path) :
    (w'.vol.contents path).getD [] = (w.vol.contents path).getD [] ∨ w'.vol.ctr path ≠ 0 := by
  have end_ := exec_rules (within_anything host) (wp_fAppendString path data w.snap) run
  cases end_ with
  | unopened _ _ _ kept => exact .inl (congrArg (·.getD []) kept)
  | opened _ _ _ kept made =>
    cases before : w.vol.node path with
    | some f => exact .inl (congrArg (·.getD []) (kept bad (Option.isSome_iff_exists.2 ⟨f, before⟩)).1)
    | none =>
      refine .inr ((made bad before).resolve_left fun covers => ?_)
      obtain ⟨k, covers⟩ := Option.isSome_iff_exists.1 covers
      have stored : w'.vol.stored path = some _ := stored_eq covers
      unfold Volume.stored at same stored
      rw [covered_none before] at same
      rw [same] at stored
      cases stored

/-- Where every attempt of the loop is right, the loop is. -/
theorem writeLoop_right (run : exec host (h.writeLoop path data turns) w = some (result, w'))
    (right : ∀ a ∈ h.attempts host path data turns w, a.Right data) :
    (result = .ok → w'.vol.stored path = some ((w.vol.contents path).getD [] ++ data)) ∧
      (result ≠ .ok → w'.vol.stored path = w.vol.stored path) := by
  induction turns generalizing w with
  | zero => cases run
  | succ turns ih =>
    unfold FileLogHandler.writeLoop at run
    unfold FileLogHandler.attempts at right
    obtain ⟨res, w₁, first, run⟩ := run_bind_some.1 run
    obtain ⟨more, w₂, asked, run⟩ := run_bind_some.1 run
    have first : exec host (fAppendString path data) w = some (res, w₁) := first
    have asked : exec host (h.again res) w₁ = some (more, w₂) := asked
    rw [first] at right
    dsimp only at right
    rw [asked] at right
    obtain ⟨vol, failed⟩ := exec_again asked
    obtain ⟨fine, kept⟩ := right _ List.mem_cons_self
    cases more with
    | false =>
      cases run
      rw [vol]
      exact ⟨fun ok => (fine ok).1, kept⟩
    | true =>
      have bad := failed rfl
      have same := kept bad
      obtain ⟨fine', kept'⟩ := ih run fun a mem => right a (List.mem_cons_of_mem _ mem)
      rw [vol] at fine' kept'
      refine ⟨fun ok => ?_, fun bad' => (kept' bad').trans same⟩
      rcases append_again first bad same with found | locked
      · rw [← found]
        exact fine' ok
      · exact absurd ok (writeLoop_locked run (by rwa [vol]))

theorem attempts_right_iff (host : Host Name σ) (h : FileLogHandler Name) (path : Name) (data : List BYTE)
    (turns : Nat) (w : World Name σ) : (∀ a ∈ h.attempts host path data turns w, a.Right data) ↔
      ∀ a ∈ h.attempts host path data turns w, a.Whole data := by
  have none_ : (∀ a ∈ ([] : List (Append Name σ)), a.Right data) ↔
      ∀ a ∈ ([] : List (Append Name σ)), a.Whole data := by simp
  induction turns generalizing w with
  | zero => exact none_
  | succ turns ih =>
    unfold FileLogHandler.attempts
    cases first : exec host (fAppendString path data) w with
    | none => exact none_
    | some r =>
      obtain ⟨res, w₁⟩ := r
      dsimp only
      rw [List.forall_mem_cons, List.forall_mem_cons, append_right_iff first]
      apply and_congr_right
      intro _
      split
      · exact ih _
      · exact none_

/-- An outside whose disk is full. -/
def fullHost : Host Name σ
  | .createChain _, e => (.full, e)
  | o, e => sampleHost (.error, none) o e

def logger : FileLogHandler Unit where
  filename := some ()
  errorCallback := true

/-- No file yet. -/
abbrev unlogged : World Unit Unit := sampleWorld fun _ => none

theorem logger_runs : ∃ w', exec fullHost (logger.write 2 [0x68, 0x69]) unlogged = some (some .ok, w') ∧
    w'.vol.stored () = some [] := by
  obtain ⟨r, w', run, seen⟩ := exec_seen fullHost (logger.write 2 [0x68, 0x69]) unlogged
    (fun r => (r.1, r.2.vol.stored ())) (some .ok, some []) (by decide +kernel)
  obtain ⟨ok, stored⟩ := Prod.mk.inj seen
  cases ok
  exact ⟨w', run, stored⟩

end FatFsParticle.Files
