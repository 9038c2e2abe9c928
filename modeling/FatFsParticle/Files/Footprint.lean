import FatFsParticle.Files.Rules

/-!
# What each function asks for

Every function of a file asks about that file only: opening for the entry and the chain,
reading, writing and seeking for the chain and the sectors, closing for the last sector
and the entry.
-/

namespace FatFsParticle.Files
open Interact Program

variable {Name : Type} {n : Name} {E : Event Name → Prop} {fp : FIL Name}

/-- Requests of `f_open`, but for the window. -/
def Outside.Finds (n : Name) : Outside Name → Prop
  | .findVolume m | .followPath m | .dirRegister m | .removeChain m | .getFat m | .diskRead m => m = n
  | _ => False

/-- Requests of `f_read`, `f_write` and `f_lseek`. -/
def Outside.Moves (n : Name) : Outside Name → Prop
  | .validate m | .getFat m | .createChain m | .diskRead m | .diskWrite m _ | .window m => m = n
  | _ => False

/-- Requests of a write-back, and of `validate`. -/
def Outside.Stores (n : Name) : Outside Name → Prop
  | .validate m | .diskWrite m _ => m = n
  | _ => False

/-- Requests of `f_sync` for the directory entry. -/
def Outside.Enters (n : Name) : Outside Name → Prop
  | .moveWindow m | .syncFs m => m = n
  | _ => False

theorem refill_name (fp : FIL Name) (piece : List BYTE) (count : Nat) :
    (refill fp piece count).name = fp.name := by
  unfold refill
  split
  · split <;> rfl
  · rfl

theorem Outside.Stores.moves {o : Outside Name} (h : o.Stores n) : o.Moves n := by
  cases o with
  | validate | diskWrite => exact h
  | _ => exact h.elim

theorem moveOn_emits [DecidableEq Name] (window : ∀ a : Bool, E (.answered (.window n) a)) :
    Emits E (fun _ => True) (moveOn n) := by
  unfold moveOn
  apply emits_bind (emits_load fun _ => trivial)
  intro v _
  split
  · apply emits_bind (emits_ask window fun _ => trivial)
    intro written _
    cases written with
    | true => exact emits_store _ trivial
    | false => exact trivial
  · exact trivial

section
variable (stores : ∀ (o : Outside Name) (a : o.Ans), o.Stores n → E (.answered o a))
include stores

theorem validate_emits (name : fp.name = n) : Emits E (fun _ => True) (validate fp) := by
  unfold validate
  split
  · exact emits_ask (fun a => stores (.validate fp.name) a name) fun _ => trivial
  · exact trivial

theorem check_emits (name : fp.name = n) : Emits E (fun _ => True) (check fp) :=
  emits_bind (validate_emits stores name) fun _ _ => trivial

variable [DecidableEq Name]

theorem diskWrite_emits (off : Nat) (bytes : List BYTE) (count : Nat) :
    Emits E (fun _ => True) (diskWrite n off bytes count) := by
  apply emits_bind (emits_ask (fun a => stores (.diskWrite n count) a rfl) fun _ => trivial)
  intro failed _
  cases failed with
  | none => exact ⟨trivial, fun _ => trivial⟩
  | some k => exact ⟨trivial, fun _ => trivial⟩

theorem writeBack_emits (name : fp.name = n) : Emits E (fun r => r.2.name = n) (writeBack fp) := by
  unfold writeBack
  split
  · subst name
    apply emits_bind (diskWrite_emits stores _ _ _)
    intro ok _
    cases ok <;> rfl
  · exact name

end

section
variable (moves : ∀ (o : Outside Name) (a : o.Ans), o.Moves n → E (.answered o a))
include moves

theorem stores_moves (o : Outside Name) (a : o.Ans) (h : o.Stores n) : E (.answered o a) :=
  moves o a h.moves

theorem ask_moves {o : Outside Name} (h : o.Moves n) : Emits E (fun _ => True) (ask o) :=
  emits_ask (fun a => moves o a h) fun _ => trivial

theorem fill_emits (name : fp.name = n) (s : Nat) : Emits E (fun r => r.2.name = n) (fill fp s) := by
  unfold fill
  apply emits_bind (ask_moves moves (o := .diskRead fp.name) name)
  intro ok _
  apply emits_bind (emits_load fun _ => trivial)
  intro v _
  cases ok <;> exact name

variable [DecidableEq Name]

theorem followCluster_emits (name : fp.name = n) : Emits E (fun _ => True) (followCluster fp) := by
  unfold followCluster
  split
  · exact trivial
  · apply emits_bind (ask_moves moves (o := .getFat fp.name) name)
    intro f _
    apply emits_bind (moveOn_emits fun a => moves (.window fp.name) a name)
    intro _ _
    cases f <;> exact trivial

theorem readTurn_emits (name : fp.name = n) (btr : Nat) :
    Emits E (fun r => r.2.1.name = n) (readTurn fp btr) := by
  unfold readTurn
  split
  · exact name
  have follow : Emits E (fun _ => True)
      (if fp.fptr / ss % fp.csize = 0 then followCluster fp else pure .ok) := by
    split
    · exact followCluster_emits moves name
    · exact trivial
  apply emits_bind follow
  intro res _
  split
  · exact name
  split
  · apply emits_bind (ask_moves moves (o := .diskRead fp.name) name)
    intro ok _
    apply emits_bind (emits_load fun _ => trivial)
    intro v _
    cases ok <;> exact name
  split
  · apply emits_bind (writeBack_emits (stores_moves moves) name)
    rintro ⟨res, fp₁⟩ name₁
    dsimp only
    split
    · exact name₁
    apply emits_bind (fill_emits moves name₁ _)
    rintro ⟨res, fp₂⟩ name₂
    dsimp only
    split
    · exact name₂
    · exact name₂
  · exact name

theorem readLoop_emits (turns : Nat) (name : fp.name = n) (btr : Nat) (got : List BYTE) :
    Emits E (fun r => r.2.1.name = n) (readLoop turns fp btr got) := by
  induction turns generalizing fp btr got with
  | zero => exact name
  | succ turns ih =>
    unfold readLoop
    split
    · exact name
    apply emits_bind (readTurn_emits moves name btr)
    rintro ⟨res, fp₁, part⟩ name₁
    dsimp only
    split
    · exact name₁
    · have name₂ : ({ fp₁ with fptr := fp₁.fptr + part.length } : FIL Name).name = n := name₁
      exact ih name₂ _ _

theorem fRead_body (name : fp.name = n) (btr : Nat) :
    ∃ p, fRead fp btr = noted .read fp.name (fun r => (r.1, r.2.2.length)) p ∧
      Emits E (fun r => r.2.1.name = n) p := by
  refine ⟨_, rfl, ?_⟩
  apply emits_bind (check_emits (stores_moves moves) name)
  intro res _
  split
  · exact name
  split
  · exact name
  · exact readLoop_emits moves _ name _ _

theorem fRead_emits (returned : ∀ res count, E (.returned .read n res count)) (name : fp.name = n)
    (btr : Nat) : Emits E (fun r => r.2.1.name = n) (fRead fp btr) := by
  obtain ⟨p, same, emits⟩ := fRead_body moves name btr
  rw [same]
  exact emits_noted emits (name ▸ returned)

theorem stretchCluster_emits (name : fp.name = n) :
    Emits E (fun r => r.2.name = n) (stretchCluster fp) := by
  unfold stretchCluster
  split
  · split
    · exact name
    · apply emits_bind (ask_moves moves (o := .getFat fp.name) name)
      intro f _
      exact emits_bind (moveOn_emits fun a => moves (.window fp.name) a name) fun _ _ => name
  · apply emits_bind (ask_moves moves (o := .createChain fp.name) name)
    intro c _
    cases c with
    | done => exact ⟨trivial, fun _ => name⟩
    | full => exact ⟨trivial, fun _ => name⟩
    | fault f => exact emits_bind (moveOn_emits fun a => moves (.window fp.name) a name) fun _ _ => name

theorem writeSectors_emits (name : fp.name = n) (bytes : List BYTE) :
    Emits E (fun r => r.2.1.name = n) (writeSectors fp bytes) := by
  unfold writeSectors
  subst name
  apply emits_bind (diskWrite_emits (stores_moves moves) _ _ _)
  intro ok _
  cases ok with
  | true => exact refill_name _ _ _
  | false => exact rfl

theorem writeTurn_emits (name : fp.name = n) (bytes : List BYTE) :
    Emits E (fun r => r.2.1.name = n) (writeTurn fp bytes) := by
  unfold writeTurn
  split
  · exact name
  have stretch : Emits E (fun r => r.2.name = n)
      (if fp.fptr / ss % fp.csize = 0 then stretchCluster fp else pure (some .ok, fp)) := by
    split
    · exact stretchCluster_emits moves name
    · exact name
  apply emits_bind stretch
  rintro ⟨res, fp₁⟩ name₁
  dsimp only
  split
  · exact name₁
  apply emits_bind (writeBack_emits (stores_moves moves) name₁)
  rintro ⟨res, fp₂⟩ name₂
  dsimp only
  split
  · exact name₂
  split
  · exact writeSectors_emits moves name₂ bytes
  have fill : Emits E (fun r => r.2.name = n)
      (if fp₂.sect ≠ some (fp₂.fptr / ss) ∧ fp₂.fptr < fp₂.objsize then fill fp₂ (fp₂.fptr / ss)
      else pure (.ok, fp₂)) := by
    split
    · exact fill_emits moves name₂ _
    · exact name₂
  apply emits_bind fill
  rintro ⟨res, fp₃⟩ name₃
  dsimp only
  split
  · exact name₃
  · exact name₃

theorem writeLoop_emits (turns : Nat) (name : fp.name = n) (bytes : List BYTE) (bw : Nat) :
    Emits E (fun r => r.2.1.name = n) (writeLoop turns fp bytes bw) := by
  induction turns generalizing fp bytes bw with
  | zero => exact name
  | succ turns ih =>
    unfold writeLoop
    split
    · exact name
    apply emits_bind (writeTurn_emits moves name bytes)
    rintro ⟨res, fp₁, m⟩ name₁
    dsimp only
    split
    · exact name₁
    · have name₂ : ({ fp₁ with fptr := fp₁.fptr + m, objsize := max (fp₁.fptr + m) fp₁.objsize } :
          FIL Name).name = n := name₁
      exact ih name₂ _ _
    · exact name₁

theorem fWrite_body (name : fp.name = n) (bytes : List BYTE) :
    ∃ p, fWrite fp bytes = noted .write fp.name (fun r => (r.1, r.2.2)) p ∧
      Emits E (fun r => r.2.1.name = n) p := by
  refine ⟨_, rfl, ?_⟩
  apply emits_bind (check_emits (stores_moves moves) name)
  intro res _
  split
  · exact name
  split
  · exact name
  · exact writeLoop_emits moves _ name _ _

theorem fWrite_emits (returned : ∀ res count, E (.returned .write n res count)) (name : fp.name = n)
    (bytes : List BYTE) : Emits E (fun r => r.2.1.name = n) (fWrite fp bytes) := by
  obtain ⟨p, same, emits⟩ := fWrite_body moves name bytes
  rw [same]
  exact emits_noted emits (name ▸ returned)

theorem seekCluster_emits (name : fp.name = n) : Emits E (fun r => r.2.name = n) (seekCluster fp) := by
  unfold seekCluster
  split
  · exact stretchCluster_emits moves name
  · apply emits_bind (followCluster_emits moves name)
    intro res _
    exact name

theorem seekLoop_emits (turns : Nat) (name : fp.name = n) (ofs : Nat) :
    Emits E (fun r => r.2.1.name = n) (seekLoop turns fp ofs) := by
  induction turns generalizing fp ofs with
  | zero => exact name
  | succ turns ih =>
    unfold seekLoop
    split
    · exact name
    have next : ({ fp with fptr := fp.fptr + fp.bcs } : FIL Name).name = n := name
    apply emits_bind (seekCluster_emits moves next)
    rintro ⟨res, fp₁⟩ name₁
    dsimp only
    split
    · exact name
    · exact ih name₁ _
    · exact name

theorem seekDone_emits (name : fp.name = n) : Emits E (fun r => r.2.name = n) (seekDone fp) := by
  have sector : Emits E (fun r => r.2.name = n) (seekSector fp) := by
    unfold seekSector
    split
    · apply emits_bind (writeBack_emits (stores_moves moves) name)
      rintro ⟨res, fp₁⟩ name₁
      dsimp only
      split
      · exact name₁
      apply emits_bind (fill_emits moves name₁ _)
      rintro ⟨res, fp₂⟩ name₂
      dsimp only
      split
      · exact name₂
      · exact name₂
    · exact name
  unfold seekDone
  apply emits_bind sector
  rintro ⟨res, fp₁⟩ name₁
  dsimp only
  split
  · exact name₁
  split
  · exact name₁
  · exact name₁

theorem seekFrom_emits (name : fp.name = n) (ofs : Nat) :
    Emits E (fun r => r.2.name = n) (seekFrom fp ofs) := by
  unfold seekFrom
  apply emits_bind (seekLoop_emits moves _ name ofs)
  rintro ⟨res, fp₁, rest⟩ name₁
  dsimp only
  split
  · exact name₁
  · have there : ({ fp₁ with fptr := fp₁.fptr + rest } : FIL Name).name = n := name₁
    exact seekDone_emits moves there

theorem fLseek_emits (returned : ∀ res count, E (.returned .lseek n res count)) (name : fp.name = n)
    (ofs : Nat) : Emits E (fun r => r.2.name = n) (fLseek fp ofs) := by
  refine emits_noted ?_ (name ▸ returned)
  apply emits_bind (check_emits (stores_moves moves) name)
  intro res _
  split
  · exact name
  dsimp only
  generalize (if fp.objsize < ofs ∧ (!fp.has faWrite) = true then fp.objsize else ofs) = p
  have at_ (q : Nat) : ({ fp with fptr := q } : FIL Name).name = n := name
  split
  · exact seekDone_emits moves (at_ 0)
  split
  · exact seekFrom_emits moves (at_ _) _
  split
  · exact seekFrom_emits moves (at_ 0) _
  apply emits_bind (stretchCluster_emits moves (at_ 0))
  rintro ⟨res, fp₁⟩ name₁
  dsimp only
  split
  · exact seekDone_emits moves name₁
  · exact seekFrom_emits moves name₁ _
  · exact name₁

end

/-! ## Closing -/

section
variable (stores : ∀ (o : Outside Name) (a : o.Ans), o.Stores n → E (.answered o a))
  (enters : ∀ (o : Outside Name) (a : o.Ans), o.Enters n → E (.answered o a))
  (synced : ∀ res count, E (.returned .sync n res count))
include enters

variable [DecidableEq Name]

theorem syncEntry_emits (name : fp.name = n) : Emits E (fun r => r.2.name = n) (syncEntry fp) := by
  unfold syncEntry
  apply emits_bind (emits_ask (fun a => enters (.moveWindow fp.name) a name) fun _ => trivial)
  intro ok _
  split
  · exact name
  apply emits_bind (emits_store (R := fun _ => True) _ trivial)
  intro _ _
  apply emits_bind (emits_ask (fun a => enters (.syncFs fp.name) a name) fun _ => trivial)
  intro failed _
  exact ⟨trivial, fun _ => name⟩

include stores

theorem fSync_body (name : fp.name = n) : ∃ p, fSync fp = noted .sync fp.name (fun r => (r.1, 0)) p ∧
    Emits E (fun r => r.2.name = n) p := by
  refine ⟨_, rfl, ?_⟩
  apply emits_bind (validate_emits stores name)
  intro res _
  split
  · exact name
  split
  · exact name
  apply emits_bind (writeBack_emits stores name)
  rintro ⟨res, fp₁⟩ name₁
  dsimp only
  split
  · exact name₁
  · exact syncEntry_emits enters name₁

include synced

theorem fSync_emits (name : fp.name = n) : Emits E (fun r => r.2.name = n) (fSync fp) := by
  obtain ⟨p, same, emits⟩ := fSync_body stores enters name
  rw [same]
  exact emits_noted emits (name ▸ synced)

theorem fClose_emits (closed : ∀ res count, E (.returned .close n res count)) (name : fp.name = n) :
    Emits E (fun r => r.2.name = n) (fClose fp) := by
  refine emits_noted ?_ (name ▸ closed)
  apply emits_bind (fSync_emits stores enters synced name)
  rintro ⟨res, fp₁⟩ name₁
  dsimp only
  split
  · exact name₁
  apply emits_bind (validate_emits stores name₁)
  intro res _
  split
  · exact name₁
  · exact ⟨trivial, fun _ => name₁⟩

end

/-! ## Opening -/

section
variable (finds : ∀ (o : Outside Name) (a : o.Ans), o.Finds n → E (.answered o a))
include finds

theorem ask_finds {o : Outside Name} (h : o.Finds n) : Emits E (fun _ => True) (ask o) :=
  emits_ask (fun a => finds o a h) fun _ => trivial

variable [DecidableEq Name]

theorem dirRegister_emits : Emits E (fun _ => True) (dirRegister n) := by
  apply emits_bind (ask_finds finds (o := .dirRegister n) rfl)
  intro res _
  split
  · exact ⟨trivial, fun _ => trivial⟩
  · exact trivial

theorem truncate_emits (f : Node) : Emits E (fun _ => True) (truncate n f) := by
  apply emits_bind (emits_store (R := fun _ => True) _ trivial)
  intro _ _
  split
  · apply emits_bind (ask_finds finds (o := .removeChain n) rfl)
    intro res _
    exact ⟨trivial, fun _ => trivial⟩
  · exact trivial

theorem createOrOpen_emits (mode : BYTE) (res : FRESULT) :
    Emits E (fun _ => True) (createOrOpen n mode res) := by
  unfold createOrOpen
  apply emits_bind (emits_load fun _ => trivial)
  intro v _
  split
  · split
    · have create : Emits E (fun _ => True) (if res = .noFile then
          if enqLock v then dirRegister n else pure .tooManyOpenFiles else pure res) := by
        split
        · split
          · exact dirRegister_emits finds
          · exact trivial
        · exact trivial
      exact emits_bind create fun _ _ => trivial
    · split
      · exact trivial
      · split
        · exact trivial
        split
        · exact trivial
        split
        · exact emits_bind (truncate_emits finds _) fun _ _ => trivial
        · exact trivial
  · split
    · exact trivial
    · split
      · exact trivial
      · split
        · exact trivial
        split
        · exact trivial
        · exact trivial

omit [DecidableEq Name] in
theorem followChain_emits (k : Nat) : Emits E (fun _ => True) (followChain n k) := by
  induction k with
  | zero => exact trivial
  | succ k ih =>
    apply emits_bind (ask_finds finds (o := .getFat n) rfl)
    intro f _
    cases f with
    | none => exact ih
    | some f => exact trivial

omit [DecidableEq Name] in
theorem seekEnd_emits (name : fp.name = n) : Emits E (fun r => r.2.name = n) (seekEnd fp) := by
  subst name
  unfold seekEnd
  split
  · apply emits_bind (followChain_emits finds _)
    intro res _
    split
    · exact rfl
    split
    · exact rfl
    split
    · exact rfl
    apply emits_bind (ask_finds finds (o := .diskRead fp.name) rfl)
    intro read _
    apply emits_bind (emits_load fun _ => trivial)
    intro v _
    split
    · exact rfl
    · exact rfl
  · exact rfl

theorem openFound_emits (mode : BYTE) (path : FRESULT) :
    Emits E (fun r => r.2.name = n) (openFound n mode path) := by
  apply emits_bind (emits_load fun _ => trivial)
  intro v _
  apply emits_bind (createOrOpen_emits finds _ _)
  intro r _
  dsimp only
  split
  · exact rfl
  apply emits_bind (emits_load fun _ => trivial)
  intro v _
  split
  · exact rfl
  split
  · exact rfl
  apply emits_bind (emits_store (R := fun _ => True) _ trivial)
  intro _ _
  apply emits_bind (seekEnd_emits finds rfl)
  rintro ⟨res, fp⟩ name
  dsimp only
  split
  · exact name
  · exact name

variable (window : ∀ a : Bool, E (.answered (.window n) a))
include window

theorem fOpen_body (mode : BYTE) : ∃ p, fOpen n mode = noted .open_ n (fun r => (r.1, 0)) p ∧
    Emits E (fun r => r.2.name = n) p := by
  refine ⟨_, rfl, ?_⟩
  apply emits_bind (ask_finds finds (o := .findVolume n) rfl)
  intro res _
  split
  · exact rfl
  apply emits_bind (ask_finds finds (o := .followPath n) rfl)
  intro path _
  apply emits_bind (moveOn_emits window)
  intro _ _
  exact openFound_emits finds _ _

theorem fOpen_emits (returned : ∀ res count, E (.returned .open_ n res count)) (mode : BYTE) :
    Emits E (fun r => r.2.name = n) (fOpen n mode) := by
  obtain ⟨p, same, emits⟩ := fOpen_body finds window mode
  rw [same]
  exact emits_noted emits returned

end

/-! ## The calls they add -/

section
variable [DecidableEq Name] {G : Answers Name}

theorem fOpen_calls (n : Name) (mode : BYTE) (s : Snap Name) : (fOpen n mode).wp (rules G)
    (fun r t => r.2.name = n ∧ calls t.log = (.open_, n, r.1, 0) :: calls s.log) s := by
  obtain ⟨p, same, emits⟩ := fOpen_body (E := Event.Answer) (n := n) (fun _ _ _ => trivial)
    (fun _ => trivial) mode
  rw [same]
  exact emits.wp_calls s

theorem fRead_calls (fp : FIL Name) (btr : Nat) (s : Snap Name) : (fRead fp btr).wp (rules G)
    (fun r t => r.2.1.name = fp.name ∧
      calls t.log = (.read, fp.name, r.1, r.2.2.length) :: calls s.log) s := by
  obtain ⟨p, same, emits⟩ := fRead_body (E := Event.Answer) (fun _ _ _ => trivial)
    (rfl : fp.name = fp.name) btr
  rw [same]
  exact emits.wp_calls s

theorem fWrite_calls (fp : FIL Name) (bytes : List BYTE) (s : Snap Name) :
    (fWrite fp bytes).wp (rules G) (fun r t => r.2.1.name = fp.name ∧
      calls t.log = (.write, fp.name, r.1, r.2.2) :: calls s.log) s := by
  obtain ⟨p, same, emits⟩ := fWrite_body (E := Event.Answer) (fun _ _ _ => trivial)
    (rfl : fp.name = fp.name) bytes
  rw [same]
  exact emits.wp_calls s

theorem fSync_calls (fp : FIL Name) (s : Snap Name) : (fSync fp).wp (rules G)
    (fun r t => r.2.name = fp.name ∧ calls t.log = (.sync, fp.name, r.1, 0) :: calls s.log) s := by
  obtain ⟨p, same, emits⟩ := fSync_body (E := Event.Answer) (fun _ _ _ => trivial)
    (fun _ _ _ => trivial) (rfl : fp.name = fp.name)
  rw [same]
  exact emits.wp_calls s

end

end FatFsParticle.Files
