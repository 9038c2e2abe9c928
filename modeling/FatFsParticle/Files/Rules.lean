import FatFsParticle.Files.Access

/-!
# Rules for the file functions

What the outside may answer is a parameter `G` of the rules; what they promise of a
program holds of its runs against every host whose answers are of that kind.
-/

namespace FatFsParticle.Files
open Interact Program

variable {Name σ α β : Type}

/-- What may be answered from outside. -/
abbrev Answers (Name : Type) := (o : Outside Name) → o.Ans → Prop

/-- A world without its outside. -/
structure Snap (Name : Type) where
  vol : Volume Name
  log : List (Event Name)

namespace Snap

def withVol (s : Snap Name) (v : Volume Name) : Snap Name := { s with vol := v }
def logged (s : Snap Name) (e : Event Name) : Snap Name := { s with log := e :: s.log }

@[simp] theorem withVol_vol (s : Snap Name) (v : Volume Name) : (s.withVol v).vol = v := rfl
@[simp] theorem logged_vol (s : Snap Name) (e : Event Name) : (s.logged e).vol = s.vol := rfl
@[simp] theorem logged_log (s : Snap Name) (e : Event Name) : (s.logged e).log = e :: s.log := rfl

end Snap

def rules (G : Answers Name) : Rules (@Request.Ans Name) (Snap Name) where
  allowed _ _ := True
  step
    | s, .load, v, t => v = s.vol ∧ t = s
    | s, .store f, _, t => t = s.withVol (f s.vol)
    | s, .outside o, a, t => G o a ∧ t = s.logged (.answered o a)
    | s, .returned c n res count, _, t => t = s.logged (.returned c n res count)

section
variable (G : Answers Name) (s : Snap Name)

theorem wp_load (Q : Volume Name → Snap Name → Prop) : load.wp (rules G) Q s ↔ Q s.vol s := by
  constructor
  · intro h
    exact h.2 _ s ⟨rfl, rfl⟩
  · intro h
    refine ⟨trivial, ?_⟩
    rintro _ _ ⟨rfl, rfl⟩
    exact h

theorem wp_store (f : Volume Name → Volume Name) (Q : Unit → Snap Name → Prop) :
    (store f).wp (rules G) Q s ↔ Q () (s.withVol (f s.vol)) := by
  constructor
  · intro h
    exact h.2 () _ rfl
  · intro h
    refine ⟨trivial, ?_⟩
    rintro ⟨⟩ _ rfl
    exact h

theorem wp_ask (o : Outside Name) (Q : o.Ans → Snap Name → Prop) :
    (ask o).wp (rules G) Q s ↔ ∀ a, G o a → Q a (s.logged (.answered o a)) := by
  constructor
  · intro h a good
    exact h.2 a _ ⟨good, rfl⟩
  · intro h
    refine ⟨trivial, ?_⟩
    rintro a _ ⟨good, rfl⟩
    exact h a good

theorem wp_returned (c : Call) (n : Name) (res : FRESULT) (count : Nat)
    (Q : Unit → Snap Name → Prop) :
    (returned c n res count).wp (rules G) Q s ↔ Q () (s.logged (.returned c n res count)) := by
  constructor
  · intro h
    exact h.2 () _ rfl
  · intro h
    refine ⟨trivial, ?_⟩
    rintro ⟨⟩ _ rfl
    exact h

theorem wp_noted (c : Call) (n : Name) (out : α → FRESULT × Nat) (p : Prog Name α)
    (Q : α → Snap Name → Prop) : (noted c n out p).wp (rules G) Q s ↔
      p.wp (rules G) (fun a t => Q a (t.logged (.returned c n (out a).1 (out a).2))) s := by
  unfold noted
  simp only [wp_bind, wp_returned, wp_pure]

theorem wp_any {p : Prog Name α} {Q : α → Snap Name → Prop} (h : ∀ a t, Q a t) :
    p.wp (rules G) Q s := by
  induction p generalizing s with
  | ret a => exact h a s
  | call r k ih => exact ⟨trivial, fun x t _ => ih x t⟩
  | stuck => trivial

end

/-! ## Worlds -/

def World.snap (w : World Name σ) : Snap Name := ⟨w.vol, w.log⟩

/-- The world with nothing noted yet. -/
def World.fresh (w : World Name σ) : World Name σ := { w with log := [] }

variable {G : Answers Name} {host : Host Name σ}

theorem host_simulates (within : ∀ o e, G o (host o e).1) :
    Simulates (World.handle host) (rules G) (fun w s => w.snap = s) := by
  rintro w _ rfl r -
  cases r with
  | load => exact ⟨w.snap, ⟨rfl, rfl⟩, rfl⟩
  | store f => exact ⟨_, rfl, rfl⟩
  | outside o => exact ⟨_, ⟨within o _, rfl⟩, rfl⟩
  | returned c n res count => exact ⟨_, rfl, rfl⟩

theorem exec_rules {p : Prog Name α} {Q : α → Snap Name → Prop} {w w' : World Name σ} {a : α}
    (within : ∀ o e, G o (host o e).1) (h : p.wp (rules G) Q w.snap)
    (run : exec host p w = some (a, w')) : Q a w'.snap := by
  obtain ⟨t, holds, rfl⟩ := run_sound (host_simulates within) rfl h run
  exact holds

/-- Answers of every kind. -/
def anything : Answers Name := fun _ _ => True

theorem within_anything (host : Host Name σ) (o : Outside Name) (e : σ) :
    anything o (host o e).1 := trivial

/-! ## What a program adds to the log -/

/-- Whatever is answered, the request adds no event to the log but those of `E`. -/
def Request.Emits (E : Event Name → Prop) : Request Name → Prop
  | .load | .store _ => True
  | .outside o => ∀ a, E (.answered o a)
  | .returned c n res count => E (.returned c n res count)

/-- So does the program, and it comes to its end, with a result of `R`. -/
def Emits (E : Event Name → Prop) (R : α → Prop) : Prog Name α → Prop
  | .ret a => R a
  | .call r k => r.Emits E ∧ ∀ x, Emits E R (k x)
  | .stuck => False

variable {E : Event Name → Prop} {R : α → Prop} {R' : β → Prop}

theorem emits_load {R : Volume Name → Prop} (h : ∀ v, R v) : Emits E R load := ⟨trivial, h⟩

theorem emits_store {R : Unit → Prop} (f : Volume Name → Volume Name) (h : R ()) :
    Emits E R (store f) := ⟨trivial, fun _ => h⟩

theorem emits_ask {o : Outside Name} {R : o.Ans → Prop} (h : ∀ a, E (.answered o a)) (hR : ∀ a, R a) :
    Emits E R (ask o) := ⟨h, hR⟩

theorem emits_bind {p : Prog Name α} {f : α → Prog Name β} (hp : Emits E R p)
    (hf : ∀ a, R a → Emits E R' (f a)) : Emits E R' (p >>= f) := by
  induction p with
  | ret a => exact hf a hp
  | call r k ih => exact ⟨hp.1, fun x => ih x (hp.2 x)⟩
  | stuck => exact hp

theorem emits_noted {c : Call} {n : Name} {out : α → FRESULT × Nat} {p : Prog Name α}
    (hp : Emits E R p) (h : ∀ res count, E (.returned c n res count)) :
    Emits E R (noted c n out p) :=
  emits_bind hp fun _ holds => ⟨h _ _, fun _ => holds⟩

/-- The events of `new` that are not in `old` are of `E`. -/
def Adds (E : Event Name → Prop) (old new : List (Event Name)) : Prop :=
  ∃ es, new = es ++ old ∧ ∀ e ∈ es, E e

theorem Emits.wp {p : Prog Name α} (h : Emits E R p) (s : Snap Name) :
    p.wp (rules G) (fun a t => R a ∧ Adds E s.log t.log) s := by
  induction p generalizing s with
  | ret a => exact ⟨h, [], rfl, fun e mem => by cases mem⟩
  | call r k ih =>
    refine ⟨trivial, ?_⟩
    intro x t step
    have further {e : Event Name} (of : E e) :
        (k x).wp (rules G) (fun a t => R a ∧ Adds E s.log t.log) (s.logged e) := by
      apply wp_mono (ih x (h.2 x) _)
      rintro _ t ⟨holds, es, log, only⟩
      refine ⟨holds, es ++ [e], by rw [log]; simp, ?_⟩
      intro e' mem
      rcases List.mem_append.1 mem with mem | mem
      · exact only e' mem
      · exact List.mem_singleton.1 mem ▸ of
    cases r with
    | load =>
      obtain ⟨-, rfl⟩ := step
      exact ih x (h.2 x) t
    | store f =>
      cases step
      exact ih x (h.2 x) (s.withVol (f s.vol))
    | returned c n res count =>
      cases step
      exact further h.1
    | outside o =>
      obtain ⟨-, rfl⟩ := step
      exact further (h.1 x)
  | stuck => trivial

theorem Emits.halts {p : Prog Name α} (h : Emits E R p) : p.Halts := by
  induction p with
  | ret a => trivial
  | call r k ih => exact fun x => ih x (h.2 x)
  | stuck => exact h

theorem adds_cons {e : Event Name} (h : E e) (log : List (Event Name)) : Adds E log (e :: log) :=
  ⟨[e], rfl, fun _ mem => List.mem_singleton.1 mem ▸ h⟩

theorem Adds.trans {a b c : List (Event Name)} (h : Adds E a b) (h' : Adds E b c) : Adds E a c := by
  obtain ⟨es, rfl, only⟩ := h
  obtain ⟨es', rfl, only'⟩ := h'
  refine ⟨es' ++ es, (List.append_assoc _ _ _).symm, ?_⟩
  intro e mem
  rcases List.mem_append.1 mem with mem | mem
  · exact only' e mem
  · exact only e mem

theorem Adds.mono {E' : Event Name → Prop} {old new : List (Event Name)} (h : Adds E old new)
    (le : ∀ e, E e → E' e) : Adds E' old new := by
  obtain ⟨es, log, only⟩ := h
  exact ⟨es, log, fun e mem => le e (only e mem)⟩

theorem Adds.all {log : List (Event Name)} (h : Adds E [] log) : ∀ e ∈ log, E e := by
  obtain ⟨es, rfl, only⟩ := h
  rwa [List.append_nil]

theorem Adds.grows {old new : List (Event Name)} (h : Adds E old new) (e : Event Name) (mem : e ∈ old) :
    e ∈ new := by
  obtain ⟨es, rfl, -⟩ := h
  exact List.mem_append_right es mem

/-- What is not of `E` was there before. -/
theorem Adds.old {old new : List (Event Name)} (h : Adds E old new) {e : Event Name} (mem : e ∈ new)
    (other : ¬E e) : e ∈ old := by
  obtain ⟨es, rfl, only⟩ := h
  exact (List.mem_append.1 mem).resolve_left fun new => other (only e new)

theorem exec_bind {p : Prog Name α} {f : α → Prog Name β} {w w₁ : World Name σ} {a : α}
    (run : exec host p w = some (a, w₁)) : exec host (p >>= f) w = exec host (f a) w₁ := by
  unfold exec at run ⊢
  rw [run_bind, run]
  rfl

theorem exec_total {p : Prog Name α} {Q : α → Snap Name → Prop} {w : World Name σ} (halts : p.Halts)
    (within : ∀ o e, G o (host o e).1) (h : p.wp (rules G) Q w.snap) :
    ∃ a w', exec host p w = some (a, w') ∧ Q a w'.snap := by
  obtain ⟨⟨a, w'⟩, run⟩ := halts_run (World.handle host) halts w
  exact ⟨a, w', run, exec_rules within h run⟩

theorem exec_adds {p : Prog Name α} {w w' : World Name σ} {a : α} (run : exec host p w = some (a, w')) :
    Adds (fun _ => True) w.log w'.log := by
  apply run_steps (T := fun w w' : World Name σ => Adds (fun _ => True) w.log w'.log) _ _ _ run
  · exact fun w => ⟨[], rfl, fun _ _ => trivial⟩
  · exact fun _ _ _ => Adds.trans
  · intro r w
    cases r with
    | load | store => exact ⟨[], rfl, fun _ _ => trivial⟩
    | outside | returned => exact adds_cons trivial _

/-- No end of a file function. -/
def Event.Answer : Event Name → Prop
  | .answered _ _ => True
  | .returned _ _ _ _ => False

/-- What a file function adds to the log: answers, and last how it ended. -/
theorem Emits.wp_noted {c : Call} {n : Name} {out : α → FRESULT × Nat} {p : Prog Name α}
    (h : Emits E R p) (s : Snap Name) : (noted c n out p).wp (rules G) (fun a t => R a ∧
      ∃ log, t.log = .returned c n (out a).1 (out a).2 :: log ∧ Adds E s.log log) s := by
  rw [Files.wp_noted]
  apply wp_mono (h.wp s)
  rintro a t ⟨holds, adds⟩
  exact ⟨holds, t.log, rfl, adds⟩

/-! ## Calls -/

/-- The calls of file functions, newest first: how each one ended. -/
def calls (log : List (Event Name)) : List (Call × Name × FRESULT × Nat) :=
  log.filterMap fun
    | .returned c n res count => some (c, n, res, count)
    | .answered _ _ => none

@[simp] theorem calls_returned (c : Call) (n : Name) (res : FRESULT) (count : Nat)
    (log : List (Event Name)) : calls (.returned c n res count :: log) = (c, n, res, count) :: calls log :=
  rfl

theorem calls_append (new old : List (Event Name)) : calls (new ++ old) = calls new ++ calls old :=
  List.filterMap_append

theorem mem_calls {c : Call} {n : Name} {res : FRESULT} {count : Nat} {log : List (Event Name)} :
    (c, n, res, count) ∈ calls log ↔ .returned c n res count ∈ log := by
  unfold calls
  rw [List.mem_filterMap]
  constructor
  · rintro ⟨e, mem, same⟩
    cases e with
    | answered => cases same
    | returned =>
      cases same
      exact mem
  · intro mem
    exact ⟨_, mem, rfl⟩

theorem Adds.same_calls {old new : List (Event Name)} (h : Adds Event.Answer old new) :
    calls new = calls old := by
  obtain ⟨es, rfl, only⟩ := h
  induction es with
  | nil => rfl
  | cons e es ih =>
    have answer := only e List.mem_cons_self
    cases e with
    | answered o a => exact ih fun e mem => only e (List.mem_cons_of_mem _ mem)
    | returned => exact answer.elim

/-- A file function adds one call. -/
theorem Emits.wp_calls {c : Call} {n : Name} {out : α → FRESULT × Nat} {p : Prog Name α}
    (h : Emits Event.Answer R p) (s : Snap Name) : (noted c n out p).wp (rules G)
      (fun a t => R a ∧ calls t.log = (c, n, out a) :: calls s.log) s := by
  apply wp_mono (h.wp_noted s)
  rintro a t ⟨holds, log, same, adds⟩
  rw [same, calls_returned, adds.same_calls]
  exact ⟨holds, rfl⟩

/-! ## A small world -/

/-- A file of a few bytes in one cluster. -/
def Node.sample (bytes : List BYTE) : Node where
  attr := amArc
  size := BitVec.ofNat 32 bytes.length
  clusters := 1
  data := Cells.put (fun _ => 0) 0 bytes
  ctr := 0
  disk := some bytes.length

/-- An outside without errors, but for drivers that answer `GET_BLOCK_SIZE` with `block`. -/
def sampleHost (block : DRESULT × Option DWORD) : Host Name σ
  | .findVolume _, e | .dirRegister _, e | .removeChain _, e | .validate _, e => (.ok, e)
  | .followPath _, e => (⟨.ok, by decide⟩, e)
  | .getFat _, e => (none, e)
  | .createChain _, e => (.done, e)
  | .diskRead _, e | .window _, e | .moveWindow _, e | .errorCallback _, e => (true, e)
  | .diskWrite _ _, e | .syncFs _, e => (none, e)
  | .diskIoctl _ _, e => (block, e)

/-- A volume of the given files, with single-sector clusters. -/
def sampleWorld (files : Name → Option (List BYTE)) : World Name Unit where
  vol :=
    { csize := fun _ => 1
      csize_pos := fun _ => Nat.one_pos
      node := fun n => (files n).map Node.sample
      scrap := fun _ => 0
      entries := 0 }
  log := []
  env := ()

variable (host) in
/-- A run by what is computed of its end. -/
theorem exec_seen (p : Prog Name α) (w : World Name σ) (g : α × World Name σ → β) (b : β)
    (h : (exec host p w).map g = some b) : ∃ a w', exec host p w = some (a, w') ∧ g (a, w') = b := by
  obtain ⟨⟨a, w'⟩, run, same⟩ := Option.map_eq_some_iff.1 h
  exact ⟨a, w', run, same⟩

end FatFsParticle.Files
