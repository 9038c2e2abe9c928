import FatFsParticle.Sdspi.Bounds
import FatFsParticle.Sdspi.Guard
import FatFsParticle.Sdspi.Listen

/-!
# When `read()` comes back

Each turn of the loop of `read()` sends one CMD17. It counts down only where a block
came in; where CMD17 was rejected it calls `initialize()` and goes on whatever that
returned. So the loop ends exactly where the card delivers all blocks in the end. What
`read()` does is told from the log of its run: the blocks that came in, and the commands
sent after a re-initialisation that failed.
-/

namespace FatFsParticle.Sdspi
open Interact Program

variable {σ : Type} {b : Board σ} {m m' : Machine σ}

/-- How a turn ends: with a block, with CMD17 accepted and no block, or with what the
`initialize()` after a rejected CMD17 returned. -/
inductive Turn where
  | block (bytes : List BYTE)
  | empty
  | again (st : DSTATUS)
  deriving DecidableEq, Repr

/-- What remains of `count`. -/
def Turn.left (count : UINT) : Turn → UINT
  | block _ => count - 1
  | _ => count

def turn (fuel : Nat) (sector : DWORD) : Prog Turn := do
  let res ← sendCmd fuel cmd17 sector
  if res = 0 then do
    let block ← rcvrDatablock fuel 512
    pure (block.elim .empty .block)
  else do
    deselect
    unlock
    let st ← initializeCard fuel
    lock
    pure (.again st)

/-- The turns the loop makes, as long as `count` is not 0. -/
def takeTurns (fuel : Nat) (sector : DWORD) : Nat → UINT → Prog (List Turn)
  | 0, _ => .stuck
  | turns + 1, count =>
    if count = 0 then pure []
    else do
      let t ← turn fuel sector
      let ts ← takeTurns fuel sector turns (t.left count)
      pure (t :: ts)

/-- The buffer after the turns, with `read` blocks stored before them. -/
def gather : List Turn → UINT → List BYTE → List BYTE
  | [], _, buff => buff
  | .block bytes :: ts, read, buff => gather ts (read + 1) (blit buff (512 * read).toNat bytes)
  | _ :: ts, read, buff => gather ts read buff

def blocks : List Turn → Nat
  | [] => 0
  | .block _ :: ts => blocks ts + 1
  | _ :: ts => blocks ts

/-- The loop is its turns. -/
theorem readLoop_eq (fuel : Nat) (sector : DWORD) (turns : Nat) (read count : UINT)
    (buff : List BYTE) : readLoop fuel sector turns read count buff =
      (takeTurns fuel sector turns count >>= fun ts => pure (0, gather ts read buff)) := by
  induction turns generalizing read count buff with
  | zero => rfl
  | succ turns ih =>
    unfold readLoop takeTurns turn
    by_cases zero : count = 0
    · subst zero
      rfl
    · rw [if_neg zero, if_neg zero, bind_assoc, bind_assoc]
      congr 1
      funext res
      rw [bind_ite]
      split
      · rw [bind_assoc]
        congr 1
        funext block
        cases block with
        | some bytes =>
          dsimp only [Option.elim]
          rw [ih, pure_bind, bind_assoc]
          rfl
        | none =>
          dsimp only [Option.elim]
          rw [ih, pure_bind, bind_assoc]
          rfl
      · simp only [bind_assoc, pure_bind, ih]
        rfl

/-! ## Turns of a run -/

/-- From `m` the turns `ts` may follow each other, each with bound enough. -/
inductive Turns (b : Board σ) (sector : DWORD) : Machine σ → List Turn → Machine σ → Prop
  | nil (m : Machine σ) : Turns b sector m [] m
  | cons {fuel : Nat} {t : Turn} {ts : List Turn} {m m₁ m' : Machine σ}
      (one : exec b (turn fuel sector) m = some (t, m₁)) (rest : Turns b sector m₁ ts m') :
      Turns b sector m (t :: ts) m'

theorem turn_below (sector : DWORD) {n n' : Nat} (h : n ≤ n') :
    (turn n sector).Below (turn n' sector) := by
  apply below_bind (sendCmd_below cmd17 sector h)
  intro res
  apply below_ite
  · exact below_bind (rcvrDatablock_below 512 h) fun _ => below_refl _
  apply below_bind (below_refl _)
  intro _
  apply below_bind (below_refl _)
  intro _
  exact below_bind (initializeCard_below h) fun _ => below_refl _

theorem takeTurns_below (sector : DWORD) (count : UINT) {n n' k k' : Nat} (h : n ≤ n')
    (h' : k ≤ k') : (takeTurns n sector k count).Below (takeTurns n' sector k' count) := by
  induction k generalizing k' count with
  | zero => trivial
  | succ k ih =>
    obtain ⟨j, rfl⟩ := Nat.exists_eq_add_of_le' (Nat.lt_of_lt_of_le (Nat.zero_lt_succ k) h')
    unfold takeTurns
    apply below_ite (below_refl _)
    apply below_bind (turn_below sector h)
    intro t
    exact below_bind (ih (t.left count) (by omega)) fun _ => below_refl _

/-- The blocks of a turn, and what remains, are what there was to receive. -/
theorem blocks_cons {t : Turn} {ts : List Turn} {count : UINT} (some_ : count ≠ 0)
    (rest : blocks ts = (t.left count).toNat) : blocks (t :: ts) = count.toNat := by
  have positive : count.toNat ≠ 0 := fun zero => some_ (BitVec.eq_of_toNat_eq zero)
  cases t with
  | block bytes =>
    have less := toNat_pred some_
    simp only [Turn.left] at rest
    simp only [blocks, rest, less]
    omega
  | empty => exact rest
  | again st => exact rest

theorem takeTurns_succ {fuel turns : Nat} {sector : DWORD} {count : UINT} {ts : List Turn}
    (h : exec b (takeTurns fuel sector (turns + 1) count) m = some (ts, m')) :
    (count = 0 ∧ ts = [] ∧ m' = m) ∨
    (count ≠ 0 ∧ ∃ t m₁ rest, exec b (turn fuel sector) m = some (t, m₁) ∧
      exec b (takeTurns fuel sector turns (t.left count)) m₁ = some (rest, m') ∧ ts = t :: rest) := by
  unfold takeTurns at h
  by_cases zero : count = 0
  · rw [if_pos zero] at h
    cases h
    exact .inl ⟨zero, rfl, rfl⟩
  · rw [if_neg zero] at h
    obtain ⟨t, m₁, one, h⟩ := exec_bind_some.1 h
    obtain ⟨rest, m₂, more, h⟩ := exec_bind_some.1 h
    cases h
    exact .inr ⟨zero, t, m₁, rest, one, more, rfl⟩

/-- Where the loop ends, all blocks have come in. -/
theorem takeTurns_turns {fuel turns : Nat} {sector : DWORD} {count : UINT} {ts : List Turn}
    (h : exec b (takeTurns fuel sector turns count) m = some (ts, m')) :
    Turns b sector m ts m' ∧ blocks ts = count.toNat := by
  induction turns generalizing m count ts with
  | zero => cases h
  | succ turns ih =>
    rcases takeTurns_succ h with ⟨rfl, rfl, rfl⟩ | ⟨some_, t, m₁, rest, one, more, rfl⟩
    · exact ⟨.nil _, rfl⟩
    · obtain ⟨made, all⟩ := ih more
      exact ⟨.cons one made, blocks_cons some_ all⟩

theorem Turns.log {sector : DWORD} {ts : List Turn} (h : Turns b sector m ts m') :
    m.log <:+ m'.log := by
  induction h with
  | nil m => exact List.suffix_rfl
  | cons one _ ih =>
    exact (exec_log one).trans ih

/-- Turns that bring all the blocks, or the first of them, are those of the loop. -/
theorem Turns.take {sector : DWORD} {count : UINT} {ts : List Turn} (h : Turns b sector m ts m')
    (enough : count.toNat ≤ blocks ts) : ∃ fuel turns first t, t.log <:+ m'.log ∧
      exec b (takeTurns fuel sector turns count) m = some (first, t) := by
  induction h generalizing count with
  | nil m =>
    have zero : count = 0 := BitVec.eq_of_toNat_eq (Nat.le_zero.1 enough)
    subst zero
    exact ⟨0, 1, [], m, List.suffix_rfl, rfl⟩
  | @cons fuel t ts m m₁ m' one rest ih =>
    by_cases zero : count = 0
    · subst zero
      exact ⟨0, 1, [], m, (Turns.cons one rest).log, rfl⟩
    · have enough₁ : (t.left count).toNat ≤ blocks ts := by
        cases t with
        | block bytes =>
          have less := toNat_pred zero
          simp only [blocks] at enough
          simp only [Turn.left, less]
          omega
        | empty => exact enough
        | again st => exact enough
      obtain ⟨fuel', turns, first, u, part, run⟩ := ih enough₁
      have one' := run_below (turn_below sector (Nat.le_max_left fuel fuel')) one
      have run' := run_below (takeTurns_below sector (t.left count)
        (Nat.le_max_right fuel fuel') (Nat.le_refl turns)) run
      refine ⟨max fuel fuel', turns + 1, t :: first, u, part, ?_⟩
      unfold takeTurns
      rw [if_neg zero]
      exact exec_bind_some.2 ⟨t, m₁, one', exec_bind_some.2 ⟨first, u, run', rfl⟩⟩

/-! ## What a listener hears of them -/

namespace Ear

variable {P : DWORD → Prop} {e : Ear}

theorem wp_turn (fuel : Nat) {sector : DWORD} (allowed : P sector) (frame : e.heard.frame = []) :
    (turn fuel sector).wp (rules P) (fun t e' => ∃ cs, Took cs (blocks [t]) e e' ∧
      e'.heard.burst.length ≠ 512 ∧ (blocks [t] ≠ 0 → (cmd17, sector) ∈ cs)) e := by
  unfold turn
  apply wp_seq (wp_sendCmd fuel (by decide) (by decide) (fun _ => allowed) frame)
  rintro res e₁ ⟨cs, said, -, sent⟩
  split
  · rename_i ok
    subst ok
    have out : cs = [(cmd17, sector)] := by
      rcases sent (by decide) with out | ⟨-, no⟩
      · exact out
      · cases no
    subst out
    apply wp_seq (wp_rcvrDatablock fuel said.frame)
    rintro block e₂ ⟨took, burst⟩
    have took := said.took.trans took
    cases block with
    | some bytes => exact ⟨_, took, burst, fun _ => by simp⟩
    | none => exact ⟨_, took, burst, fun no => absurd rfl no⟩
  · apply wp_seq (Chats.deselect (i := 19) (K := NoRead) (by decide) e₁ said.frame said.burst)
    rintro _ e₂ ⟨cs₂, said₂, -⟩
    apply wp_seq (Chats.unlock (K := NoRead) e₂ said₂.frame said₂.burst)
    rintro _ e₃ ⟨cs₃, said₃, -⟩
    apply wp_seq (Chats.initializeCard fuel e₃ said₃.frame said₃.burst)
    rintro st e₄ ⟨cs₄, said₄, -⟩
    apply wp_seq (Chats.lock (K := NoRead) e₄ said₄.frame said₄.burst)
    rintro _ e₅ ⟨cs₅, said₅, -⟩
    have all := (((said.trans said₂).trans said₃).trans said₄).trans said₅
    refine ⟨_, all.took, ?_, fun no => absurd rfl no⟩
    have few := all.burst
    omega

theorem wp_takeTurns (fuel : Nat) (sector : DWORD) (turns : Nat) {count : UINT}
    (allowed : count ≠ 0 → P sector) (frame : e.heard.frame = [])
    (burst : e.heard.burst.length ≠ 512) :
    (takeTurns fuel sector turns count).wp (rules P) (fun ts e' => ∃ cs, Took cs (blocks ts) e e' ∧
      e'.heard.burst.length ≠ 512 ∧ (blocks ts ≠ 0 → (cmd17, sector) ∈ cs) ∧
      blocks ts = count.toNat) e := by
  induction turns generalizing e count with
  | zero => trivial
  | succ turns ih =>
    unfold takeTurns
    by_cases zero : count = 0
    · subst zero
      exact ⟨[], ⟨frame, rfl, rfl⟩, burst, fun no => absurd rfl no, rfl⟩
    · rw [if_neg zero]
      apply wp_seq (wp_turn fuel (allowed zero) frame)
      rintro t e₁ ⟨cs, took, burst₁, sent⟩
      apply wp_seq (ih (fun _ => allowed zero) took.frame burst₁)
      rintro ts e₂ ⟨cs', took', burst₂, sent', all⟩
      have sum : blocks (t :: ts) = blocks [t] + blocks ts := by
        cases t <;> simp [blocks, Nat.add_comm]
      refine ⟨cs' ++ cs, sum ▸ took.trans took', burst₂, ?_, blocks_cons zero all⟩
      intro some_
      rw [sum] at some_
      by_cases now : blocks [t] = 0
      · exact List.mem_append_left _ (sent' (by omega))
      · exact List.mem_append_right _ (sent now)

/-- Taking the bus exchanges no byte and keeps the card type. -/
theorem wp_lock {Q : Unit → Ear → Prop}
    (h : Q () { e with drv := { e.drv with busy := true, busyCheck := true } }) :
    lock.wp (rules P) Q e := by
  have silent {r : Request} {Q : r.Ans → Ear → Prop} {e e' : Ear} (allowed : (rules P).allowed e r)
      (only : ∀ x e'', (rules P).step e r x e'' → e'' = e') (h : ∀ x, Q x e') :
      (ask r).wp (rules P) Q e := by
    refine ⟨allowed, ?_⟩
    intro x e'' step
    rw [only x e'' step]
    exact h x
  unfold lock acquire
  rw [wp_bind, wp_bind]
  apply wp_load
  apply wp_mono (Q := fun _ e' => e' = e)
  · cases e.drv.mutex with
    | some k => exact silent trivial (fun _ _ step => step) fun _ => rfl
    | none => rfl
  rintro _ _ rfl
  rw [wp_bind]
  refine silent trivial (fun _ _ step => step) fun _ => ?_
  unfold setSPI
  rw [wp_bind]
  apply wp_load
  iterate 3
    rw [wp_bind]
    refine silent trivial (fun _ _ step => step) fun _ => ?_
  exact silent trivial (fun _ _ step => step) fun _ => h

theorem wp_mark {k : Mark} {Q : Unit → Ear → Prop} (h : Q () { e with heard := e.heard.pause }) :
    (mark k).wp (rules P) Q e := by
  refine ⟨trivial, ?_⟩
  rintro _ _ rfl
  exact h

theorem wp_cardPresent {Q : Bool → Ear → Prop} (same : ∀ present, Q present e)
    (looked : ∀ present, Q present { e with heard := e.heard.pause }) :
    cardPresent.wp (rules P) Q e := by
  unfold cardPresent
  rw [wp_bind]
  apply wp_load
  split
  · rw [wp_bind]
    refine ⟨trivial, ?_⟩
    rintro level e' rfl
    exact looked _
  · exact same _

theorem wp_deselect (frame : e.heard.frame = []) (burst : e.heard.burst.length ≠ 512) :
    deselect.wp (rules P) (fun _ e' => Took [] 0 e e') e := by
  unfold deselect deassertCS
  apply wp_seq (P := fun _ e' => e' = e)
  · rw [wp_bind]
    apply wp_load
    exact ⟨trivial, fun _ _ step => step⟩
  rintro _ e₀ rfl
  rw [wp_bind]
  apply wp_filler frame
  intro y e₁ frame₁ commands₁ burst₁ blocks₁
  refine ⟨frame₁, commands₁, ?_⟩
  rw [blocks₁, if_neg]
  · rfl
  · rintro ⟨length, -⟩
    rw [List.length_append, List.length_singleton] at length
    omega

/-- CMD17 goes out with the address converted at the start, and `RES_OK` says that all the
blocks came in. -/
theorem wp_read (fuel : Nat) (buff : List BYTE) (sector : DWORD) {count : UINT}
    (frame : e.heard.frame = []) (allowed : count ≠ 0 → P (cardAddress e.drv.cardType sector)) :
    (read fuel buff sector count).wp (rules P) (fun x e' =>
      (x.1 = .notrdy ∧ e'.heard.blocks = e.heard.blocks) ∨
      (x.1 = .ok ∧ e'.heard.blocks = e.heard.blocks + count.toNat)) e := by
  -- what the body establishes survives giving back the bus
  let Done (x : DRESULT × List BYTE) (e' : Ear) : Prop :=
    (x.1 = .notrdy ∧ e'.heard.blocks = e.heard.blocks) ∨
    (x.1 = .ok ∧ e'.heard.blocks = e.heard.blocks + count.toNat)
  have body {e' : Ear} (type : e'.drv.cardType = e.drv.cardType) (frame : e'.heard.frame = [])
      (burst : e'.heard.burst = []) (heard : e'.heard.blocks = e.heard.blocks) (present : Bool) :
      (do
        let d ← load
        if !present || d.status &&& staNoinit != 0 then pure (.notrdy, buff)
        else do
          let d ← load
          let r ← readLoop fuel (cardAddress d.cardType sector) fuel 0 count buff
          deselect
          pure (if r.1 ≠ 0 then .error else .ok, r.2) : Prog (DRESULT × List BYTE)).wp (rules P)
        (fun x e'' => e''.heard.frame = [] ∧ Done x e'') e' := by
    rw [wp_bind]
    apply wp_load
    split
    · exact ⟨frame, .inl ⟨rfl, heard⟩⟩
    rw [wp_bind]
    apply wp_load
    rw [type, readLoop_eq, bind_assoc]
    apply wp_seq (wp_takeTurns fuel _ fuel allowed frame (by rw [burst]; decide))
    rintro ts e₁ ⟨cs, took, burst₁, -, all⟩
    rw [pure_bind]
    apply wp_seq (wp_deselect took.frame burst₁)
    rintro _ e₂ took₂
    refine ⟨took₂.frame, .inr ⟨rfl, ?_⟩⟩
    rw [took₂.blocks, took.blocks, heard, all]
    rfl
  unfold read member lockGuard
  rw [wp_bind]
  apply wp_mark
  rw [wp_bind, wp_bind]
  apply wp_lock
  apply wp_seq
  · rw [wp_bind]
    apply wp_cardPresent
    · exact body rfl frame rfl rfl
    · exact body rfl frame rfl rfl
  · rintro x e₂ ⟨frame₂, done⟩
    apply wp_seq (Chats.unlock (K := NoRead) e₂ frame₂ (Nat.le_refl _))
    rintro _ e₃ ⟨cs, said, -⟩
    rw [wp_pure, wp_bind]
    apply wp_mark
    change x.1 = .notrdy ∧ e₃.heard.blocks = _ ∨ x.1 = .ok ∧ e₃.heard.blocks = _
    rw [said.blocks]
    exact done

end Ear

/-! ## `read()` -/

/-- The check at the start of `read()` finds a card, and the driver initialised. -/
def Machine.ready (b : Board σ) (m : Machine σ) : Bool :=
  (m.readEntered b).1 && m.drv.status &&& staNoinit == 0

/-- Past the check, `read()` does what its turns do, and gives `RES_OK`. -/
theorem exec_read_ready {fuel : Nat} {buff : List BYTE} {sector : DWORD} {count : UINT}
    (ready : m.ready b = true) {x : DRESULT × List BYTE} :
    exec b (read fuel buff sector count) m = some (x, m') ↔
      ∃ ts t, exec b (takeTurns fuel (cardAddress m.drv.cardType sector) fuel count)
        (m.readEntered b).2 = some (ts, t) ∧ x = (.ok, gather ts 0 buff) ∧
        ∃ u, exec b deselect t = some ((), u) ∧ m' = u.unlocked.marked (.leave .read) := by
  have found : (m.readEntered b).1 = true ∧ m.drv.status &&& staNoinit = 0 := by
    simpa [Machine.ready] using ready
  let body : Prog (DRESULT × List BYTE) := do
    let present ← cardPresent
    let d ← load
    if !present || d.status &&& staNoinit != 0 then pure (.notrdy, buff)
    else do
      let d ← load
      let left ← readLoop fuel (cardAddress d.cardType sector) fuel 0 count buff
      deselect
      pure (if left.1 ≠ 0 then .error else .ok, left.2)
  have entered : exec b body (m.marked (.enter .read)).locked =
      exec b (do
        let ts ← takeTurns fuel (cardAddress m.drv.cardType sector) fuel count
        deselect
        pure (.ok, gather ts 0 buff)) (m.readEntered b).2 := by
    simp only [body, exec_bind, exec_cardPresent, Option.bind_some, exec_load]
    change exec b (if (!(m.readEntered b).1 || (m.readEntered b).2.drv.status &&& staNoinit != 0) = true
      then _ else _) (m.readEntered b).2 = _
    have past : (!(m.readEntered b).1 || (m.readEntered b).2.drv.status &&& staNoinit != 0) = false := by
      rw [readEntered_drv]
      simpa using found
    rw [past, if_neg Bool.false_ne_true]
    simp only [exec_bind, exec_load, Option.bind_some, readLoop_eq, readEntered_drv]
    cases exec b (takeTurns fuel (cardAddress m.drv.cardType sector) fuel count)
      (m.readEntered b).2 with
    | none => rfl
    | some x => rfl
  constructor
  · intro whole
    obtain ⟨v, guarded, rfl⟩ := exec_member.1 whole
    obtain ⟨w, run, rfl⟩ := exec_lockGuard.1 guarded
    change exec b body _ = _ at run
    rw [entered] at run
    obtain ⟨ts, t, took, run⟩ := exec_bind_some.1 run
    obtain ⟨_, u, off, done⟩ := exec_bind_some.1 run
    cases done
    exact ⟨ts, t, took, rfl, _, off, rfl⟩
  · rintro ⟨ts, t, took, rfl, u, off, rfl⟩
    have run : exec b body (m.marked (.enter .read)).locked = some ((.ok, gather ts 0 buff), u) := by
      rw [entered]
      exact exec_bind_some.2 ⟨ts, t, took, exec_bind_some.2 ⟨(), u, off, rfl⟩⟩
    exact exec_member.2 ⟨_, exec_lockGuard.2 ⟨u, run, rfl⟩, rfl⟩

/-- The newest event is the end of an `initialize()` that failed or found no card. -/
def reinitFailed : List Event → Bool
  | .mark (.leave .initializeCard) d :: older => d.status &&& staNoinit != 0 || foundEmpty older
  | _ => false

/-- `read()` comes back, with `RES_OK` exactly if `count` blocks came in, and sends no CMD17
after a re-initialisation that failed or found no card. -/
def Served (b : Board σ) (m : Machine σ) (buff : List BYTE) (sector : DWORD) (count : UINT) : Prop :=
  ∃ fuel res buff' m', exec b (read fuel buff sector count) m = some ((res, buff'), m') ∧
    (res = .ok ↔ (heardSince m m').blocks = count.toNat) ∧
    ∀ later u, m'.log = later ++ u → m.log.length < u.length → reinitFailed u = true →
      ∀ arg, (cmd17, arg) ∉ (listen later).commands

/-- Asked again and again from `m` on, the card delivers `count` blocks after finitely many
turns, and no re-initialisation on the way fails. -/
def Delivers (b : Board σ) (sector : DWORD) (count : UINT) (m : Machine σ) : Prop :=
  ∃ ts t, Turns b sector m ts t ∧ blocks ts = count.toNat ∧
    ∀ u, u <:+ t.log → m.log.length < u.length → reinitFailed u = false

/-! ## Re-initialisations in a run -/

/-- Among events none of which ends an `initialize()` no re-initialisation fails. -/
theorem reinitFailed_quiet {new old u : List Event}
    (quiet : ∀ e ∈ new, ∀ d, e ≠ .mark (.leave .initializeCard) d) (h : u <:+ new ++ old)
    (longer : old.length < u.length) : reinitFailed u = false := by
  obtain ⟨later, e, rest, rfl, rfl⟩ := suffix_newer h longer
  have other := quiet e (by simp)
  unfold reinitFailed
  split
  · rename_i d older split
    exact absurd (List.cons.inj split).1 (other d)
  · rfl

theorem traffic_quiet {hz : DWORD} {l : List Event} (h : ∀ e ∈ l, e.IsTraffic hz) :
    ∀ e ∈ l, ∀ d, e ≠ .mark (.leave .initializeCard) d := by
  rintro e he d rfl
  exact h _ he

/-- In a turn a re-initialisation fails at its end only, and no block came in. -/
theorem turn_reinit {fuel : Nat} {sector : DWORD} {t : Turn} {u : List Event}
    (run : exec b (turn fuel sector) m = some (t, m')) (h : u <:+ m'.log)
    (longer : m.log.length < u.length) (failed : reinitFailed u = true) :
    blocks [t] = 0 ∧ u = m'.log := by
  have never {new : List Event} (log : m'.log = new ++ m.log)
      (quiet : ∀ e ∈ new, ∀ d, e ≠ .mark (.leave .initializeCard) d) : False := by
    rw [reinitFailed_quiet quiet (log ▸ h) longer] at failed
    cases failed
  obtain ⟨res, m₁, sent, run⟩ := exec_bind_some.1 run
  have passed := exec_passed (sendCmd_traffic fuel _ _) sent
  split at run
  · obtain ⟨block, m₂, got, run⟩ := exec_bind_some.1 run
    cases run
    obtain ⟨new, log, traffic⟩ :=
      (passed.trans (exec_passed (rcvrDatablock_traffic fuel 512) got)).log
    exact (never log (traffic_quiet traffic)).elim
  · obtain ⟨_, m₂, off, run⟩ := exec_bind_some.1 run
    obtain ⟨new, log, traffic⟩ := (passed.trans (exec_passed deselect_traffic off)).log
    simp only [exec_bind, exec_unlock, Option.bind_some] at run
    obtain ⟨⟨st, m₃⟩, init, run⟩ := Option.bind_eq_some_iff.1 run
    simp only [exec_lock, Option.bind_some, exec_pure] at run
    cases run
    refine ⟨rfl, ?_⟩
    obtain ⟨mid, log', quiet⟩ := initializeCard_ends init
    have whole : m₃.locked.log = .mark (.leave .initializeCard) m₃.drv :: ((mid ++ new) ++ m.log) := by
      rw [Machine.locked_log, log', Machine.unlocked_log, log, List.append_assoc]
    rw [whole] at h ⊢
    rcases List.suffix_cons_iff.1 h with all | earlier
    · exact all
    · have calm : ∀ e ∈ mid ++ new, ∀ d, e ≠ .mark (.leave .initializeCard) d := by
        intro e he
        rcases List.mem_append.1 he with he | he
        · exact quiet e he _
        · exact traffic_quiet traffic e he
      rw [reinitFailed_quiet calm earlier longer] at failed
      cases failed

/-- What the loop makes heard, begun anywhere. -/
theorem takeTurns_heard {fuel turns : Nat} {sector : DWORD} {count : UINT} {ts : List Turn}
    (run : exec b (takeTurns fuel sector turns count) m = some (ts, m')) (some_ : count ≠ 0) :
    (cmd17, sector) ∈ (heardSince m m').commands := by
  have start : ({} : Hearing).burst.length ≠ 512 := by decide
  have spec := Ear.wp_takeTurns (P := fun _ => True) (e := ⟨m.drv, {}⟩) fuel sector turns
    (fun _ : count ≠ 0 => trivial) rfl start
  obtain ⟨e, ⟨cs, took, -, sent, all⟩, hears⟩ :=
    run_sound (ear_simulates (fun _ => True) b m.log) (.start m) spec run
  obtain ⟨new, log, told⟩ := hears.log
  rw [heardSince_eq log, told, took.commands]
  have some_' : blocks ts ≠ 0 := fun zero => some_ (BitVec.eq_of_toNat_eq (all.symm.trans zero))
  exact List.mem_append_left _ (sent some_')

/-- A re-initialisation that fails in the loop is followed by another CMD17. -/
theorem takeTurns_reinit {fuel turns : Nat} {sector : DWORD} {count : UINT} {ts : List Turn}
    {u : List Event} (run : exec b (takeTurns fuel sector turns count) m = some (ts, m'))
    (h : u <:+ m'.log) (longer : m.log.length < u.length) (failed : reinitFailed u = true) :
    ∃ later, m'.log = later ++ u ∧ (cmd17, sector) ∈ (listen later).commands := by
  induction turns generalizing m count ts with
  | zero => cases run
  | succ turns ih =>
    rcases takeTurns_succ run with ⟨-, -, rfl⟩ | ⟨some_, t, m₁, rest, one, more, rfl⟩
    · exact absurd h.length_le (by omega)
    · by_cases beyond : m₁.log.length < u.length
      · exact ih more beyond
      · have within : u <:+ m₁.log :=
          List.suffix_of_suffix_length_le h (exec_log more) (by omega)
        obtain ⟨none_, rfl⟩ := turn_reinit one within longer failed
        obtain ⟨later, log⟩ := exec_log more
        have left : t.left count = count := by
          cases t with
          | block bytes => cases none_
          | empty => rfl
          | again st => rfl
        refine ⟨later, log.symm, ?_⟩
        rw [← heardSince_eq log.symm]
        exact takeTurns_heard more (by rw [left]; exact some_)

/-- What `read()` makes heard. -/
theorem read_heard {fuel : Nat} {buff : List BYTE} {sector : DWORD} {count : UINT}
    {x : DRESULT × List BYTE} (run : exec b (read fuel buff sector count) m = some (x, m')) :
    (x.1 = .notrdy ∧ (heardSince m m').blocks = 0) ∨
    (x.1 = .ok ∧ (heardSince m m').blocks = count.toNat) := by
  have spec := Ear.wp_read (P := fun _ => True) (e := ⟨m.drv, {}⟩) fuel buff sector rfl
    (fun _ : count ≠ 0 => trivial)
  obtain ⟨e, done, hears⟩ :=
    run_sound (ear_simulates (fun _ => True) b m.log) (.start m) spec run
  obtain ⟨new, log, told⟩ := hears.log
  rw [heardSince_eq log, told]
  simpa using done

theorem readEntered_log (b : Board σ) (m : Machine σ) : ∃ new,
    (m.readEntered b).2.log = new ++ m.log ∧
      ∀ e ∈ new, ∀ d, e ≠ .mark (.leave .initializeCard) d := by
  obtain ⟨new, hlog, pins⟩ := slot_pins b (m.marked (.enter .read)).locked
  refine ⟨new ++ [.mark (.enter .read) m.drv], by simpa [Machine.readEntered] using hlog, ?_⟩
  rintro e he d rfl
  rcases List.mem_append.1 he with he | he
  · obtain ⟨p, l, no⟩ := pins _ he
    cases no
  · cases List.mem_singleton.1 he

/-- For every board: `read()` is served exactly if it was refused at once with blocks to
read, or the card delivers them all. -/
theorem read_served_iff_delivers (b : Board σ) (m : Machine σ) (buff : List BYTE) (sector : DWORD)
    (count : UINT) :
    Served b m buff sector count ↔
      (m.ready b = false ∧ count ≠ 0) ∨
      (m.ready b = true ∧
        Delivers b (cardAddress m.drv.cardType sector) count (m.readEntered b).2) := by
  obtain ⟨first, entered, calm⟩ := readEntered_log b m
  cases ready : m.ready b with
  | false =>
    have refused : (m.readEntered b).1 = false ∨ m.drv.status &&& staNoinit ≠ 0 := by
      by_contra both
      push Not at both
      have found : m.ready b = true := by simpa [Machine.ready] using both
      rw [ready] at found
      cases found
    have run (fuel : Nat) := exec_read_refused fuel buff sector count refused
    have heard : (heardSince m ((m.readEntered b).2.unlocked.marked (.leave .read))).blocks = 0 := by
      rcases read_heard (run 0) with ⟨-, none_⟩ | ⟨no, -⟩
      · exact none_
      · cases no
    constructor
    · rintro ⟨fuel, res, buff', m', back, all, -⟩
      rw [run] at back
      cases back
      refine .inl ⟨rfl, ?_⟩
      rintro rfl
      exact absurd (all.2 heard) (by decide)
    · rintro (⟨-, some_⟩ | ⟨no, -⟩)
      · refine ⟨0, .notrdy, buff, _, run 0, ⟨nofun, ?_⟩, ?_⟩
        · intro all
          have zero : count.toNat = (0 : UINT).toNat := all.symm.trans heard
          exact absurd (BitVec.eq_of_toNat_eq zero) some_
        · intro later u log longer failed
          have new : ∀ e ∈ .mark (.leave .read) (m.readEntered b).2.unlocked.drv :: first, ∀ d,
              e ≠ .mark (.leave .initializeCard) d := by
            rintro e he d rfl
            rcases List.mem_cons.1 he with no | he
            · cases no
            · exact calm _ he d rfl
          have suffix : u <:+ (.mark (.leave .read) (m.readEntered b).2.unlocked.drv :: first) ++
              m.log := by
            refine ⟨later, log.symm.trans ?_⟩
            simp [entered]
          rw [reinitFailed_quiet new suffix longer] at failed
          cases failed
      · cases no
  | true =>
    constructor
    · rintro ⟨fuel, res, buff', m', run, -, quiet⟩
      obtain ⟨ts, t, loop, -, u, off, rfl⟩ := (exec_read_ready ready).1 run
      obtain ⟨turns, all⟩ := takeTurns_turns loop
      refine .inr ⟨rfl, ts, t, turns, all, ?_⟩
      intro v within longer
      cases failed : reinitFailed v with
      | false => rfl
      | true =>
        obtain ⟨later, log, again⟩ := takeTurns_reinit loop within longer failed
        obtain ⟨last, after⟩ := exec_log off
        have longer' : m.log.length < v.length := by
          rw [entered, List.length_append] at longer
          omega
        have whole : (u.unlocked.marked (.leave .read)).log =
            (.mark (.leave .read) u.unlocked.drv :: last ++ later) ++ v := by
          simp [← after, log]
        exact absurd (listen_commands again _) (quiet _ v whole longer' failed _)
    · rintro (⟨no, -⟩ | ⟨-, ts, t, turns, all, fine⟩)
      · cases no
      · obtain ⟨fuel, k, first', u, part, loop⟩ := turns.take (Nat.le_of_eq all.symm)
        have loop' := run_below (takeTurns_below (cardAddress m.drv.cardType sector) count
          (Nat.le_max_left fuel k) (Nat.le_max_right fuel k)) loop
        obtain ⟨v, y, off, -, -, after⟩ := exec_deselect (b := b) (m := u)
        have run : exec b (read (max fuel k) buff sector count) m = some ((.ok, gather first' 0 buff),
            v.unlocked.marked (.leave .read)) :=
          (exec_read_ready ready).2 ⟨first', u, loop', rfl, v, off, rfl⟩
        refine ⟨max fuel k, .ok, _, _, run, ⟨fun _ => ?_, fun _ => rfl⟩, ?_⟩
        · rcases read_heard run with ⟨no, -⟩ | ⟨-, received⟩
          · cases no
          · exact received
        · intro later w log longer failed
          have whole : w <:+ [.mark (.leave .read) v.unlocked.drv, .byte .high u.hz 0xFF y] ++ u.log :=
            ⟨later, log.symm.trans (by simp [after])⟩
          have calm' : reinitFailed w = false := by
            by_cases end_ : u.log.length < w.length
            · exact reinitFailed_quiet (by simp) whole end_
            have within : w <:+ u.log := List.suffix_of_suffix_length_le whole (List.suffix_append _ _)
              (Nat.not_lt.1 end_)
            by_cases loop_ : (m.readEntered b).2.log.length < w.length
            · exact fine w (within.trans part) loop_
            · have before : w <:+ first ++ m.log := entered ▸ List.suffix_of_suffix_length_le within
                (exec_log loop) (Nat.not_lt.1 loop_)
              exact reinitFailed_quiet calm before longer
          rw [calm'] at failed
          cases failed

/-! ## A dead card -/

theorem mute_turn {fuel : Nat} {sector : DWORD} {t : Turn}
    (run : exec mute (turn fuel sector) m = some (t, m')) : ∃ st, t = .again st := by
  have answer {n : Nat} {m m' : Machine σ} {res : BYTE}
      (run : exec mute (receiveResponse n) m = some (res, m')) : res = 0xFF := by
    obtain ⟨u, hu⟩ := mute_receiveResponse n m
    rw [hu] at run
    cases run
    rfl
  have packet {m m' : Machine σ} {res : BYTE}
      (run : exec mute (sendPacket fuel cmd17 sector) m = some (res, m')) : res = 0xFF := by
    obtain ⟨selected, m₁, -, run⟩ := exec_bind_some.1 run
    split at run
    · iterate 6 obtain ⟨_, _, -, run⟩ := exec_bind_some.1 run
      exact answer run
    · cases run
      rfl
  obtain ⟨res, m₁, sent, run⟩ := exec_bind_some.1 run
  obtain ⟨_, m₂, -, sent⟩ := exec_bind_some.1 sent
  obtain rfl := packet sent
  rw [if_neg (by decide)] at run
  obtain ⟨_, _, -, run⟩ := exec_bind_some.1 run
  obtain ⟨_, _, -, run⟩ := exec_bind_some.1 run
  obtain ⟨st, _, -, run⟩ := exec_bind_some.1 run
  obtain ⟨_, _, -, run⟩ := exec_bind_some.1 run
  cases run
  exact ⟨st, rfl⟩

theorem mute_turns {sector : DWORD} {ts : List Turn} (h : Turns mute sector m ts m') :
    blocks ts = 0 := by
  induction h with
  | nil => rfl
  | cons one _ ih =>
    obtain ⟨st, rfl⟩ := mute_turn one
    exact ih

/-- An initialised driver with nothing but a card that is dead by now. -/
def dead : Machine Unit where
  drv := { cs := 0, status := 0, cardType := ctSd2 ||| ctBlock }
  out _ := .high
  hz := 15000000
  log := []
  env := ()

/-- On a dead card `read()` of one sector comes back with no bound. -/
theorem dead_card_hangs_read :
    (∀ fuel, exec mute (read fuel [] 0 1) dead = none) ∧ ¬ Served mute dead [] 0 1 := by
  have hangs (fuel : Nat) : exec mute (read fuel [] 0 1) dead = none := by
    cases run : exec mute (read fuel [] 0 1) dead with
    | none => rfl
    | some x =>
      obtain ⟨x, u⟩ := x
      obtain ⟨ts, t, took, -⟩ := (exec_read_ready rfl).1 run
      obtain ⟨turns, all⟩ := takeTurns_turns took
      rw [mute_turns turns] at all
      exact absurd all (by decide)
  refine ⟨hangs, ?_⟩
  rintro ⟨fuel, res, buff', m', run, -⟩
  rw [hangs] at run
  cases run

end FatFsParticle.Sdspi
