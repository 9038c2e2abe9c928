import FatFsParticle.Sdspi.Bench
import FatFsParticle.Sdspi.History
import FatFsParticle.Sdspi.Prompt

/-!
# Ends of write transactions

What the wires tell of a `write()`: the token that ends a multiple block write goes out
behind the same wait as a packet, so it goes out where the card gets ready in time.
-/

namespace FatFsParticle.Sdspi
open Interact Program Bench

variable {σ : Type}

/-- The signs of a multiple block write between two packets, after those in `s`. -/
inductive Going (s : List Sign) : List Sign → Prop
  | start : Going s (.accepted cmd25 :: s)
  | packet {l : List Sign} (h : Going s l) : Going s (.packet true :: .ready :: l)

namespace Bench

variable {w w' : Bench}

/-- In the middle of a multiple block write. -/
def Amid (s : List Sign) (w' : Bench) : Prop :=
  w'.level = .low ∧ w'.talk = .tokens true ∧ Going s w'.signs

theorem wp_writeBlocks {fuel turns : Nat} {count : UINT} {buff : List BYTE} {s : List Sign}
    (size : 512 * ((count - 1).toNat + 1) ≤ buff.length) (amid : Amid s w) :
    (writeBlocks fuel turns count buff).wp rules (fun _ w' => Amid s w') w := by
  induction turns generalizing w count buff with
  | zero => trivial
  | succ turns ih =>
    obtain ⟨on, at_, going⟩ := amid
    have next : Amid s (w.told (.tokens true) [.packet true, .ready]) := ⟨on, rfl, going.packet⟩
    unfold writeBlocks
    rw [wp_bind]
    apply wp_xmitDatablock true (by omega) on at_
    · exact ⟨on, at_, going⟩
    · intro ok
      split
      · exact next
      split
      · exact next
      · rename_i more
        have less : (count - 1 - 1).toNat + 1 = (count - 1).toNat := by
          have some_ : (count - 1).toNat ≠ 0 := fun zero => more (BitVec.eq_of_toNat_eq zero)
          rw [toNat_pred more]
          omega
        apply ih _ next
        rw [less, List.length_drop]
        omega

end Bench

/-- What a call begun between transactions tells, and where it leaves the talk. -/
inductive Ends : Talk → List Sign → Prop
  | settled {s : List Sign} (plain : ∀ x ∈ s, x.Plain) : Ends .between s
  | unsent {s : List Sign} (plain : ∀ x ∈ s, x.Plain) : Ends (.tokens false) (.accepted cmd24 :: s)
  | sent {s : List Sign} (plain : ∀ x ∈ s, x.Plain) :
      Ends .between (.packet false :: .ready :: .accepted cmd24 :: s)
  | open_ {s l : List Sign} (plain : ∀ x ∈ s, x.Plain) (going : Going s l) : Ends (.tokens true) l
  | closed {s l : List Sign} (plain : ∀ x ∈ s, x.Plain) (going : Going s l) :
      Ends .between (.stop :: .ready :: l)

theorem Ends.append {t : Talk} {s older : List Sign} (h : Ends t s) (plain : ∀ x ∈ older, x.Plain) :
    Ends t (s ++ older) := by
  have more {l : List Sign} (hl : ∀ x ∈ l, x.Plain) : ∀ x ∈ l ++ older, x.Plain := by
    intro x mem
    rcases List.mem_append.1 mem with mem | mem
    · exact hl x mem
    · exact plain x mem
  have longer {l k : List Sign} (going : Going l k) : Going (l ++ older) (k ++ older) := by
    induction going with
    | start => exact .start
    | packet _ ih => exact .packet ih
  cases h with
  | settled hl => exact .settled (more hl)
  | unsent hl => exact .unsent (more hl)
  | sent hl => exact .sent (more hl)
  | open_ hl going => exact .open_ (more hl) (longer going)
  | closed hl going => exact .closed (more hl) (longer going)

namespace Bench

variable {w w' : Bench}

/-- After a call begun in `w`, which is between transactions. -/
def Ended (w w' : Bench) : Prop := ∃ s, w'.signs = s ++ w.signs ∧ Ends w'.talk s

theorem Settled.ended (h : w.Settled w') : w.Ended w' := by
  obtain ⟨at_, s, signs, plain⟩ := h
  refine ⟨s, signs, ?_⟩
  rw [at_]
  exact .settled plain

theorem Ended.same {w'' : Bench} (h : w.Ended w') (talk : w''.talk = w'.talk)
    (signs : w''.signs = w'.signs) : w.Ended w'' := by
  obtain ⟨s, hs, ends⟩ := h
  exact ⟨s, signs.trans hs, talk ▸ ends⟩

theorem Settled.ends {w'' : Bench} (h : w.Settled w') (h' : w'.Ended w'') : w.Ended w'' := by
  obtain ⟨-, s, signs, plain⟩ := h
  obtain ⟨s', signs', ends⟩ := h'
  exact ⟨s' ++ s, by rw [signs', signs, List.append_assoc], ends.append plain⟩

theorem wp_writeSingle {fuel : Nat} {buff : List BYTE} {addr : DWORD} {count : UINT}
    (size : 512 ≤ buff.length) (at_ : w.talk = .between) :
    (writeSingle fuel buff addr count).wp rules (fun _ w' => w.Ended w') w := by
  unfold writeSingle
  apply wp_seq (wp_sendCmd (by decide) (by decide) at_)
  rintro res w₁ (⟨rfl, on, granted, s, signs, plain⟩ | ⟨other, settled⟩)
  · rw [if_pos rfl, wp_bind]
    apply wp_xmitDatablock false size on granted
    · exact ⟨_, signs, granted ▸ .unsent plain⟩
    · intro ok
      refine ⟨.packet false :: .ready :: .accepted cmd24 :: s, ?_, .sent plain⟩
      simp [told, signs]
  · rw [if_neg other]
    exact settled.ended

theorem wp_writeMultiple {fuel : Nat} {buff : List BYTE} {addr : DWORD} {count : UINT}
    (size : 512 * ((count - 1).toNat + 1) ≤ buff.length) (at_ : w.talk = .between) :
    (writeMultiple fuel buff addr count).wp rules (fun _ w' => w.Ended w') w := by
  have announce (d : SdspiDriver) : Polite (if d.cardType &&& ctSdc ≠ 0 then do
      let _ ← sendCmd fuel acmd23 count
      pure ()
    else pure ()) :=
    .ite (.bind (.command fuel _ (by decide) (by decide)) fun _ => .pure _) (.pure _)
  unfold writeMultiple
  rw [wp_bind]
  apply wp_load
  apply wp_seq ((announce w.drv).settles at_)
  intro _ w₁ settled
  apply wp_mono _ fun _ _ => settled.ends
  apply wp_seq (wp_sendCmd (by decide) (by decide) settled.1)
  rintro res w₂ (⟨rfl, on, granted, s, signs, plain⟩ | ⟨other, settled'⟩)
  · -- the signs of the transaction, seen from `w₁`
    have start : Amid (s ++ w₁.signs) w₂ := ⟨on, granted, signs ▸ .start⟩
    have split {l : List Sign} (going : Going (s ++ w₁.signs) l) :
        ∃ k, l = k ++ w₁.signs ∧ Going s k := by
      induction going with
      | start => exact ⟨_, rfl, .start⟩
      | packet _ ih =>
        obtain ⟨k, rfl, hk⟩ := ih
        exact ⟨_, rfl, .packet hk⟩
    rw [if_pos rfl]
    apply wp_seq (wp_writeBlocks size start)
    rintro left w₃ ⟨on₃, at₃, going⟩
    obtain ⟨k, hk, going⟩ := split going
    rw [wp_bind]
    apply wp_stop on₃ at₃
    · exact ⟨k, hk, at₃ ▸ .open_ plain going⟩
    · exact ⟨.stop :: .ready :: k, by simp [told, hk], .closed plain going⟩
  · rw [if_neg other]
    exact settled'.ended

theorem wp_unlock {Q : Unit → Bench → Prop}
    (h : ∀ w', w'.talk = w.talk → w'.signs = w.signs → Q () w') : unlock.wp rules Q w := by
  unfold unlock
  rw [wp_bind]
  apply wp_silent (r := .store _) trivial
  intro _ w₁ talk signs
  unfold release
  rw [wp_bind]
  apply wp_load
  split
  · apply wp_silent (r := .mutexUnlock _) trivial
    intro _ w₂ talk₂ signs₂
    exact h w₂ (talk₂.trans talk) (signs₂.trans signs)
  · exact h w₁ talk signs

/-- The buffer of a write holds all the blocks its loop may send. -/
theorem wp_write {fuel : Nat} {buff : List BYTE} {sector : DWORD} {count : UINT}
    (size : 512 * ((count - 1).toNat + 1) ≤ buff.length) (at_ : w.talk = .between) :
    (write fuel buff sector count).wp rules (fun _ w' => w.Ended w') w := by
  unfold write member lockGuard
  rw [wp_bind]
  apply wp_silent (r := .mark _) trivial
  intro _ w₁ talk signs
  have begun : w.Settled w₁ := ⟨talk.trans at_, [], signs, by simp⟩
  rw [wp_bind, wp_bind]
  apply wp_mono (lock_polite.settles begun.1)
  intro _ w₂ locked
  have begun := begun.trans locked
  -- what the body of the function establishes survives giving back the bus
  apply wp_seq (P := fun _ w' => w.Ended w')
  · apply wp_seq (cardPresent_polite.settles begun.1)
    intro present w₃ looked
    have begun := begun.trans looked
    split
    · exact begun.ended
    apply wp_seq (writeProtected_polite.settles begun.1)
    intro wp w₄ looked
    have begun := begun.trans looked
    split
    · exact begun.ended
    rw [wp_bind]
    apply wp_load
    split
    · exact begun.ended
    split
    · exact begun.ended
    have finish (count : UINT) (w' : Bench) (h : w₄.Ended w') :
        (do deselect; pure (if count ≠ 0 then .error else .ok) : Prog DRESULT).wp rules
          (fun _ w' => w.Ended w') w' := by
      rw [wp_bind]
      apply wp_deselect
      exact begun.ends (h.same rfl rfl)
    rw [wp_bind]
    split
    · rename_i one
      subst one
      exact wp_mono (wp_writeSingle size begun.1) finish
    · exact wp_mono (wp_writeMultiple size begun.1) finish
  · intro r w₃ ended
    rw [wp_bind]
    apply wp_unlock
    intro w₄ talk signs
    rw [wp_pure, wp_bind]
    apply wp_silent (r := .mark _) trivial
    intro _ w₅ talk₅ signs₅
    exact ended.same (talk₅.trans talk) (signs₅.trans signs)

end Bench

/-- The buffer of a write is as long as its count says; a count of 0 stands for 2³². -/
def Call.Sized : Call → Prop
  | write buff _ count => 512 * ((count - 1).toNat + 1) ≤ buff.length
  | _ => True

theorem Bench.wp_call {w : Bench} (fuel : Nat) {c : Call} (sized : c.Sized) (at_ : w.talk = .between) :
    (c.prog fuel).wp rules (fun _ w' => w.Ended w') w := by
  have polite {α : Type} {p : Prog α} (h : Polite p) :
      (do let _ ← p; pure () : Prog Unit).wp rules (fun _ w' => w.Ended w') w := by
    apply wp_seq (h.settles at_)
    intro _ _ settled
    exact settled.ended
  cases c with
  | initializeCard => exact polite (initializeCard_polite fuel)
  | status => exact polite status_polite
  | read => exact polite (read_polite _ _ _ _)
  | ioctl => exact polite (ioctl_polite _ _ _)
  | highSpeedClock | lowSpeedClock =>
    exact wp_mono ((store_polite _).settles at_) fun _ _ settled => settled.ended
  | write buff sector count =>
    apply wp_seq (wp_write sized at_)
    intro _ _ ended
    exact ended

/-! ## Where the card gets ready in time -/

/-- After this sign the card waits for a data token. -/
def Sign.Opens : Sign → Prop
  | accepted cmd => cmd = cmd24 ∨ cmd = cmd25
  | packet multi => multi = true
  | _ => False

/-- Whenever the card came to wait for a data token, it later showed that it is ready. -/
def Timely (signs : List Sign) : Prop :=
  ∀ newer x older, signs = newer ++ x :: older → x.Opens → .ready ∈ newer

instance : DecidablePred Sign.Opens
  | .accepted cmd => inferInstanceAs (Decidable (cmd = cmd24 ∨ cmd = cmd25))
  | .packet multi => inferInstanceAs (Decidable (multi = true))
  | .command _ | .ready | .stop | .stray => .isFalse not_false

theorem timely_iff {signs : List Sign} :
    Timely signs ↔ ∀ i : Fin signs.length, (signs.get i).Opens → .ready ∈ signs.take i := by
  constructor
  · intro timely i opens
    have split : signs = signs.take i ++ signs.get i :: signs.drop (i + 1) := by
      rw [List.get_eq_getElem, ← List.drop_eq_getElem_cons i.2, List.take_append_drop]
    exact timely _ _ _ split opens
  · rintro all newer x older rfl opens
    have less : newer.length < (newer ++ x :: older).length := by simp
    have ready := all ⟨newer.length, less⟩ (by simpa using opens)
    simpa using ready

instance : DecidablePred Timely := fun _ => decidable_of_iff _ timely_iff.symm

/-- Exactly one stop token was sent, and no packet after it. -/
def Closed (signs : List Sign) : Prop :=
  signs.count .stop = 1 ∧
    ∀ newer older, signs = newer ++ .stop :: older → ∀ multi, .packet multi ∉ newer

/-- The signs since the log of `m`. -/
def signsSince (m m' : Machine σ) : List Sign :=
  (watch .between (m'.log.take (m'.log.length - m.log.length))).2

theorem signsSince_eq {m m' : Machine σ} {new : List Event} (h : m'.log = new ++ m.log) :
    signsSince m m' = (watch .between new).2 := by
  simp [signsSince, h]

/-- The newest sign between two packets is that of a waiting card. -/
theorem Going.opens {s l : List Sign} (h : Going s l) : ∃ x k, l = x :: k ∧ x.Opens := by
  cases h with
  | start => exact ⟨_, _, rfl, .inr rfl⟩
  | packet => exact ⟨_, _, rfl, rfl⟩

theorem Going.no_stop {s l : List Sign} (h : Going s l) (plain : ∀ x ∈ s, x.Plain) :
    .stop ∉ l := by
  induction h with
  | start =>
    intro mem
    rcases List.mem_cons.1 mem with no | mem
    · cases no
    · exact plain _ mem
  | packet _ ih => simpa using ih

theorem not_timely_opens {x : Sign} {s : List Sign} (h : x.Opens) : ¬ Timely (x :: s) := by
  intro timely
  exact absurd (timely [] x s rfl h) List.not_mem_nil

/-- A call leaves the talk between transactions where the card was ready in time. -/
theorem Ends.timely {t : Talk} {s : List Sign} (h : Ends t s) (timely : Timely s) : t = .between := by
  cases h with
  | settled | sent | closed => rfl
  | unsent => exact absurd timely (not_timely_opens (.inl rfl))
  | open_ plain going =>
    obtain ⟨x, k, rfl, opens⟩ := going.opens
    exact absurd timely (not_timely_opens opens)

/-- An accepted multiple block write is closed exactly if the card got ready in time. -/
theorem Ends.closed_iff {t : Talk} {s : List Sign} (h : Ends t s) (began : .accepted cmd25 ∈ s) :
    Closed s ↔ Timely s := by
  have single {l : List Sign} (plain : ∀ x ∈ l, x.Plain) : .accepted cmd25 ∉ .accepted cmd24 :: l := by
    intro mem
    rcases List.mem_cons.1 mem with same | mem
    · cases same
    · exact (plain _ mem).2 rfl
  cases h with
  | settled plain => exact absurd rfl (plain _ began).2
  | unsent plain => exact absurd began (single plain)
  | sent plain => exact absurd (by simpa using began) (single plain)
  | open_ plain going =>
    obtain ⟨x, k, rfl, opens⟩ := going.opens
    constructor
    · rintro ⟨once, -⟩
      rw [List.count_eq_zero_of_not_mem (going.no_stop plain)] at once
      exact absurd once Nat.zero_ne_one
    · exact fun timely => absurd timely (not_timely_opens opens)
  | @closed s l plain going =>
    constructor
    · rintro - newer x older split opens
      match newer, split with
      | [], split =>
        cases split
        exact opens.elim
      | [_], split =>
        cases split
        exact opens.elim
      | _ :: _ :: newer, split =>
        cases split
        simp
    · intro _
      refine ⟨by simp [List.count_eq_zero_of_not_mem (going.no_stop plain)], ?_⟩
      intro newer older split multi mem
      match newer, split with
      | y :: newer, split =>
        have stop : .stop ∈ .ready :: l := by
          rw [(List.cons.inj split).2]
          simp
        exact going.no_stop plain (by simpa using stop)

/-! ## Runs of calls -/

/-- A call whose card got ready in time, or a change of the world between two calls. -/
inductive Patient : Machine σ → Machine σ → Prop
  | call (b : Board σ) (fuel : Nat) {c : Call} (sized : c.Sized) {m m' : Machine σ}
      (run : exec b (c.prog fuel) m = some ((), m')) (timely : Timely (signsSince m m')) :
      Patient m m'
  | world (s : σ) (m : Machine σ) : Patient m { m with env := s }

/-- No transaction is open, and no frame was stray. -/
def AtRest (m : Machine σ) : Prop := ∃ s, watch .between m.log = (.between, s) ∧ .stray ∉ s

theorem Describes.orderly_log {m m' : Machine σ} {w : Bench} (rest : AtRest m)
    (h : Describes m.log m' w) :
    ∃ s, watch .between m'.log = (w.talk, s) ∧ .stray ∉ s := by
  obtain ⟨s, before, clean⟩ := rest
  obtain ⟨new, log, told⟩ := h.log
  refine ⟨w.signs ++ s, ?_, ?_⟩
  · rw [log, watch_append, before, told]
  · intro stray
    rcases List.mem_append.1 stray with stray | stray
    · exact h.orderly stray
    · exact clean stray

theorem Patient.atRest {m m' : Machine σ} (h : Patient m m') (rest : AtRest m) : AtRest m' := by
  cases h with
  | world s => exact rest
  | call b fuel sized run timely =>
    obtain ⟨w, ⟨s, signs, ends⟩, described⟩ := exec_bench (.refl m) (wp_call fuel sized rfl) run
    obtain ⟨new, log, told⟩ := described.log
    have same : signsSince m m' = s := by
      rw [signsSince_eq log, told]
      simpa using signs
    obtain ⟨all, watched, clean⟩ := described.orderly_log rest
    rw [ends.timely (same ▸ timely)] at watched
    exact ⟨all, watched, clean⟩

/-- In the middle of a call begun at rest no frame is stray. -/
theorem advance_orderly {m : Machine σ} (rest : AtRest m) (b : Board σ) (fuel : Nat) {c : Call}
    (sized : c.Sized) (k : Nat) :
    .stray ∉ (watch .between ((c.prog fuel).advance (Machine.handle b) k m).log).2 := by
  obtain ⟨w, described⟩ := advance_sound (bench_simulates b m.log) (.refl m)
    (wp_call fuel sized rfl) k
  obtain ⟨s, watched, clean⟩ := described.orderly_log rest
  rw [watched]
  exact clean

/-- A multiple block write whose CMD25 was accepted is closed by one stop token after the
last packet exactly if the card, whenever it waited for a token, got ready in time. In
runs where it always does no frame is ever sent to a card that waits for one. -/
theorem write_closes_iff_timely :
    (∀ (b : Board σ) (m m' : Machine σ) (fuel : Nat) (buff : List BYTE) (sector : DWORD)
        (count : UINT) (res : DRESULT), 2 ≤ count.toNat → 512 * count.toNat ≤ buff.length →
      exec b (write fuel buff sector count) m = some (res, m') →
      .accepted cmd25 ∈ signsSince m m' → (Closed (signsSince m m') ↔ Timely (signsSince m m'))) ∧
    ∀ m₀ m : Machine σ, m₀.log = [] → Relation.ReflTransGen Patient m₀ m →
      ∀ (b : Board σ) (fuel : Nat) (c : Call) (k : Nat), c.Sized →
        .stray ∉ (watch .between ((c.prog fuel).advance (Machine.handle b) k m).log).2 := by
  constructor
  · intro b m m' fuel buff sector count res several size run began
    have sized : 512 * ((count - 1).toNat + 1) ≤ buff.length := by
      have some_ : count ≠ 0 := by
        rintro rfl
        exact absurd several (by decide)
      rw [toNat_pred some_]
      omega
    obtain ⟨w, ⟨s, signs, ends⟩, described⟩ := exec_bench (.refl m) (Bench.wp_write sized rfl) run
    obtain ⟨new, log, told⟩ := described.log
    have same : signsSince m m' = s := by
      rw [signsSince_eq log, told]
      simpa using signs
    rw [same] at began ⊢
    exact ends.closed_iff began
  · intro m₀ m fresh run b fuel c k sized
    have rest : AtRest m := by
      induction run with
      | refl => exact ⟨[], by rw [fresh]; rfl, List.not_mem_nil⟩
      | tail _ step ih => exact step.atRest ih
    exact advance_orderly rest b fuel sized k

/-- Every sector is full of one byte. -/
def written (_ : Nat) : Sector := List.Vector.replicate 512 0xA5

/-- A card that is ready at once: the write of two sectors is closed, and the `read()` that
follows does not disturb it. -/
theorem write_closes_iff_timely_prompt : ∃ m', exec prompt (write 3 (List.replicate 1024 0) 0 2) (inserted written) =
      some (.ok, m') ∧ Closed (signsSince (inserted written) m') ∧
    .stray ∉ (watch .between (((Call.read [] 0 1).prog 3).advance (Machine.handle prompt) 75 m').log).2 := by
  have ran : ((exec prompt (write 3 (List.replicate 1024 0) 0 2) (inserted written)).any fun x =>
      x.1 == .ok && decide (.accepted cmd25 ∈ signsSince (inserted written) x.2) &&
      decide (Timely (signsSince (inserted written) x.2))) = true := by
    decide +kernel
  simp only [Option.any_eq_true, Bool.and_eq_true, beq_iff_eq, decide_eq_true_eq] at ran
  obtain ⟨⟨_, m'⟩, run, ⟨rfl, began⟩, timely⟩ := ran
  have size : 512 * (2 : UINT).toNat ≤ (List.replicate 1024 (0 : BYTE)).length := by
    rw [List.length_replicate]
    decide
  have sized : (Call.write (List.replicate 1024 0) 0 2).Sized := size
  have closed := (write_closes_iff_timely.1 prompt (inserted written) m' 3 _ 0 2 .ok (by decide) size run began).2
    timely
  have patient : Relation.ReflTransGen Patient (inserted written) m' :=
    .single (.call prompt 3 sized (exec_discard.2 ⟨.ok, run⟩) timely)
  exact ⟨m', run, closed, write_closes_iff_timely.2 (inserted written) m' rfl patient prompt 3 (.read [] 0 1) 75
    trivial⟩

/-- A card that takes CMD25 and then never lets go of the line, and a clock that runs on
by a quarter of a second at every reading. -/
def stalling : Board (Scripted × DWORD) where
  transfer level x s :=
    let card := scripted fun cmd _ => if cmd = cmd25 then List.replicate 5 0x00 else [0x00]
    ((card.transfer level x s.1).1, ((card.transfer level x s.1).2, s.2))
  millis s := (s.2, (s.1, s.2 + 250))
  delay ms s := (s.1, s.2 + ms)
  digitalRead p s := (s.1.pins p, s)

/-- An initialised driver with that card, its two sectors to be written. -/
def stalled : Machine (Scripted × DWORD) where
  drv := { cs := 0, status := 0, cardType := ctMmc }
  out _ := .high
  hz := 15000000
  log := []
  env := (⟨fun _ => .high, [], []⟩, 0)

theorem stalled_write : ∃ m', exec stalling (write 3 (List.replicate 1024 0) 0 2) stalled =
      some (.error, m') ∧ .accepted cmd25 ∈ signsSince stalled m' ∧
    (signsSince stalled m').count .stop = 0 ∧
    .stray ∈ (watch .between
      (((Call.read [] 0 1).prog 3).advance (Machine.handle stalling) 75 m').log).2 := by
  have ran : ((exec stalling (write 3 (List.replicate 1024 0) 0 2) stalled).any fun x =>
      x.1 == .error && decide (.accepted cmd25 ∈ signsSince stalled x.2) &&
      (signsSince stalled x.2).count .stop == 0 &&
      decide (.stray ∈ (watch .between
        (((Call.read [] 0 1).prog 3).advance (Machine.handle stalling) 75 x.2).log).2)) = true := by
    decide +kernel
  simp only [Option.any_eq_true, Bool.and_eq_true, beq_iff_eq, decide_eq_true_eq] at ran
  obtain ⟨⟨_, m'⟩, run, ⟨⟨rfl, began⟩, none⟩, stray⟩ := ran
  exact ⟨m', run, began, none, stray⟩

/-- The stalling card took CMD25 and no stop token was sent: it takes the command frames of
the next `read()` for the data it still waits for. -/
theorem write_left_open : ∃ m', exec stalling (write 3 (List.replicate 1024 0) 0 2) stalled =
      some (.error, m') ∧ .accepted cmd25 ∈ signsSince stalled m' ∧
    ¬ Closed (signsSince stalled m') ∧
    .stray ∈ (watch .between
      (((Call.read [] 0 1).prog 3).advance (Machine.handle stalling) 75 m').log).2 := by
  obtain ⟨m', run, began, none, stray⟩ := stalled_write
  refine ⟨m', run, began, ?_, stray⟩
  rintro ⟨once, -⟩
  rw [none] at once
  exact absurd once Nat.zero_ne_one

end FatFsParticle.Sdspi
