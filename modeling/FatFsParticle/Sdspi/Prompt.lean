import FatFsParticle.Sdspi.Commands

/-!
# A prompt card

The card that accepts everything and answers without delay, on a board where no time
passes. It conforms, and the programs below run to their end on it.
-/

namespace FatFsParticle.Sdspi
open Interact Program

/-- What the prompt card sends, and where it is then. -/
def Card.prompt (x : BYTE) (c : Card) : BYTE × Card :=
  match c.phase with
  | .ready => (0xFF, if x &&& 0xC0 = 0x40 then { c with phase := .frame [x] } else c)
  | .frame [i, a₃, a₂, a₁, a₀] =>
    (0xFF, { c with phase := .command (i &&& 0x3F) (a₃ ++ a₂ ++ a₁ ++ a₀) })
  | .frame got => (0xFF, { c with phase := .frame (got ++ [x]) })
  | .command cmd arg => (0, { c with phase := c.answered cmd arg 0 })
  | .latency a => (0xFE, { c with phase := .sending ((c.store a).toList ++ [0xFF, 0xFF]) })
  | .sending (y :: ys) => (y, { c with phase := .sending ys })
  | .sending [] => (0xFF, { c with phase := .loose })
  | .loose => (0xFF, c)
  | .await a multi =>
    if x = 0xFF then (0xFF, c)
    else if x = Card.startToken multi then (0xFF, { c with phase := .packet a multi [] })
    else if multi ∧ x = 0xFD then (0xFF, { c with phase := .stuff, stops := c.stops + 1 })
    else (0xFF, { c with phase := .loose })
  | .packet a multi got =>
    if full : got.length = 514 then
      (0x05, { c with
        store := Function.update c.store a (Card.block512 got full)
        phase := .busy (if multi then some (a + 1) else none)
        responses := true :: c.responses })
    else (0xFF, { c with phase := .packet a multi (got ++ [x]) })
  | .busy next =>
    (0xFF, { c with phase := if x = 0xFF then next.elim .ready (.await · true) else .loose })
  | .stuff => (0xFF, { c with phase := .busy none })

theorem Card.step_prompt (x : BYTE) (c : Card) : c.Step x (c.prompt x).1 (c.prompt x).2 := by
  unfold Card.prompt
  split
  · rename_i at_
    split
    · rename_i start
      exact .start at_ start
    · rename_i other
      exact .idle at_ other
  · rename_i at_
    exact .framed at_
  · rename_i got other at_
    apply Step.frame at_
    intro five
    match got, five with
    | [i, a₃, a₂, a₁, a₀], _ => exact other i a₃ a₂ a₁ a₀ rfl
  · rename_i at_
    exact .answer (r := 0) at_ (by decide)
  · rename_i at_
    exact .token at_
  · rename_i at_
    exact .send at_
  · rename_i at_
    exact .sent at_
  · rename_i at_
    exact .loose at_
  · rename_i at_
    split_ifs with filler token stop
    · subst filler
      exact .await at_
    · exact .data at_ token
    · obtain ⟨rfl, rfl⟩ := stop
      exact .stop at_
    · exact .astray at_ filler token fun multi stop' => stop ⟨multi, stop'⟩
  · rename_i at_
    split
    · rename_i full
      exact .accept (y := 0x05) at_ full (by decide)
    · rename_i more
      exact .packet at_ more
  · rename_i at_
    split_ifs with filler
    · subst filler
      exact .release at_
    · exact .disturb at_ filler
  · rename_i at_
    exact .stuff at_

def prompt : Board Card where
  transfer level x c :=
    match level with
    | .low => c.prompt x
    | .high => (0xFF, { c with phase := .ready })
  millis c := (0, c)
  delay _ c := c
  digitalRead _ c := (.high, c)

theorem prompt_conforms : Conforms prompt id where
  low x c := c.step_prompt x
  high _ _ := ⟨.ready, .drop, rfl⟩
  millis _ := rfl
  delay _ _ := rfl
  digitalRead _ _ := rfl

namespace Scene

variable {α β : Type} {w w' : Scene}

/-- The prompt card answers a request. -/
def handle : (r : Request) → Scene → r.Ans × Scene
  | .transfer x, w =>
    match w.level with
    | .low => ((w.card.prompt x).1, { w with card := (w.card.prompt x).2 })
    | .high => (0xFF, w.at_ .ready)
  | .digitalWrite p l, w => ((), { w with out := Function.update w.out p l })
  | .digitalRead _, w => (.high, w)
  | .millis, w => (0, w)
  | .delay _, w => ((), w)
  | .mutexLock _, w => ((), w)
  | .mutexUnlock _, w => ((), w)
  | .spi _, w => ((), w)
  | .load, w => (w.drv, w)
  | .store f, w => ((), { w with drv := f w.drv })
  | .mark _, w => ((), w)

/-- `p` on the prompt card. -/
def play (p : Prog α) (w : Scene) : Option (α × Scene) := p.run handle w

theorem exec_play (p : Prog α) (m : Machine Card) :
    play p (m.scene id) = (exec prompt p m).map fun x => (x.1, x.2.scene id) := by
  apply run_map
  intro r m
  cases r with
  | transfer x =>
    have same : (m.scene id).level = m.csLevel := rfl
    simp only [handle, Machine.handle, same]
    cases m.csLevel <;> rfl
  | spi c => cases c <;> rfl
  | _ => rfl

/-- A program that ends on the prompt card ends on its board. -/
theorem exec_of_play {p : Prog α} {m : Machine Card} {a : α} (h : play p (m.scene id) = some (a, w)) :
    ∃ m', exec prompt p m = some (a, m') ∧ m'.scene id = w := by
  rw [exec_play] at h
  obtain ⟨⟨a', m'⟩, run, same⟩ := Option.map_eq_some_iff.1 h
  obtain ⟨rfl, rfl⟩ := Prod.mk.inj same
  exact ⟨m', run, rfl⟩

theorem play_seq {p : Prog α} {f : α → Prog β} {a : α} (h : play p w = some (a, w')) :
    play (p >>= f) w = play (f a) w' := by
  unfold play at *
  rw [run_bind, h]
  rfl

theorem play_load : play load w = some (w.drv, w) := rfl

theorem play_begin (d : DWORD) : play (TimeoutChecker.begin d) w = some (⟨0, d, 0 + d⟩, w) := rfl

theorem play_high {x : BYTE} (off : w.level = .high) :
    play (xmitSpi x) w = some (0xFF, w.at_ .ready) := by
  simp [xmitSpi, ask, play, handle, off]

/-- With the CS pin high and the card ready. -/
def released (w : Scene) : Scene :=
  { w with out := Function.update w.out w.drv.cs .high }.at_ .ready

/-- With the CS pin low and the card in the phase `p`. -/
def selected (w : Scene) (p : Phase) : Scene :=
  { w with out := Function.update w.out w.drv.cs .low }.at_ p

@[simp] theorem selected_level (w : Scene) (p : Phase) : (w.selected p).level = .low := by
  simp [selected, level, at_]

@[simp] theorem selected_selected (w : Scene) (p q : Phase) :
    (w.selected p).selected q = w.selected q := by
  simp [selected, at_]

@[simp] theorem released_selected (w : Scene) (p : Phase) :
    w.released.selected p = w.selected p := by
  simp [selected, released, at_]

theorem play_selected {x : BYTE} {p : Phase} {y : BYTE} {c : Card}
    (h : { w.card with phase := p }.prompt x = (y, c)) :
    play (xmitSpi x) (w.selected p) = some (y, { w with card := c }.selected c.phase) := by
  have on : (w.selected p).level = .low := selected_level w p
  have card : (w.selected p).card = { w.card with phase := p } := rfl
  unfold xmitSpi ask play
  rw [run_request]
  simp only [handle, on, card, h]
  rfl

/-- A byte exchanged with the card selected, of which only the phase changes. -/
theorem play_low {x y : BYTE} {p q : Phase}
    (h : { w.card with phase := p }.prompt x = (y, { w.card with phase := q })) :
    play (xmitSpi x) (w.selected p) = some (y, w.selected q) :=
  play_selected h

theorem play_deselect : play deselect w = some ((), w.released) := by
  have moved : play deassertCS w = some ((), { w with out := Function.update w.out w.drv.cs .high }) :=
    rfl
  unfold deselect
  rw [play_seq moved, play_seq (play_high (by simp [level]))]
  rfl

/-- A card that sends 0xFF is ready at once. -/
theorem play_waitReady {n : Nat} {wt : UINT} (h : play (xmitSpi 0xFF) w = some (0xFF, w')) :
    play (waitReady (n + 1) wt) w = some (true, w') := by
  have loop (t : TimeoutChecker) : play (waitReadyLoop t (n + 1)) w = some (0xFF, w') := by
    unfold waitReadyLoop
    rw [play_seq h]
    rfl
  unfold waitReady
  rw [play_seq (play_begin _), play_seq (loop _)]
  rfl

theorem play_select (n : Nat) (ready : w.card.phase = .ready) :
    play (select (n + 1)) w = some (true, w.selected .ready) := by
  have moved : play assertCS w = some ((), w.selected .ready) := by
    have same : w.card = { w.card with phase := .ready } := by rw [← ready]
    unfold selected at_
    rw [← same]
    rfl
  have filler : play (xmitSpi 0xFF) (w.selected .ready) = some (0xFF, w.selected .ready) :=
    play_low rfl
  unfold select
  rw [play_seq moved, play_seq filler, play_seq (play_waitReady filler)]
  rfl

theorem play_sendPacket (n : Nat) (cmd : BYTE) (arg : DWORD) (valid : cmd &&& 0xC0 = 0)
    (not12 : cmd ≠ cmd12) :
    play (sendPacket (n + 1) cmd arg) w = some (0, w.selected (w.card.answered cmd arg 0)) := by
  have start : play (xmitSpi (0x40 ||| cmd)) (w.selected .ready) =
      some (0xFF, w.selected (.frame [0x40 ||| cmd])) := by
    apply play_low
    simp only [Card.prompt]
    rw [if_pos (start_byte valid).1]
  have answer : play (receiveResponse 9) (w.selected (.command cmd arg)) =
      some (0, w.selected (w.card.answered cmd arg 0)) := by
    unfold receiveResponse
    rw [play_seq (play_low rfl)]
    rfl
  have reached : play (do deselect; select (n + 1) : Prog Bool) w =
      some (true, w.selected .ready) := by
    rw [play_seq play_deselect, play_select n rfl, released_selected]
  unfold sendPacket
  rw [if_pos not12, play_seq reached, if_pos rfl, play_seq start]
  iterate 5 rw [play_seq (play_low rfl)]
  rw [if_neg not12, (start_byte valid).2, arg_bytes, answer]

theorem play_sendCmd (n : Nat) (cmd : BYTE) (arg : DWORD) (valid : cmd &&& 0xC0 = 0)
    (not12 : cmd ≠ cmd12) (filler : play (xmitSpi 0xFF) w = some (0xFF, w')) :
    play (sendCmd (n + 1) cmd arg) w = some (0, w'.selected (w'.card.answered cmd arg 0)) := by
  have plain : ¬ cmd &&& 0x80 ≠ 0 := by
    revert cmd
    decide
  unfold sendCmd
  rw [play_seq (play_waitReady filler), if_neg plain, play_sendPacket n cmd arg valid not12]

/-! ## Blocks -/

theorem play_rcvrSpiMulti (bs rest : List BYTE) :
    play (rcvrSpiMulti bs.length) (w.selected (.sending (bs ++ rest))) =
      some (bs, w.selected (.sending rest)) := by
  induction bs with
  | nil => rfl
  | cons x bs ih =>
    change play (rcvrSpiMulti (bs.length + 1)) _ = _
    unfold rcvrSpiMulti
    rw [play_seq (play_low (q := .sending (bs ++ rest)) rfl), play_seq ih]
    rfl

theorem play_rcvrDatablock (n a : Nat) :
    play (rcvrDatablock (n + 1) 512) (w.selected (.latency a)) =
      some (some (w.card.store a).toList, w.selected (.sending [0xFF])) := by
  have token (t : TimeoutChecker) : play (waitToken t (n + 1)) (w.selected (.latency a)) =
      some (0xFE, w.selected (.sending ((w.card.store a).toList ++ [0xFF, 0xFF]))) := by
    unfold waitToken
    rw [play_seq (play_low rfl)]
    rfl
  have block := play_rcvrSpiMulti (w := w) (w.card.store a).toList [0xFF, 0xFF]
  rw [(w.card.store a).toList_length] at block
  unfold rcvrDatablock
  rw [play_seq (play_begin _), play_seq (token _), if_pos rfl, play_seq block,
    play_seq (play_low rfl)]
  rfl

/-- The card's data after it has taken in `bytes` for the sector `a`. -/
def wrote (w : Scene) (a : Nat) (bytes : List BYTE) (h : bytes.length = 512) : Scene :=
  { w with card := { w.card with
      store := Function.update w.card.store a ⟨bytes, h⟩, responses := true :: w.card.responses } }

theorem play_xmitSpiMulti (bs got : List BYTE) (a : Nat) (multi : Bool)
    (room : got.length + bs.length ≤ 514) :
    play (xmitSpiMulti bs) (w.selected (.packet a multi got)) =
      some ((), w.selected (.packet a multi (got ++ bs))) := by
  induction bs generalizing got with
  | nil => simp [xmitSpiMulti, play]
  | cons x bs ih =>
    have more : got.length ≠ 514 := by
      simp at room
      omega
    have byte : play (xmitSpi x) (w.selected (.packet a multi got)) =
        some (0xFF, w.selected (.packet a multi (got ++ [x]))) := by
      apply play_low
      simp [Card.prompt, more]
    unfold xmitSpiMulti
    rw [play_seq byte, ih _ (by simp at room ⊢; omega), List.append_assoc]
    rfl

theorem play_xmitDatablock (n a : Nat) (multi : Bool) {p : Phase} {buff : List BYTE}
    (size : 512 ≤ buff.length)
    (filler : play (xmitSpi 0xFF) (w.selected p) = some (0xFF, w.selected (.await a multi))) :
    play (xmitDatablock (n + 1) buff (Card.startToken multi)) (w.selected p) =
      some (true, (w.wrote a (buff.take 512) (List.length_take_of_le size)).selected
        (.busy (if multi then some (a + 1) else none))) := by
  have token : play (xmitSpi (Card.startToken multi)) (w.selected (.await a multi)) =
      some (0xFF, w.selected (.packet a multi [])) := by
    apply play_low
    cases multi <;> rfl
  have data : play (xmitSpiMulti (buff.take 512)) (w.selected (.packet a multi [])) =
      some ((), w.selected (.packet a multi (buff.take 512))) :=
    play_xmitSpiMulti (buff.take 512) [] a multi (by simp)
  have crc (got : List BYTE) (more : got.length ≠ 514) :
      play (xmitSpi 0xFF) (w.selected (.packet a multi got)) =
        some (0xFF, w.selected (.packet a multi (got ++ [0xFF]))) := by
    apply play_low
    simp [Card.prompt, more]
  have full : (buff.take 512 ++ [0xFF] ++ [0xFF]).length = 514 := by simp [size]
  have response : play (xmitSpi 0xFF)
      (w.selected (.packet a multi (buff.take 512 ++ [0xFF] ++ [0xFF]))) =
      some (0x05, (w.wrote a (buff.take 512) (by simp [size])).selected
        (.busy (if multi then some (a + 1) else none))) := by
    have same : Card.block512 _ full = ⟨buff.take 512, by simp [size]⟩ := by
      apply Subtype.ext
      simp [Card.block512, size]
    have accepted : { w.card with
        phase := .packet a multi (buff.take 512 ++ [0xFF] ++ [0xFF]) }.prompt 0xFF =
        (0x05, { w.card with
          store := Function.update w.card.store a ⟨buff.take 512, by simp [size]⟩
          phase := .busy (if multi then some (a + 1) else none)
          responses := true :: w.card.responses }) := by
      simp only [Card.prompt]
      rw [dif_pos full, same]
    rw [play_selected accepted]
    rfl
  unfold xmitDatablock
  rw [play_seq (play_waitReady filler), if_pos rfl, play_seq token,
    if_pos (by cases multi <;> decide), play_seq data, play_seq (crc _ (by simp [size])),
    play_seq (crc _ (by simp [size])), play_seq response]
  rfl

/-! ## Members -/

/-- The scene between `lock()` and `unlock()`. -/
def locked (w : Scene) : Scene := { w with drv := { w.drv with busy := true, busyCheck := true } }

def unlocked (w : Scene) : Scene := { w with drv := { w.drv with busy := false } }

theorem play_lock : play lock w = some ((), w.locked) := by
  have acquired : play acquire w = some ((), w) := by
    unfold acquire
    rw [play_seq play_load]
    cases w.drv.mutex <;> rfl
  unfold lock
  rw [play_seq acquired]
  rfl

theorem play_unlock : play unlock w = some ((), w.unlocked) := by
  have stored : play (store fun d => { d with busy := false }) w = some ((), w.unlocked) := rfl
  unfold unlock
  rw [play_seq stored]
  unfold release
  rw [play_seq play_load]
  cases w.unlocked.drv.mutex <;> rfl

theorem play_member {p : Prog α} {f : Member} {a : α} (h : play p w.locked = some (a, w')) :
    play (member f (lockGuard p)) w = some (a, w'.unlocked) := by
  have guarded : play (lockGuard p) w = some (a, w'.unlocked) := by
    unfold lockGuard
    rw [play_seq play_lock, play_seq h, play_seq play_unlock]
    rfl
  have entered : play (mark (.enter f)) w = some ((), w) := rfl
  unfold member
  rw [play_seq entered, play_seq guarded]
  rfl

/-- An initialised driver without input pins and an idle bus. -/
structure Idle (w : Scene) : Prop where
  cd : w.drv.cdEnabled = false
  wp : w.drv.wpEnabled = false
  status : w.drv.status = 0
  off : w.level = .high

theorem Idle.present (h : w.Idle) : play cardPresent w = some (true, w) := by
  unfold cardPresent
  rw [play_seq play_load, h.cd]
  rfl

theorem Idle.unprotected (h : w.Idle) : play writeProtected w = some (false, w) := by
  unfold writeProtected
  rw [play_seq play_load, h.wp]
  rfl

theorem Idle.locked (h : w.Idle) : w.locked.Idle := ⟨h.cd, h.wp, h.status, h.off⟩

end Scene

/-- An initialised driver and a card of eight sectors, block addressed. -/
def inserted (store : Nat → Sector) : Machine Card where
  drv := { cs := 1, status := 0, cardType := ctSd2 ||| ctBlock }
  out _ := .high
  hz := 15000000
  log := []
  env := { block := true, sectors := 8, store := store }

theorem inserted_idle (store : Nat → Sector) : ((inserted store).scene id).Idle :=
  ⟨rfl, rfl, rfl, rfl⟩

theorem inserted_quiet (store : Nat → Sector) : (inserted store).env.phase.Quiet := trivial

theorem inserted_addressed (store : Nat → Sector) {n : UINT} (h : n.toNat ≤ 8) :
    (inserted store).env.Addressed (inserted store).drv.cardType 0 n where
  block := by simp [inserted]
  bytes := by simp [inserted]
  within := by simpa [inserted] using h

end FatFsParticle.Sdspi
