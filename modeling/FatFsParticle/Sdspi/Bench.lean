import FatFsParticle.Sdspi.Watch

/-!
# What each function tells

One rule for each function on the bus: where it leaves the talk, and the signs it adds.
What is polite adds no more than plain signs and ends between transactions.
-/

namespace FatFsParticle.Sdspi
open Interact Program

variable {α β : Type}

/-- Signs of commands that ask for no data. -/
def Sign.Plain : Sign → Prop
  | command _ => True
  | accepted cmd => cmd ≠ cmd24 ∧ cmd ≠ cmd25
  | _ => False

namespace Bench

variable {w w' : Bench}

/-! ## Single requests -/

theorem wp_xmitSpi {x : BYTE} {Q : BYTE → Bench → Prop}
    (allowed : w.level = .low → ∀ multi, w.talk = .tokens multi → x &&& 0xC0 ≠ 0x40)
    (h : ∀ y, Q y (w.hears x y)) : (xmitSpi x).wp rules Q w := by
  refine ⟨allowed, ?_⟩
  rintro y w' rfl
  exact h y

theorem wp_filler {Q : BYTE → Bench → Prop} (h : ∀ y, Q y (w.hears 0xFF y)) :
    (xmitSpi 0xFF).wp rules Q w :=
  wp_xmitSpi (fun _ _ _ => by decide) h

theorem wp_load {Q : SdspiDriver → Bench → Prop} (h : Q w.drv w) : load.wp rules Q w := by
  refine ⟨trivial, ?_⟩
  rintro d w' ⟨rfl, rfl⟩
  exact h

/-- With the CS pin driven to `l`, and else as `w`. -/
def switched (w : Bench) (l : Level) : Bench := { w with out := Function.update w.out w.drv.cs l }

@[simp] theorem switched_level (w : Bench) (l : Level) : (w.switched l).level = l := by
  simp [switched, level]

theorem wp_assertCS {Q : Unit → Bench → Prop} (h : Q () (w.switched .low)) :
    assertCS.wp rules Q w := by
  refine (wp_bind _ _ _ _ _).2 (wp_load ⟨trivial, ?_⟩)
  rintro ⟨⟩ w' rfl
  exact h

theorem wp_deassertCS {Q : Unit → Bench → Prop} (h : Q () (w.switched .high)) :
    deassertCS.wp rules Q w := by
  refine (wp_bind _ _ _ _ _).2 (wp_load ⟨trivial, ?_⟩)
  rintro ⟨⟩ w' rfl
  exact h

theorem wp_millis {Q : DWORD → Bench → Prop} (h : ∀ t, Q t w) : millis.wp rules Q w := by
  refine ⟨trivial, ?_⟩
  rintro t w' rfl
  exact h t

theorem hears_high (off : w.level = .high) (x y : BYTE) : w.hears x y = w := by
  unfold hears
  rw [off]

theorem hears_low (on : w.level = .low) (x y : BYTE) :
    w.hears x y =
      { w with talk := (w.talk.hear x y).1, signs := (w.talk.hear x y).2 ++ w.signs } := by
  unfold hears
  rw [on]

/-- A filler byte between commands tells nothing. -/
theorem hears_between (at_ : w.talk = .between) (y : BYTE) : w.hears 0xFF y = w := by
  unfold hears
  split
  · rw [at_]
    cases w
    cases at_
    rfl
  · rfl

/-! ## Waiting for the card -/

/-- `wait_ready` where a byte 0xFF takes `w` to `w'` and any other changes nothing. -/
theorem wp_waitReady {fuel : Nat} {wt : UINT} {Q : Bool → Bench → Prop}
    (heard : w.hears 0xFF 0xFF = w') (deaf : ∀ y, y ≠ 0xFF → w.hears 0xFF y = w)
    (ready : Q true w') (late : Q false w) : (waitReady fuel wt).wp rules Q w := by
  have loop (t : TimeoutChecker) (fuel : Nat) :
      (waitReadyLoop t fuel).wp rules (fun d t => Q (d == 0xFF) t) w := by
    induction fuel with
    | zero => trivial
    | succ fuel ih =>
      unfold waitReadyLoop
      rw [wp_bind]
      apply wp_filler
      intro y
      by_cases full : y = 0xFF
      · subst full
        rw [if_pos rfl, heard]
        exact ready
      · rw [if_neg full, deaf y full, wp_bind]
        refine (wp_bind _ _ _ _ _).2 (wp_millis fun now => ?_)
        rw [wp_pure]
        split
        · have other : (y == 0xFF) = false := by simpa using full
          rw [wp_pure, other]
          exact late
        · exact ih
  unfold waitReady TimeoutChecker.begin
  rw [wp_bind, wp_bind]
  apply wp_millis
  intro now
  rw [wp_pure]
  apply wp_seq (loop _ fuel)
  intro d t h
  exact h

theorem wp_waitReady_between {fuel : Nat} {wt : UINT} {Q : Bool → Bench → Prop}
    (at_ : w.talk = .between) (h : ∀ ok, Q ok w) : (waitReady fuel wt).wp rules Q w :=
  wp_waitReady (hears_between at_ _) (fun _ _ => hears_between at_ _) (h true) (h false)

/-! ## Command frames -/

theorem wp_deselect {Q : Unit → Bench → Prop} (h : Q () (w.switched .high)) :
    deselect.wp rules Q w := by
  unfold deselect
  rw [wp_bind]
  apply wp_deassertCS
  rw [wp_bind]
  apply wp_filler
  intro y
  rw [hears_high (w.switched_level .high)]
  exact h

theorem wp_select {fuel : Nat} {Q : Bool → Bench → Prop} (at_ : w.talk = .between)
    (ready : Q true (w.switched .low)) (late : ∀ w', w'.talk = .between → w'.signs = w.signs →
      Q false w') : (select fuel).wp rules Q w := by
  unfold select
  rw [wp_bind]
  apply wp_assertCS
  rw [wp_bind]
  apply wp_filler
  intro y
  rw [hears_between (w := w.switched .low) at_, wp_bind]
  apply wp_waitReady_between (w := w.switched .low) at_
  intro ok
  cases ok with
  | true => exact ready
  | false =>
    rw [if_neg Bool.false_ne_true, wp_bind]
    apply wp_deselect
    exact late _ at_ rfl

/-- At another place of the talk, with more signs. -/
def told (w : Bench) (t : Talk) (s : List Sign) : Bench := { w with talk := t, signs := s ++ w.signs }

@[simp] theorem told_level (w : Bench) (t : Talk) (s : List Sign) : (w.told t s).level = w.level := rfl

@[simp] theorem told_told (w : Bench) (t u : Talk) (s r : List Sign) :
    (w.told t s).told u r = w.told u (r ++ s) := by
  simp [told]

theorem hears_told {t u : Talk} {s r : List Sign} {x y : BYTE} (on : w.level = .low)
    (h : t.hear x y = (u, r)) : (w.told t s).hears x y = w.told u (r ++ s) := by
  rw [hears_low (w := w.told t s) on]
  simp [told, h]

/-- A byte of a frame. -/
theorem wp_frameByte {x : BYTE} {t u : Talk} {s r : List Sign} {Q : BYTE → Bench → Prop}
    (on : w.level = .low) (hear : ∀ y, t.hear x y = (u, r)) (other : ∀ multi, t ≠ .tokens multi)
    (h : ∀ y, Q y (w.told u (r ++ s))) : (xmitSpi x).wp rules Q (w.told t s) := by
  apply wp_xmitSpi
  · intro _ multi at_
    exact absurd at_ (other multi)
  · intro y
    rw [hears_told on (hear y)]
    exact h y

/-- R1 to a command, or none in the ten bytes the code waits for. -/
theorem wp_receiveResponse {cmd : BYTE} {s : List Sign} (n : Nat) (on : w.level = .low) :
    (receiveResponse n).wp rules (fun res w' =>
      (res = 0 ∧ w' = w.told (Talk.granted cmd) (.accepted cmd :: s)) ∨
      (res ≠ 0 ∧ w' = w.told .between s)) (w.told (.reply cmd (n + 1)) s) := by
  have clear (n : Nat) {y : BYTE} (h : y &&& 0x80 = 0) :
      (y = 0 ∧ (w.told (.reply cmd (n + 1)) s).hears 0xFF y =
        w.told (Talk.granted cmd) (.accepted cmd :: s)) ∨
      (y ≠ 0 ∧ (w.told (.reply cmd (n + 1)) s).hears 0xFF y = w.told .between s) := by
    by_cases zero : y = 0
    · refine .inl ⟨zero, hears_told on (r := [.accepted cmd]) ?_⟩
      simp [Talk.hear, zero]
    · refine .inr ⟨zero, hears_told on (r := []) ?_⟩
      simp only [Talk.hear]
      rw [if_pos h, if_neg zero]
  have set {y : BYTE} (h : ¬ y &&& 0x80 = 0) : y ≠ 0 := by
    rintro rfl
    exact h (by decide)
  induction n with
  | zero =>
    apply wp_filler
    intro y
    by_cases h : y &&& 0x80 = 0
    · exact clear 0 h
    · refine .inr ⟨set h, hears_told on (r := []) ?_⟩
      simp only [Talk.hear]
      rw [if_neg h]
      rfl
  | succ n ih =>
    unfold receiveResponse
    rw [wp_bind]
    apply wp_filler
    intro y
    by_cases h : y &&& 0x80 = 0
    · rw [if_neg (not_not.2 h)]
      exact clear (n + 1) h
    · have next : (Talk.reply cmd (n + 2)).hear 0xFF y = (.reply cmd (n + 1), []) := by
        simp only [Talk.hear]
        rw [if_neg h]
        rfl
      rw [if_pos h, hears_told on next]
      exact ih

/-- A command sent between transactions. -/
theorem wp_sendPacket {fuel : Nat} {cmd : BYTE} {arg : DWORD} (valid : cmd &&& 0xC0 = 0)
    (not12 : cmd ≠ cmd12) (at_ : w.talk = .between) :
    (sendPacket fuel cmd arg).wp rules (fun res w' =>
      (res = 0 ∧ w'.level = .low ∧ w'.talk = Talk.granted cmd ∧
        w'.signs = .accepted cmd :: .command cmd :: w.signs) ∨
      (res ≠ 0 ∧ w'.talk = .between ∧
        (w'.signs = w.signs ∨ w'.signs = .command cmd :: w.signs))) w := by
  unfold sendPacket
  rw [if_pos not12, wp_bind, wp_bind]
  apply wp_deselect
  apply wp_select (w := w.switched .high) at_
  · have on : ((w.switched .high).switched .low).level = .low := switched_level _ _
    have same : (w.switched .high).switched .low =
        ((w.switched .high).switched .low).told .between [] := by
      rw [← at_]
      rfl
    rw [if_pos rfl, same, wp_bind]
    refine wp_frameByte (u := .frame [0x40 ||| cmd]) (r := []) on ?_ (fun _ no => nomatch no)
      fun _ => ?_
    · intro y
      simp only [Talk.hear, (start_byte valid).1, ↓reduceIte]
    iterate 4
      rw [wp_bind]
      refine wp_frameByte (r := []) on (fun _ => rfl) (fun _ no => nomatch no) fun _ => ?_
    rw [wp_bind]
    refine wp_frameByte (r := [.command cmd]) on (u := .reply cmd 10) ?_ (fun _ no => nomatch no)
      fun _ => ?_
    · intro y
      change (Talk.reply ((0x40 ||| cmd) &&& 0x3F) 10, [Sign.command ((0x40 ||| cmd) &&& 0x3F)]) = _
      rw [(start_byte valid).2]
    rw [if_neg not12]
    apply wp_mono (wp_receiveResponse 9 on)
    rintro res w' (⟨zero, rfl⟩ | ⟨other, rfl⟩)
    · exact .inl ⟨zero, on, rfl, rfl⟩
    · exact .inr ⟨other, rfl, .inr rfl⟩
  · intro w' between signs
    exact .inr ⟨by decide, between, .inl signs⟩

/-! ## Programs without data packets -/

/-- Between transactions, with no more than plain signs added. -/
def Settled (w w' : Bench) : Prop :=
  w'.talk = .between ∧ ∃ s, w'.signs = s ++ w.signs ∧ ∀ x ∈ s, x.Plain

theorem settled_refl (at_ : w.talk = .between) : w.Settled w := ⟨at_, [], rfl, by simp⟩

theorem Settled.trans {w'' : Bench} (h : w.Settled w') (h' : w'.Settled w'') : w.Settled w'' := by
  obtain ⟨-, s, signs, plain⟩ := h
  obtain ⟨at_, s', signs', plain'⟩ := h'
  refine ⟨at_, s' ++ s, by rw [signs', signs, List.append_assoc], ?_⟩
  intro x mem
  rcases List.mem_append.1 mem with mem | mem
  · exact plain' x mem
  · exact plain x mem

/-- The command `cmd` was answered by 0, and nothing else happened. -/
def Granted (cmd : BYTE) (w w' : Bench) : Prop :=
  w'.level = .low ∧ w'.talk = Talk.granted cmd ∧
    ∃ s, w'.signs = .accepted cmd :: s ++ w.signs ∧ ∀ x ∈ s, x.Plain

theorem Granted.settled {cmd : BYTE} (h : w.Granted cmd w') (plain : cmd ≠ cmd24 ∧ cmd ≠ cmd25) :
    w.Settled w' := by
  obtain ⟨-, at_, s, signs, hs⟩ := h
  refine ⟨?_, _, signs, ?_⟩
  · rw [at_, Talk.granted, if_neg plain.1, if_neg plain.2]
  · intro x mem
    rcases List.mem_cons.1 mem with rfl | mem
    · exact plain
    · exact hs x mem

theorem Settled.granted {w'' : Bench} {cmd : BYTE} (h : w.Settled w') (h' : w'.Granted cmd w'') :
    w.Granted cmd w'' := by
  obtain ⟨-, s, signs, plain⟩ := h
  obtain ⟨on, at_, s', signs', plain'⟩ := h'
  refine ⟨on, at_, s' ++ s, by rw [signs', signs]; simp, ?_⟩
  intro x mem
  rcases List.mem_append.1 mem with mem | mem
  · exact plain' x mem
  · exact plain x mem

theorem wp_sendPacket_granted {fuel : Nat} {cmd : BYTE} {arg : DWORD} (valid : cmd &&& 0xC0 = 0)
    (not12 : cmd ≠ cmd12) (at_ : w.talk = .between) :
    (sendPacket fuel cmd arg).wp rules
      (fun res w' => res = 0 ∧ w.Granted cmd w' ∨ res ≠ 0 ∧ w.Settled w') w := by
  apply wp_mono (wp_sendPacket valid not12 at_)
  rintro res w' (⟨zero, on, granted, signs⟩ | ⟨other, between, signs | signs⟩)
  · exact .inl ⟨zero, on, granted, [.command cmd], signs, by simp [Sign.Plain]⟩
  · exact .inr ⟨other, between, [], signs, by simp⟩
  · exact .inr ⟨other, between, [.command cmd], signs, by simp [Sign.Plain]⟩

theorem wp_sendCmd {fuel : Nat} {cmd : BYTE} {arg : DWORD} (valid : cmd &&& 0x40 = 0)
    (not12 : cmd &&& 0x7F ≠ cmd12) (at_ : w.talk = .between) :
    (sendCmd fuel cmd arg).wp rules
      (fun res w' => res = 0 ∧ w.Granted (cmd &&& 0x7F) w' ∨ res ≠ 0 ∧ w.Settled w') w := by
  have low : (cmd &&& 0x7F) &&& 0xC0 = 0 := by
    revert cmd
    decide
  unfold sendCmd
  rw [wp_bind]
  apply wp_waitReady_between at_
  intro _
  split
  · rw [wp_bind]
    apply wp_waitReady_between at_
    intro _
    have valid55 : cmd55 &&& 0xC0 = 0 := by decide
    apply wp_seq (wp_sendPacket_granted valid55 (by decide) at_)
    intro res w₁ announced
    have settled : w.Settled w₁ := by
      rcases announced with ⟨-, granted⟩ | ⟨-, settled⟩
      · exact granted.settled (by decide)
      · exact settled
    split
    · rename_i rejected
      refine .inr ⟨?_, settled⟩
      rintro rfl
      exact absurd rejected (by decide)
    · apply wp_mono (wp_sendPacket_granted low not12 settled.1)
      rintro res w₂ (⟨zero, granted⟩ | ⟨other, settled'⟩)
      · exact .inl ⟨zero, settled.granted granted⟩
      · exact .inr ⟨other, settled.trans settled'⟩
  · rename_i plain
    have same : cmd &&& 0x7F = cmd := by
      revert cmd
      decide
    rw [same] at low not12 ⊢
    exact wp_sendPacket_granted low not12 at_

/-- A request that exchanges no byte tells nothing. -/
theorem wp_silent {r : Request} (h : r.Silent) {Q : r.Ans → Bench → Prop}
    (hQ : ∀ x w', w'.talk = w.talk → w'.signs = w.signs → Q x w') : (ask r).wp rules Q w := by
  cases r with
  | transfer x => exact h.elim
  | load =>
    refine ⟨trivial, ?_⟩
    rintro x w' ⟨-, rfl⟩
    exact hQ x w' rfl rfl
  | _ =>
    refine ⟨trivial, ?_⟩
    rintro x w' rfl
    exact hQ x _ rfl rfl

end Bench

open Bench

/-- Filler and commands leave no transaction open. -/
theorem Polite.settles {p : Prog α} (h : Polite p) {w : Bench} (at_ : w.talk = .between) :
    p.wp rules (fun _ w' => w.Settled w') w := by
  induction h generalizing w with
  | pure a => exact settled_refl at_
  | stuck => trivial
  | bind _ _ ihp ihf =>
    apply wp_seq (ihp at_)
    intro a w₁ settled
    apply wp_mono (ihf a settled.1)
    exact fun _ _ => settled.trans
  | filler =>
    apply wp_filler
    intro y
    rw [hears_between at_]
    exact settled_refl at_
  | silent h =>
    apply wp_silent h
    intro x w' talk signs
    exact ⟨talk.trans at_, [], signs, by simp⟩
  | command fuel arg valid plain =>
    apply wp_mono (wp_sendCmd valid plain.1 at_)
    rintro res w' (⟨-, granted⟩ | ⟨-, settled⟩)
    · exact granted.settled plain.2
    · exact settled

/-! ## Data packets -/

namespace Bench

variable {w w' : Bench}

theorem told_tokens {t : Talk} (at_ : w.talk = t) : w = w.told t [] := by
  rw [← at_]
  rfl

/-- `wait_ready` before a token. -/
theorem wp_waitReady_tokens {fuel : Nat} {wt : UINT} {multi : Bool} {Q : Bool → Bench → Prop}
    (on : w.level = .low) (at_ : w.talk = .tokens multi)
    (ready : Q true (w.told (.tokens multi) [.ready])) (late : Q false w) :
    (waitReady fuel wt).wp rules Q w := by
  have hear (y : BYTE) : w.hears 0xFF y =
      w.told (.tokens multi) (if y = 0xFF then [.ready] else []) := by
    rw [hears_low on, at_]
    cases multi <;> rfl
  apply wp_waitReady (hear 0xFF) _ ready late
  intro y other
  rw [hear, if_neg other]
  exact (told_tokens at_).symm

theorem wp_xmitSpiMulti {multi : Bool} {s : List Sign} {Q : Unit → Bench → Prop} (bs : List BYTE)
    (left : Nat) (on : w.level = .low) (h : Q () (w.told (.packet multi left) s)) :
    (xmitSpiMulti bs).wp rules Q (w.told (.packet multi (left + bs.length)) s) := by
  induction bs with
  | nil => exact h
  | cons x bs ih =>
    unfold xmitSpiMulti
    rw [wp_bind]
    exact wp_frameByte (r := []) on (fun _ => rfl) (fun _ no => nomatch no) fun _ => ih

/-- A data packet is not begun, or sent with its response taken in. -/
theorem wp_xmitDatablock (multi : Bool) {fuel : Nat} {buff : List BYTE} {Q : Bool → Bench → Prop}
    (size : 512 ≤ buff.length) (on : w.level = .low) (at_ : w.talk = .tokens multi)
    (late : Q false w)
    (sent : ∀ ok, Q ok (w.told (if multi then .tokens true else .between) [.packet multi, .ready])) :
    (xmitDatablock fuel buff (Card.startToken multi)).wp rules Q w := by
  unfold xmitDatablock
  rw [wp_bind]
  apply wp_waitReady_tokens on at_
  case late =>
    rw [if_neg Bool.false_ne_true]
    exact late
  rw [if_pos rfl, wp_bind]
  apply wp_xmitSpi
  · intro _ _ _
    cases multi <;> decide
  intro y
  have token : (w.told (.tokens multi) [.ready]).hears (Card.startToken multi) y =
      w.told (.packet multi (2 + (buff.take 512).length)) [.ready] := by
    apply hears_told on (r := [])
    rw [List.length_take_of_le size]
    cases multi <;> rfl
  rw [token, if_pos (by cases multi <;> decide), wp_bind]
  apply wp_xmitSpiMulti (buff.take 512) 2 on
  rw [wp_bind]
  refine wp_frameByte (r := []) (u := .packet multi 1) on (fun _ => rfl) (fun _ no => nomatch no)
    fun _ => ?_
  rw [wp_bind]
  refine wp_frameByte (r := []) (u := .packet multi 0) on (fun _ => rfl) (fun _ no => nomatch no)
    fun _ => ?_
  rw [wp_bind]
  refine wp_frameByte (r := [.packet multi]) on (fun _ => rfl) (fun _ no => nomatch no) fun resp => ?_
  exact sent (resp &&& 0x1F == 0x05)

/-- The stop token is not sent, or sent at once when the card gets ready. -/
theorem wp_stop {fuel : Nat} {Q : Bool → Bench → Prop} (on : w.level = .low)
    (at_ : w.talk = .tokens true) (late : Q false w)
    (sent : Q true (w.told .between [.stop, .ready])) :
    (xmitDatablock fuel [] 0xFD).wp rules Q w := by
  unfold xmitDatablock
  rw [wp_bind]
  apply wp_waitReady_tokens on at_
  case late =>
    rw [if_neg Bool.false_ne_true]
    exact late
  rw [if_pos rfl, wp_bind]
  apply wp_xmitSpi
  · intro _ _ _
    decide
  intro y
  have token : (w.told (.tokens true) [.ready]).hears 0xFD y = w.told .between [.stop, .ready] :=
    hears_told on (r := [.stop]) rfl
  rw [token, if_neg (by decide)]
  exact sent

end Bench

end FatFsParticle.Sdspi
