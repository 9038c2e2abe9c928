import FatFsParticle.Sdspi.Card
import FatFsParticle.Sdspi.Polite

/-!
# What commands do to a card

A filler byte can only move the phase of a card that is not taking in a packet, so
everything built from filler bytes and commands keeps the sectors: `Lulls`. A
command that is answered leaves the card where its answer says.
-/

namespace FatFsParticle.Sdspi
open Interact Program

variable {α β : Type} {w w' : Scene}

namespace Scene

@[simp] theorem at_card (w : Scene) (p : Phase) : (w.at_ p).card = { w.card with phase := p } := rfl

@[simp] theorem at_at (w : Scene) (p q : Phase) : (w.at_ p).at_ q = w.at_ q := rfl

theorem at_same {p : Phase} (h : w.card.phase = p) : w.at_ p = w := by
  subst h
  rfl

/-- Only the phase of the card may have changed, and it is not taking in a packet. -/
def Idled (w w' : Scene) : Prop := ∃ p, p.Quiet ∧ w'.card = { w.card with phase := p }

theorem idled_refl (h : w.card.phase.Quiet) : w.Idled w := ⟨_, h, rfl⟩

theorem Idled.quiet (h : w.Idled w') : w'.card.phase.Quiet := by
  obtain ⟨p, quiet, card⟩ := h
  rw [card]
  exact quiet

theorem Idled.trans {w'' : Scene} (h : w.Idled w') (h' : w'.Idled w'') : w.Idled w'' := by
  obtain ⟨p, -, card⟩ := h
  obtain ⟨q, quiet, card'⟩ := h'
  exact ⟨q, quiet, by rw [card', card]⟩

theorem idled_at {p : Phase} (h : p.Quiet) : w.Idled (w.at_ p) := ⟨p, h, rfl⟩

/-! ## Single requests -/

theorem wp_xmitSpi (x : BYTE) (Q : BYTE → Scene → Prop) :
    (xmitSpi x).wp rules Q w ↔ ∀ y w', w.Exchange x y w' → Q y w' := by
  constructor
  · intro h
    exact h.2
  · intro h
    exact ⟨trivial, h⟩

theorem wp_load (Q : SdspiDriver → Scene → Prop) : load.wp rules Q w ↔ Q w.drv w := by
  constructor
  · intro h
    exact h.2 _ _ ⟨rfl, rfl⟩
  · rintro h
    refine ⟨trivial, ?_⟩
    rintro d w' ⟨rfl, rfl⟩
    exact h

/-- Every request is allowed, so nothing can go wrong but the postcondition. -/
theorem wp_any {Q : α → Scene → Prop} (p : Prog α) (w : Scene) (h : ∀ a w', Q a w') :
    p.wp rules Q w := by
  induction p generalizing w with
  | ret a => exact h a w
  | call r k ih => exact ⟨trivial, fun x t _ => ih x t⟩
  | stuck => trivial

/-- A request that is answered by nothing, and what it makes of a scene. -/
theorem wp_silent {r : Request} {Q : r.Ans → Scene → Prop} {next : Scene}
    (only : ∀ x w', rules.step w r x w' → w' = next) (h : ∀ x, Q x next) :
    (ask r).wp rules Q w := by
  refine ⟨trivial, ?_⟩
  intro x w' step
  rw [only x w' step]
  exact h x

theorem wp_store {f : SdspiDriver → SdspiDriver} {Q : Unit → Scene → Prop}
    (h : Q () { w with drv := f w.drv }) : (store f).wp rules Q w :=
  wp_silent (fun _ _ step => step) fun _ => h

theorem wp_digitalWrite {p : Pin} {l : Level} {Q : Unit → Scene → Prop}
    (h : Q () { w with out := Function.update w.out p l }) : (digitalWrite p l).wp rules Q w :=
  wp_silent (fun _ _ step => step) fun _ => h

theorem wp_assertCS {Q : Unit → Scene → Prop}
    (h : Q () { w with out := Function.update w.out w.drv.cs .low }) : assertCS.wp rules Q w :=
  (wp_bind _ _ _ _ _).2 ((wp_load _).2 (wp_digitalWrite h))

theorem wp_deassertCS {Q : Unit → Scene → Prop}
    (h : Q () { w with out := Function.update w.out w.drv.cs .high }) : deassertCS.wp rules Q w :=
  (wp_bind _ _ _ _ _).2 ((wp_load _).2 (wp_digitalWrite h))

theorem wp_millis {Q : DWORD → Scene → Prop} (h : ∀ t, Q t w) : millis.wp rules Q w :=
  wp_silent (fun _ _ step => step) h

theorem wp_digitalRead {p : Pin} {Q : Level → Scene → Prop} (h : ∀ l, Q l w) :
    (digitalRead p).wp rules Q w :=
  wp_silent (fun _ _ step => step) h

theorem wp_cardPresent {Q : Bool → Scene → Prop} (h : ∀ present, Q present w) :
    cardPresent.wp rules Q w := by
  unfold cardPresent
  rw [wp_bind, wp_load]
  split
  · rw [wp_bind]
    exact wp_digitalRead fun _ => h _
  · exact h _

theorem wp_writeProtected {Q : Bool → Scene → Prop} (h : ∀ wp, Q wp w) :
    writeProtected.wp rules Q w := by
  unfold writeProtected
  rw [wp_bind, wp_load]
  split
  · rw [wp_bind]
    exact wp_digitalRead fun _ => h _
  · exact h _

theorem wp_expired {t : TimeoutChecker} {Q : Bool → Scene → Prop} (h : ∀ late, Q late w) :
    t.expired.wp rules Q w :=
  (wp_bind _ _ _ _ _).2 (wp_millis fun _ => h _)

theorem wp_begin {d : DWORD} {Q : TimeoutChecker → Scene → Prop} (h : ∀ t, Q t w) :
    (TimeoutChecker.begin d).wp rules Q w :=
  (wp_bind _ _ _ _ _).2 (wp_millis fun _ => h _)

/-- A filler byte only moves the phase, and begins no packet. -/
theorem exchange_filler {y : BYTE} (h : w.Exchange 0xFF y w') (quiet : w.card.phase.Quiet) :
    ∃ p, p.Quiet ∧ w' = w.at_ p := by
  cases h with
  | high level off => exact ⟨_, off.rest.quiet, rfl⟩
  | low level step =>
    cases step with
    | idle | filler | latency | loose | await | busy => exact ⟨_, quiet, rfl⟩
    | start at_ h => exact absurd h (by decide)
    | data at_ h =>
      rename_i multi
      cases multi <;> exact absurd h (by decide)
    | packet at_ | accept at_ | reject at_ =>
      rw [at_] at quiet
      exact quiet.elim
    | answer at_ h =>
      refine ⟨_, ?_, rfl⟩
      unfold Card.answered
      split_ifs <;> trivial
    | release at_ =>
      rename_i next
      refine ⟨_, ?_, rfl⟩
      cases next <;> trivial
    | _ => exact ⟨_, by trivial, rfl⟩

/-! ## Programs that leave the sectors alone -/

/-- Begun outside a packet, `p` changes no more than the phase of the card. -/
def Lulls (p : Prog α) : Prop :=
  ∀ w, w.card.phase.Quiet → p.wp rules (fun _ w' => w.Idled w') w

theorem Lulls.pure (a : α) : Lulls (pure a) := fun _ => idled_refl

theorem Lulls.stuck : Lulls (.stuck : Prog α) := fun _ _ => trivial

theorem Lulls.bind {p : Prog α} {f : α → Prog β} (hp : Lulls p) (hf : ∀ a, Lulls (f a)) :
    Lulls (p >>= f) := by
  intro w quiet
  apply wp_seq (hp w quiet)
  intro a t ht
  exact wp_mono (hf a t ht.quiet) fun _ _ => ht.trans

theorem Lulls.ite {c : Prop} [Decidable c] {p q : Prog α} (hp : Lulls p) (hq : Lulls q) :
    Lulls (if c then p else q) := by
  split
  · exact hp
  · exact hq

/-- Everything but a transfer. -/
theorem Lulls.ask {r : Request} (h : ∀ x w w', rules.step w r x w' → w'.card = w.card) :
    Lulls (ask r) := by
  intro w quiet
  refine ⟨trivial, ?_⟩
  intro x w' step
  exact ⟨_, quiet, h x w w' step⟩

theorem filler_lulls : Lulls (xmitSpi 0xFF) := by
  intro w quiet
  rw [wp_xmitSpi]
  intro y w' ex
  obtain ⟨p, hp, rfl⟩ := exchange_filler ex quiet
  exact idled_at hp

/-! ## Waiting for the card -/

/-- `wait_ready` where a byte 0xFF takes `I` to `J` and any other keeps `I`. -/
theorem wp_waitReady {I J : Scene → Prop} {fuel : Nat} {wt : UINT}
    (turn : ∀ w y w', I w → w.Exchange 0xFF y w' → (y = 0xFF → J w') ∧ (y ≠ 0xFF → I w'))
    (h : I w) :
    (waitReady fuel wt).wp rules (fun ok w' => (ok = true → J w') ∧ (ok = false → I w')) w := by
  have loop (t : TimeoutChecker) (fuel : Nat) (w : Scene) (h : I w) :
      (waitReadyLoop t fuel).wp rules
        (fun d w' => (d = 0xFF → J w') ∧ (d ≠ 0xFF → I w')) w := by
    induction fuel generalizing w with
    | zero => trivial
    | succ fuel ih =>
      unfold waitReadyLoop
      rw [wp_bind, wp_xmitSpi]
      intro y w' ex
      have next := turn w y w' h ex
      split
      · exact next
      · rename_i other
        rw [wp_bind]
        apply wp_expired
        intro late
        split
        · exact next
        · exact ih w' (next.2 other)
  unfold waitReady
  rw [wp_bind]
  apply wp_begin
  intro t
  apply wp_seq (loop t fuel w h)
  intro d w' hd
  simpa using hd

theorem waitReady_lulls (fuel : Nat) (wt : UINT) : Lulls (waitReady fuel wt) := by
  intro w quiet
  apply wp_mono (wp_waitReady (I := w.Idled) (J := w.Idled) _ (idled_refl quiet))
  · intro ok w' h
    cases ok with
    | true => exact h.1 rfl
    | false => exact h.2 rfl
  · intro w₁ y w₂ h ex
    obtain ⟨p, hp, rfl⟩ := exchange_filler ex h.quiet
    exact ⟨fun _ => h.trans (idled_at hp), fun _ => h.trans (idled_at hp)⟩

/-- The card as in `w` but for its phase, at rest, with the CS pin high. -/
def Rested (w w' : Scene) : Prop :=
  w'.level = .high ∧ ∃ p, p.Rest ∧ w'.card = { w.card with phase := p }

/-- The card as in `w` but selected and in the phase `p`. -/
def Selected (w : Scene) (p : Phase) (w' : Scene) : Prop :=
  w'.level = .low ∧ w'.card = { w.card with phase := p }

theorem Rested.idled (h : w.Rested w') : w.Idled w' := by
  obtain ⟨-, p, rest, card⟩ := h
  exact ⟨p, rest.quiet, card⟩

theorem wp_deselect_off {Q : Unit → Scene → Prop}
    (h : ∀ p w', w.card.phase.Off p → w'.level = .high →
      w'.card = { w.card with phase := p } → Q () w') : deselect.wp rules Q w := by
  unfold deselect
  rw [wp_bind]
  apply wp_deassertCS
  rw [wp_bind, wp_xmitSpi]
  intro y w' ex
  cases ex with
  | high off_ off => exact h _ _ off off_ rfl
  | low on step => simp [Scene.level] at on

theorem wp_deselect : deselect.wp rules (fun _ w' => w.Rested w') w :=
  wp_deselect_off fun _ _ off off_ card => ⟨off_, _, off.rest, card⟩

/-! ## With the card selected -/

theorem exchange_low {x y : BYTE} (h : w.Exchange x y w') (on : w.level = .low) :
    ∃ c, w.card.Step x y c ∧ w' = { w with card := c } := by
  cases h with
  | low _ step => exact ⟨_, step, rfl⟩
  | high off => simp [on] at off

theorem wp_select {fuel : Nat} (rest : w.card.phase.Rest) :
    (select fuel).wp rules
      (fun ok w' => (ok = true → w.Selected .ready w') ∧ (ok = false → w.Rested w')) w := by
  unfold select
  rw [wp_bind]
  apply wp_assertCS
  rw [wp_bind, wp_xmitSpi]
  intro y w₁ ex
  -- in `busy none` until the card lets go of the line
  let Waking (w' : Scene) : Prop := w.Selected .ready w' ∨ w.Selected (.busy none) w'
  have turn (w₁ : Scene) (y : BYTE) (w₂ : Scene) (h : Waking w₁) (ex : w₁.Exchange 0xFF y w₂) :
      (y = 0xFF → w.Selected .ready w₂) ∧ (y ≠ 0xFF → Waking w₂) := by
    rcases h with ⟨on, card⟩ | ⟨on, card⟩
    · obtain ⟨c, step, rfl⟩ := exchange_low ex on
      obtain ⟨rfl, rfl⟩ := Card.step_ready step (by rw [card])
      exact ⟨fun _ => ⟨on, card⟩, fun other => absurd rfl other⟩
    · obtain ⟨c, step, rfl⟩ := exchange_low ex on
      rcases Card.step_busy step (by rw [card]) with ⟨rfl, rfl⟩ | ⟨other, rfl⟩
      · exact ⟨fun _ => ⟨on, by simp [card]⟩, fun other => absurd rfl other⟩
      · exact ⟨fun same => absurd same other, fun _ => .inr ⟨on, card⟩⟩
  have woken : Waking w₁ := by
    have on : ({ w with out := Function.update w.out w.drv.cs .low } : Scene).level = .low := by
      simp [Scene.level]
    obtain ⟨c, step, rfl⟩ := exchange_low ex on
    cases at_ : w.card.phase with
    | ready =>
      obtain ⟨rfl, rfl⟩ := Card.step_ready step at_
      exact .inl ⟨on, by rw [← at_]⟩
    | stuff => exact .inr ⟨on, Card.step_stuff step at_⟩
    | busy next =>
      rw [at_] at rest
      cases next with
      | some a => exact rest.elim
      | none =>
        rcases Card.step_busy step at_ with ⟨rfl, rfl⟩ | ⟨-, rfl⟩
        · exact .inl ⟨on, rfl⟩
        · exact .inr ⟨on, by rw [← at_]⟩
    | _ =>
      rw [at_] at rest
      exact rest.elim
  rw [wp_bind]
  apply wp_mono (wp_waitReady turn woken)
  rintro ok w₂ ⟨ready, late⟩
  cases ok with
  | true =>
    rw [if_pos rfl, wp_pure]
    exact ⟨ready, fun no => nomatch no⟩
  | false =>
    rw [if_neg (by decide)]
    apply wp_seq wp_deselect
    rintro _ w₃ ⟨off, p, rest, card⟩
    rw [wp_pure]
    constructor
    · intro no
      cases no
    · intro _
      rcases late rfl with on | on
      · exact ⟨off, p, rest, by rw [card, on.2]⟩
      · exact ⟨off, p, rest, by rw [card, on.2]⟩

/-! ## Command frames -/

theorem arg_bytes (arg : DWORD) :
    (arg >>> 24).setWidth 8 ++ (arg >>> 16).setWidth 8 ++ (arg >>> 8).setWidth 8 ++
      arg.setWidth 8 = arg := by
  grind

/-- The answer to a command, or none in the ten bytes the code waits for. -/
theorem wp_receiveResponse {cmd : BYTE} {arg : DWORD} (n : Nat) (on : w.level = .low) :
    (receiveResponse n).wp rules (fun res w' =>
      (res &&& 0x80 = 0 ∧ w' = w.at_ (w.card.answered cmd arg res)) ∨
      (res &&& 0x80 ≠ 0 ∧ w' = w.at_ (.command cmd arg))) (w.at_ (.command cmd arg)) := by
  have turn (y : BYTE) (w' : Scene) (ex : (w.at_ (.command cmd arg)).Exchange 0xFF y w') :
      (y &&& 0x80 = 0 ∧ w' = w.at_ (w.card.answered cmd arg y)) ∨
      (y &&& 0x80 ≠ 0 ∧ w' = w.at_ (.command cmd arg)) := by
    obtain ⟨c, step, rfl⟩ := exchange_low ex on
    rcases Card.step_command step rfl with ⟨rfl, rfl⟩ | ⟨clear, rfl⟩
    · exact .inr ⟨by decide, rfl⟩
    · exact .inl ⟨clear, rfl⟩
  induction n with
  | zero =>
    unfold receiveResponse
    rw [wp_xmitSpi]
    exact turn
  | succ n ih =>
    unfold receiveResponse
    rw [wp_bind, wp_xmitSpi]
    intro y w' ex
    rcases turn y w' ex with ⟨clear, rfl⟩ | ⟨set, rfl⟩
    · rw [if_neg (not_not.2 clear)]
      exact .inl ⟨clear, rfl⟩
    · rw [if_pos set]
      exact ih

/-- The first byte of a frame. -/
theorem wp_frameStart {x : BYTE} {Q : BYTE → Scene → Prop} (on : w.level = .low)
    (at_ : w.card.phase = .ready) (start : x &&& 0xC0 = 0x40)
    (h : ∀ y, Q y (w.at_ (.frame [x]))) : (xmitSpi x).wp rules Q w := by
  rw [wp_xmitSpi]
  intro y w' ex
  obtain ⟨c, step, rfl⟩ := exchange_low ex on
  rw [Card.step_start step at_ start]
  exact h y

/-- A byte in the middle of a frame. -/
theorem wp_frameByte {x : BYTE} {got : List BYTE} {Q : BYTE → Scene → Prop} (on : w.level = .low)
    (more : got.length < 5) (h : ∀ y, Q y (w.at_ (.frame (got ++ [x])))) :
    (xmitSpi x).wp rules Q (w.at_ (.frame got)) := by
  rw [wp_xmitSpi]
  intro y w' ex
  obtain ⟨c, step, rfl⟩ := exchange_low ex on
  rw [Card.step_frame step rfl more]
  exact h y

/-- The last byte of a frame. -/
theorem wp_frameEnd {x i a₃ a₂ a₁ a₀ : BYTE} {Q : BYTE → Scene → Prop} (on : w.level = .low)
    (h : ∀ y, Q y (w.at_ (.command (i &&& 0x3F) (a₃ ++ a₂ ++ a₁ ++ a₀)))) :
    (xmitSpi x).wp rules Q (w.at_ (.frame [i, a₃, a₂, a₁, a₀])) := by
  rw [wp_xmitSpi]
  intro y w' ex
  obtain ⟨c, step, rfl⟩ := exchange_low ex on
  rw [Card.step_framed step rfl]
  exact h y

theorem answered_quiet (c : Card) (cmd : BYTE) (arg : DWORD) (r : BYTE) :
    (c.answered cmd arg r).Quiet := by
  unfold Card.answered
  split_ifs <;> trivial

/-- A command sent from anywhere outside a packet. -/
theorem wp_sendPacket {fuel : Nat} {cmd : BYTE} {arg : DWORD} (valid : cmd &&& 0xC0 = 0)
    (not12 : cmd ≠ cmd12) :
    (sendPacket fuel cmd arg).wp rules (fun res w' => w.Idled w' ∧
      (res &&& 0x80 = 0 → w.Selected (w.card.answered cmd arg res) w')) w := by
  unfold sendPacket
  rw [if_pos not12, wp_bind, wp_bind]
  apply wp_mono wp_deselect
  rintro _ w₁ ⟨off, p, rest, card₁⟩
  apply wp_mono (wp_select (by rwa [card₁]))
  rintro selected w₂ ⟨ready, late⟩
  cases selected with
  | false =>
    obtain ⟨-, q, rest', card₂⟩ := late rfl
    rw [if_neg (by decide), wp_pure]
    exact ⟨⟨q, rest'.quiet, by rw [card₂, card₁]⟩, fun clear => absurd clear (by decide)⟩
  | true =>
    obtain ⟨on, card₂⟩ := ready rfl
    rw [if_pos rfl, wp_bind]
    apply wp_frameStart on (by rw [card₂]) (start_byte valid).1
    intro _
    iterate 4
      rw [wp_bind]
      apply wp_frameByte on (by simp)
      intro _
    rw [wp_bind]
    apply wp_frameEnd on
    intro _
    rw [if_neg not12, (start_byte valid).2, arg_bytes]
    apply wp_mono (wp_receiveResponse 9 on)
    have same : w₂.card = { w.card with phase := .ready } := by rw [card₂, card₁]
    rintro res w₃ (⟨clear, rfl⟩ | ⟨set, rfl⟩)
    · rw [same]
      refine ⟨⟨_, answered_quiet _ _ _ _, by rw [at_card, same]⟩, fun _ => ?_⟩
      exact ⟨on, by rw [at_card, same]; rfl⟩
    · have quiet : (Phase.command cmd arg).Quiet := trivial
      exact ⟨⟨_, quiet, by rw [at_card, same]⟩, fun clear => absurd clear set⟩

/-! ## `send_cmd`, and the handshake -/

/-- A command that is not an application command. -/
theorem wp_sendCmd {fuel : Nat} {cmd : BYTE} {arg : DWORD} (valid : cmd &&& 0xC0 = 0)
    (not12 : cmd ≠ cmd12) (quiet : w.card.phase.Quiet) :
    (sendCmd fuel cmd arg).wp rules (fun res w' => w.Idled w' ∧
      (res &&& 0x80 = 0 → w.Selected (w.card.answered cmd arg res) w')) w := by
  have plain : ¬ cmd &&& 0x80 ≠ 0 := by
    revert cmd
    decide
  unfold sendCmd
  rw [wp_bind]
  apply wp_mono (waitReady_lulls fuel 10 w quiet)
  rintro _ w₁ ⟨p, hp, card⟩
  rw [if_neg plain]
  apply wp_mono (wp_sendPacket valid not12)
  rintro res w₂ ⟨idled, answered⟩
  rw [card] at answered
  refine ⟨.trans ⟨p, hp, card⟩ idled, fun clear => ?_⟩
  obtain ⟨on, card₂⟩ := answered clear
  exact ⟨on, by rw [card₂, card]; rfl⟩

theorem sendPacket_lulls (fuel : Nat) {cmd : BYTE} (arg : DWORD) (valid : cmd &&& 0xC0 = 0)
    (not12 : cmd ≠ cmd12) : Lulls (sendPacket fuel cmd arg) :=
  fun _ _ => wp_mono (wp_sendPacket valid not12) fun _ _ h => h.1

theorem sendCmd_lulls (fuel : Nat) {cmd : BYTE} (arg : DWORD) (valid : cmd &&& 0x40 = 0)
    (not12 : cmd &&& 0x7F ≠ cmd12) : Lulls (sendCmd fuel cmd arg) := by
  have low : (cmd &&& 0x7F) &&& 0xC0 = 0 := by
    revert cmd
    decide
  apply Lulls.bind (waitReady_lulls fuel 10)
  intro _
  split
  · apply Lulls.bind (waitReady_lulls fuel 10)
    intro _
    apply Lulls.bind (sendPacket_lulls fuel 0 (by decide) (by decide))
    intro res
    exact .ite (.pure _) (sendPacket_lulls fuel arg low not12)
  · rename_i plain
    have same : cmd &&& 0x7F = cmd := by
      revert cmd
      decide
    rw [same] at low not12
    exact sendPacket_lulls fuel arg low not12

end Scene

/-- Programs of filler and commands leave the sectors alone. -/
theorem Polite.lulls {p : Prog α} (h : Polite p) : Scene.Lulls p := by
  induction h with
  | pure a => exact .pure a
  | stuck => exact .stuck
  | bind _ _ ihp ihf => exact .bind ihp ihf
  | filler => exact Scene.filler_lulls
  | @silent r h =>
    apply Scene.Lulls.ask
    intro x w w' step
    cases r with
    | transfer x => exact h.elim
    | load => exact step.2 ▸ rfl
    | _ => exact step ▸ rfl
  | command fuel arg valid plain => exact Scene.sendCmd_lulls fuel arg valid plain.1

end FatFsParticle.Sdspi
