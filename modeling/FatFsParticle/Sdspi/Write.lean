import FatFsParticle.Sdspi.Read

/-!
# Writes

`write()` returns `RES_OK` only where the card took in every packet, accepted it, and
took the stop token of a multiple block write: what it was ready for each time.
-/

namespace FatFsParticle.Sdspi
open Interact Program

/-- `c'` is `c` after the first `k` blocks of `buff` were accepted for the sectors from
`a` on, and `stopped` stop tokens taken. -/
structure Written (c : Card) (a : Nat) (buff : List BYTE) (k stopped : Nat) (c' : Card) : Prop where
  responses : c'.responses = List.replicate k true ++ c.responses
  stops : c'.stops = c.stops + stopped
  written : ∀ i < k, (c'.store (a + i)).toList = block buff i
  others : ∀ j, j < a ∨ a + k ≤ j → c'.store j = c.store j

theorem Written.refl (c : Card) (a : Nat) (buff : List BYTE) (p : Phase) :
    Written c a buff 0 0 { c with phase := p } :=
  ⟨rfl, rfl, by simp, fun _ _ => rfl⟩

/-- `c` after `data` was accepted for the sector `a`. -/
def Card.taken (c : Card) (a : Nat) (multi : Bool) (data : Sector) : Card :=
  { c with
    store := Function.update c.store a data
    phase := .busy (if multi then some (a + 1) else none)
    responses := true :: c.responses }

theorem Written.next {c c' : Card} {a k stopped : Nat} {buff : List BYTE} {multi : Bool}
    {data : Sector} (h : Written c a buff k stopped c') (h' : data.toList = block buff k) :
    Written c a buff (k + 1) stopped (c'.taken (a + k) multi data) where
  responses := by simp [Card.taken, h.responses, List.replicate_succ]
  stops := h.stops
  written := by
    intro i hi
    by_cases last : i = k
    · subst last
      simpa [Card.taken] using h'
    · have earlier := h.written i (by omega)
      simpa [Card.taken, Function.update_apply, last] using earlier
  others := by
    intro j hj
    have apart : j ≠ a + k := by omega
    have same := h.others j (by omega)
    simpa [Card.taken, Function.update_of_ne apart] using same

theorem Written.of_card {c c' c'' : Card} {a k stopped : Nat} {buff : List BYTE}
    (h : Written c a buff k stopped c') (p : Phase) (same : c'' = { c' with phase := p }) :
    Written c a buff k stopped c'' := by
  subst same
  exact ⟨h.responses, h.stops, h.written, h.others⟩

namespace Scene

variable {w w' : Scene}

/-- Where a block of a write can be sent, once the card lets it. -/
def Open (w : Scene) (a : Nat) (multi : Bool) : Prop :=
  w.level = .low ∧ (w.card.phase = .await a multi ∨ multi = true ∧ w.card.phase = .busy (some a))

/-- A selected card that is programming, or waiting for the next block. -/
theorem wp_waitReady_open {fuel a : Nat} {multi : Bool} {wt : UINT} (h : w.Open a multi) :
    (waitReady fuel wt).wp rules
      (fun ok w' => ok = true → w.level = .low ∧ w' = w.at_ (.await a multi)) w := by
  obtain ⟨on, at_⟩ := h
  let Waiting (w' : Scene) : Prop :=
    w' = w.at_ (.await a multi) ∨ multi = true ∧ w' = w.at_ (.busy (some a))
  have turn (w₁ : Scene) (y : BYTE) (w₂ : Scene) (h : Waiting w₁) (ex : w₁.Exchange 0xFF y w₂) :
      (y = 0xFF → w₂ = w.at_ (.await a multi)) ∧ (y ≠ 0xFF → Waiting w₂) := by
    rcases h with rfl | ⟨rfl, rfl⟩
    · obtain ⟨c, step, rfl⟩ := exchange_low ex on
      obtain ⟨rfl, rfl⟩ := Card.step_await step rfl
      exact ⟨fun _ => rfl, fun other => absurd rfl other⟩
    · obtain ⟨c, step, rfl⟩ := exchange_low ex on
      rcases Card.step_busy step rfl with ⟨rfl, rfl⟩ | ⟨other, rfl⟩
      · exact ⟨fun _ => rfl, fun other => absurd rfl other⟩
      · exact ⟨fun same => absurd same other, fun _ => .inr ⟨rfl, rfl⟩⟩
  have waiting : Waiting w := by
    rcases at_ with at_ | ⟨multi, at_⟩
    · exact .inl (at_same at_).symm
    · exact .inr ⟨multi, (at_same at_).symm⟩
  apply wp_mono (wp_waitReady turn waiting)
  rintro ok w' ⟨ready, -⟩ yes
  exact ⟨on, ready yes⟩

theorem wp_packetByte {x : BYTE} {a : Nat} {multi : Bool} {got : List BYTE}
    {Q : BYTE → Scene → Prop} (on : w.level = .low) (more : got.length < 514)
    (h : ∀ y, Q y (w.at_ (.packet a multi (got ++ [x])))) :
    (xmitSpi x).wp rules Q (w.at_ (.packet a multi got)) := by
  rw [wp_xmitSpi]
  intro y w' ex
  obtain ⟨c, step, rfl⟩ := exchange_low ex on
  rw [Card.step_packet step rfl more]
  exact h y

theorem wp_xmitSpiMulti {a : Nat} {multi : Bool} (bs got : List BYTE) (on : w.level = .low)
    (room : got.length + bs.length ≤ 514) :
    (xmitSpiMulti bs).wp rules (fun _ w' => w' = w.at_ (.packet a multi (got ++ bs)))
      (w.at_ (.packet a multi got)) := by
  induction bs generalizing got with
  | nil =>
    rw [List.append_nil]
    exact rfl
  | cons x bs ih =>
    rw [List.length_cons] at room
    unfold xmitSpiMulti
    rw [wp_bind]
    apply wp_packetByte on (by omega)
    intro _
    have rest := ih (got ++ [x]) (by simp; omega)
    rw [List.append_assoc] at rest
    exact rest

/-- The data response to a packet. -/
theorem wp_response {a : Nat} {multi : Bool} {got : List BYTE} (on : w.level = .low)
    (full : got.length = 514) :
    (xmitSpi 0xFF).wp rules (fun y w' => y &&& 0x1F = 0x05 → w'.level = .low ∧
        w'.card = w.card.taken a multi (Card.block512 got full))
      (w.at_ (.packet a multi got)) := by
  rw [wp_xmitSpi]
  intro y w' ex accepted
  obtain ⟨c, step, rfl⟩ := exchange_low ex on
  rcases Card.step_response step rfl full with ⟨-, rfl⟩ | ⟨rejected, -⟩
  · exact ⟨on, rfl⟩
  · exact absurd accepted rejected

/-- A block that `xmit_datablock` reports as sent was accepted. -/
theorem wp_xmitDatablock {fuel a : Nat} {multi : Bool} {buff : List BYTE}
    (size : 512 ≤ buff.length) (h : w.Open a multi) :
    (xmitDatablock fuel buff (Card.startToken multi)).wp rules
      (fun ok w' => ok = true → w'.level = .low ∧ ∃ data : Sector, data.toList = buff.take 512 ∧
        w'.card = w.card.taken a multi data) w := by
  unfold xmitDatablock
  rw [wp_bind]
  apply wp_mono (wp_waitReady_open h)
  intro ready w₁ open_
  split
  · rename_i yes
    obtain ⟨on, rfl⟩ := open_ yes
    rw [wp_bind, wp_xmitSpi]
    intro y w₂ ex
    obtain ⟨c, step, rfl⟩ := exchange_low ex on
    obtain rfl := Card.step_token step rfl rfl
    rw [if_pos (by cases multi <;> decide), wp_bind]
    apply wp_mono (wp_xmitSpiMulti (w := w) (buff.take 512) [] on (by simp))
    rintro _ w₃ rfl
    have length : (buff.take 512).length = 512 := by simp [size]
    rw [List.nil_append, wp_bind]
    apply wp_packetByte on (by omega)
    intro _
    rw [wp_bind]
    apply wp_packetByte on (by simp [length])
    intro _
    have full : (buff.take 512 ++ [0xFF] ++ [0xFF]).length = 514 := by simp [size]
    apply wp_seq (wp_response on full)
    intro resp w₄ taken accepted
    obtain ⟨on₄, card⟩ := taken (by simpa using accepted)
    refine ⟨on₄, _, ?_, card⟩
    simp [Card.block512, size]
  · intro no
    cases no

/-- A stop token that `xmit_datablock` reports as sent was taken. -/
theorem wp_stop {fuel a : Nat} (h : w.Open a true) :
    (xmitDatablock fuel [] 0xFD).wp rules
      (fun ok w' => ok = true →
        w'.card = { w.card with phase := .stuff, stops := w.card.stops + 1 }) w := by
  unfold xmitDatablock
  rw [wp_bind]
  apply wp_mono (wp_waitReady_open h)
  intro ready w₁ open_
  split
  · rename_i yes
    obtain ⟨on, rfl⟩ := open_ yes
    rw [wp_bind, wp_xmitSpi]
    intro y w₂ ex
    obtain ⟨c, step, rfl⟩ := exchange_low ex on
    obtain rfl := Card.step_stop step rfl
    rw [if_neg (by decide)]
    exact fun _ => rfl
  · intro no
    cases no

/-! ## The two paths of `write()` -/

/-- The blocks of a multiple block write, from block `k` on. -/
theorem wp_writeBlocks {fuel turns a k n : Nat} {c : Card} {buff : List BYTE} {count : UINT}
    (size : 512 * n ≤ buff.length) (left : k + count.toNat = n) (some_ : count ≠ 0)
    (open_ : w.Open (a + k) true) (written : Written c a buff k 0 w.card) :
    (writeBlocks fuel turns count (buff.drop (512 * k))).wp rules
      (fun count' w' => count' = 0 → w'.Open (a + n) true ∧ Written c a buff n 0 w'.card) w := by
  induction turns generalizing w k count with
  | zero => trivial
  | succ turns ih =>
    have positive : count.toNat ≠ 0 := fun zero => some_ (BitVec.eq_of_toNat_eq zero)
    unfold writeBlocks
    apply wp_seq (wp_xmitDatablock (by simp; omega) open_)
    intro ok w₁ sent
    cases ok with
    | false => exact fun zero => absurd zero some_
    | true =>
      obtain ⟨on, data, block, card⟩ := sent rfl
      have written₁ : Written c a buff (k + 1) 0 w₁.card := by
        rw [card]
        exact written.next block
      have open₁ : w₁.Open (a + (k + 1)) true := by
        refine ⟨on, .inr ⟨rfl, ?_⟩⟩
        rw [card]
        rfl
      have less := toNat_pred some_
      rw [if_neg (by decide)]
      split
      · rename_i last
        have all : k + 1 = n := by
          have := congrArg BitVec.toNat last
          rw [less] at this
          simp at this
          omega
        subst all
        exact fun _ => ⟨open₁, written₁⟩
      · rename_i more
        rw [List.drop_drop]
        have next : 512 * k + 512 = 512 * (k + 1) := rfl
        rw [next]
        exact ih (by omega) more open₁ written₁

/-- The single block write. -/
theorem wp_writeSingle {fuel : Nat} {addr : DWORD} {buff : List BYTE} (size : 512 ≤ buff.length)
    (quiet : w.card.phase.Quiet) :
    (writeSingle fuel buff addr 1).wp rules
      (fun count w' => count = 0 → Written w.card (w.card.sectorAt addr) buff 1 0 w'.card) w := by
  unfold writeSingle
  rw [wp_bind]
  apply wp_mono (wp_sendCmd (by decide) (by decide) quiet)
  rintro res w₁ ⟨-, answered⟩
  split
  · rename_i zero
    subst zero
    obtain ⟨on, card⟩ := answered (by decide)
    have open_ : w₁.Open (w.card.sectorAt addr) false := ⟨on, .inl (by rw [card]; rfl)⟩
    apply wp_seq (wp_xmitDatablock size open_)
    intro ok w₂ sent done
    cases ok with
    | false => cases done
    | true =>
      obtain ⟨-, data, block, card₂⟩ := sent rfl
      rw [card₂, card]
      exact (Written.refl w.card _ buff _).next block
  · exact fun no => absurd no (by decide)

/-- The multiple block write. -/
theorem wp_writeMultiple {fuel : Nat} {addr : DWORD} {buff : List BYTE} {count : UINT}
    (some_ : count ≠ 0) (size : 512 * count.toNat ≤ buff.length) (quiet : w.card.phase.Quiet) :
    (writeMultiple fuel buff addr count).wp rules
      (fun count' w' => count' = 0 →
        Written w.card (w.card.sectorAt addr) buff count.toNat 1 w'.card) w := by
  have lulls (d : SdspiDriver) : Lulls (if d.cardType &&& ctSdc ≠ 0 then do
      let _ ← sendCmd fuel acmd23 count
      pure ()
    else pure ()) :=
    .ite (.bind (sendCmd_lulls fuel _ (by decide) (by decide)) fun _ => .pure _) (.pure _)
  unfold writeMultiple
  rw [wp_bind, wp_load]
  apply wp_seq (lulls w.drv w quiet)
  intro _ w₁ idled
  rw [wp_bind]
  apply wp_mono (wp_sendCmd (by decide) (by decide) idled.quiet)
  rintro res w₂ ⟨-, answered⟩
  split
  · rename_i zero
    subst zero
    obtain ⟨on, card⟩ := answered (by decide)
    obtain ⟨p, -, card₁⟩ := idled
    rw [card₁] at card
    have start : Written w.card (w.card.sectorAt addr) buff 0 0 w₂.card := by
      rw [card]
      exact Written.refl _ _ _ _
    have open_ : w₂.Open (w.card.sectorAt addr + 0) true := ⟨on, .inl (by rw [card]; rfl)⟩
    apply wp_seq (wp_writeBlocks size (Nat.zero_add _) some_ open_ start)
    intro left w₃ blocks
    by_cases none : left = 0
    · obtain ⟨open₃, written⟩ := blocks none
      apply wp_seq (wp_stop open₃)
      intro ok w₄ stopped done
      cases ok with
      | false =>
        rw [if_neg (by decide)] at done
        exact absurd done (by decide)
      | true =>
        have card₄ := stopped rfl
        exact ⟨by rw [card₄]; exact written.responses, by rw [card₄]; exact congrArg (· + 1) written.stops,
          by rw [card₄]; exact written.written, by rw [card₄]; exact written.others⟩
    · -- a block was not sent: whatever becomes of the stop token, the count is not 0
      rw [wp_bind]
      apply wp_any
      intro ok w₄ done
      cases ok with
      | false =>
        rw [if_neg (by decide)] at done
        exact absurd done (by decide)
      | true => exact absurd done none
  · exact fun no => absurd no some_

/-! ## `write()` and `ioctl(CTRL_SYNC)` -/

/-- What a `write()` that returns `RES_OK` has done to the card. -/
structure Stored (c : Card) (s : DWORD) (n : UINT) (buff : List BYTE) (w' : Scene) : Prop where
  written : Written c s.toNat buff n.toNat (if n = 1 then 0 else 1) w'.card
  off : w'.level = .high
  rest : w'.card.phase.Rest

end Scene

open Scene

variable {σ : Type} {b : Board σ} {view : σ → Card} {m m' : Machine σ}

theorem write_stored (conforms : Conforms b view) {fuel : Nat} {buff : List BYTE} {s : DWORD}
    {n : UINT} (some_ : n ≠ 0) (quiet : (view m.env).phase.Quiet)
    (addressed : (view m.env).Addressed m.drv.cardType s n) (room : 512 * n.toNat ≤ buff.length)
    (run : exec b (write fuel buff s n) m = some (.ok, m')) :
    Stored (view m.env) s n buff (m'.scene view) := by
  obtain ⟨m₁, run₁, rfl⟩ := exec_member.1 run
  obtain ⟨m₂, run₂, rfl⟩ := exec_lockGuard.1 run₁
  have stored : Stored (view m.env) s n buff (m₂.scene view) := by
    refine exec_scene conforms (Q := fun r w' => r = .ok → Stored (view m.env) s n buff w') ?_ run₂ rfl
    have first := Card.sectorAt_cardAddress addressed some_
    rw [wp_bind]
    apply Scene.wp_cardPresent
    intro present
    split
    · intro no
      cases no
    rw [wp_bind]
    apply Scene.wp_writeProtected
    intro wp
    split
    · intro no
      cases no
    rw [wp_bind, Scene.wp_load]
    split
    · intro no
      cases no
    split
    · intro no
      cases no
    have finish (count : UINT) (w : Scene) (done : count = 0 →
        Written (view m.env) s.toNat buff n.toNat (if n = 1 then 0 else 1) w.card) :
        (do deselect; pure (if count ≠ 0 then .error else .ok) : Prog DRESULT).wp rules
          (fun r w' => r = .ok → Stored (view m.env) s n buff w') w := by
      rw [wp_bind]
      apply wp_deselect_off
      intro p w' off high card ok
      by_cases zero : count = 0
      · refine ⟨(done zero).of_card p card, high, ?_⟩
        rw [card]
        exact off.rest
      · rw [if_pos zero] at ok
        cases ok
    rw [wp_bind]
    split
    · rename_i one
      subst one
      apply wp_mono (wp_writeSingle room quiet)
      intro count w done
      apply finish
      intro zero
      have single : Written (view m.env) ((view m.env).sectorAt (cardAddress m.drv.cardType s))
        buff 1 0 w.card := done zero
      rw [first] at single
      exact single
    · rename_i several
      apply wp_mono (wp_writeMultiple some_ room quiet)
      intro count w done
      apply finish
      intro zero
      have multiple : Written (view m.env) ((view m.env).sectorAt (cardAddress m.drv.cardType s))
        buff n.toNat 1 w.card := done zero
      rw [first] at multiple
      rw [if_neg several]
      exact multiple
  exact ⟨stored.written, stored.off, stored.rest⟩

/-! ## A card that never gets ready -/

/-- The selected card sent 0xFF. -/
def Event.IsReady : Event → Prop
  | .byte .low _ _ got => got = 0xFF
  | _ => False

/-- Between `m` and `m'` the card showed, once at least, that it is ready. -/
def Heard (m m' : Machine σ) : Prop := ∃ new, m'.log = new ++ m.log ∧ ∃ e ∈ new, e.IsReady

theorem Heard.widen {m₁ m₂ : Machine σ} (h : Heard m₁ m₂) (before : m.log <:+ m₁.log)
    (after : m₂.log <:+ m'.log) : Heard m m' := by
  obtain ⟨new, log, e, mem, ready⟩ := h
  obtain ⟨old, hold⟩ := before
  obtain ⟨late, hlate⟩ := after
  refine ⟨late ++ new ++ old, ?_, e, by simp [mem], ready⟩
  rw [← hlate, log, ← hold, List.append_assoc, List.append_assoc]

theorem waitReadyLoop_heard {t : TimeoutChecker} {fuel : Nat} (on : m.csLevel = .low)
    (run : exec b (waitReadyLoop t fuel) m = some (0xFF, m')) : Heard m m' := by
  induction fuel generalizing m with
  | zero => cases run
  | succ fuel ih =>
    obtain ⟨d, m₁, sent, run⟩ := exec_bind_some.1 run
    have on₁ : m₁.csLevel = .low := by
      cases sent
      exact on
    have heard : m₁.log = .byte m.csLevel m.hz 0xFF d :: m.log := by
      cases sent
      rfl
    split at run
    · cases run
      exact ⟨[_], heard, _, List.mem_singleton_self _, by rw [on]; exact rfl⟩
    · rename_i more
      obtain ⟨late, m₂, looked, run⟩ := exec_bind_some.1 run
      have on₂ : m₂.csLevel = .low := by
        cases looked
        exact on₁
      split at run
      · cases run
        exact absurd rfl more
      · exact (ih on₂ run).widen ((exec_log sent).trans (exec_log looked)) List.suffix_rfl

theorem waitReady_heard {fuel : Nat} {wt : UINT} (on : m.csLevel = .low)
    (run : exec b (waitReady fuel wt) m = some (true, m')) : Heard m m' := by
  obtain ⟨t, m₁, begun, run⟩ := exec_bind_some.1 run
  obtain ⟨d, m₂, loop, done⟩ := exec_bind_some.1 run
  obtain ⟨last, rfl⟩ : d = 0xFF ∧ m₂ = m' := by simpa using done
  subst last
  have on₁ : m₁.csLevel = .low := by
    cases begun
    exact on
  exact (waitReadyLoop_heard on₁ loop).widen (exec_log begun) List.suffix_rfl

theorem select_heard {fuel : Nat} (run : exec b (select fuel) m = some (true, m')) :
    Heard m m' := by
  obtain ⟨_, m₁, asserted, run⟩ := exec_bind_some.1 run
  obtain ⟨_, m₂, filler, run⟩ := exec_bind_some.1 run
  obtain ⟨ready, m₃, waited, run⟩ := exec_bind_some.1 run
  cases ready with
  | true =>
    have before := (exec_log asserted).trans (exec_log filler)
    have on : m₂.csLevel = .low := by
      cases asserted
      cases filler
      simp [Machine.handle, Machine.csLevel]
    exact (waitReady_heard on waited).widen before (exec_log run)
  | false =>
    obtain ⟨_, m₄, -, run⟩ := exec_bind_some.1 run
    cases run

theorem sendPacket_heard {fuel : Nat} {cmd res : BYTE} {arg : DWORD} (not12 : cmd ≠ cmd12)
    (taken : res ≠ 0xFF) (run : exec b (sendPacket fuel cmd arg) m = some (res, m')) :
    Heard m m' := by
  unfold sendPacket at run
  rw [if_pos not12] at run
  obtain ⟨selected, m₁, reached, run⟩ := exec_bind_some.1 run
  obtain ⟨_, m₂, off, reached⟩ := exec_bind_some.1 reached
  cases selected with
  | true => exact (select_heard reached).widen (exec_log off) (exec_log run)
  | false =>
    cases run
    exact absurd rfl taken

theorem sendCmd_heard {fuel : Nat} {cmd res : BYTE} {arg : DWORD} (plain : cmd &&& 0x80 = 0)
    (not12 : cmd ≠ cmd12) (taken : res ≠ 0xFF)
    (run : exec b (sendCmd fuel cmd arg) m = some (res, m')) : Heard m m' := by
  obtain ⟨_, m₁, waited, run⟩ := exec_bind_some.1 run
  rw [if_neg (not_not.2 plain)] at run
  exact (sendPacket_heard not12 taken run).widen (exec_log waited) List.suffix_rfl

theorem writeSingle_heard {fuel : Nat} {buff : List BYTE} {addr : DWORD} {count : UINT}
    (some_ : count ≠ 0) (run : exec b (writeSingle fuel buff addr count) m = some (0, m')) :
    Heard m m' := by
  obtain ⟨res, m₁, sent, run⟩ := exec_bind_some.1 run
  split at run
  · rename_i zero
    subst zero
    exact (sendCmd_heard (by decide) (by decide) (by decide) sent).widen List.suffix_rfl (exec_log run)
  · cases run
    exact absurd rfl some_

theorem writeMultiple_heard {fuel : Nat} {buff : List BYTE} {addr : DWORD} {count : UINT}
    (some_ : count ≠ 0) (run : exec b (writeMultiple fuel buff addr count) m = some (0, m')) :
    Heard m m' := by
  obtain ⟨d, m₁, loaded, run⟩ := exec_bind_some.1 run
  obtain ⟨_, m₂, announced, run⟩ := exec_bind_some.1 run
  obtain ⟨res, m₃, sent, run⟩ := exec_bind_some.1 run
  split at run
  · rename_i zero
    subst zero
    exact (sendCmd_heard (by decide) (by decide) (by decide) sent).widen
      ((exec_log loaded).trans (exec_log announced)) (exec_log run)
  · cases run
    exact absurd rfl some_

theorem write_heard {fuel : Nat} {buff : List BYTE} {s : DWORD} {n : UINT} (some_ : n ≠ 0)
    (run : exec b (write fuel buff s n) m = some (.ok, m')) : Heard m m' := by
  obtain ⟨m₁, run₁, rfl⟩ := exec_member.1 run
  obtain ⟨m₂, run₂, rfl⟩ := exec_lockGuard.1 run₁
  have heard : Heard (m.marked (.enter .write)).locked m₂ := by
    obtain ⟨present, m₃, looked, run₂⟩ := exec_bind_some.1 run₂
    split at run₂
    · cases run₂
    obtain ⟨wp, m₄, looked', run₂⟩ := exec_bind_some.1 run₂
    split at run₂
    · cases run₂
    obtain ⟨d, m₅, loaded, run₂⟩ := exec_bind_some.1 run₂
    have before := (exec_log looked).trans ((exec_log looked').trans (exec_log loaded))
    split at run₂
    · cases run₂
    split at run₂
    · cases run₂
    obtain ⟨count, m₆, wrote, run₂⟩ := exec_bind_some.1 run₂
    obtain ⟨_, m₇, off, done⟩ := exec_bind_some.1 run₂
    have zero : count = 0 := by
      by_contra left
      rw [if_pos left] at done
      cases done
    subst zero
    split at wrote
    · exact (writeSingle_heard some_ wrote).widen before (exec_log run₂)
    · exact (writeMultiple_heard some_ wrote).widen before (exec_log run₂)
  exact heard.widen (List.suffix_cons _ _) (List.suffix_cons _ _)

/-! ## `ioctl(CTRL_SYNC)` -/

/-- `CTRL_SYNC` returns `RES_OK` only once the card has let go of the line. -/
theorem sync_released (conforms : Conforms b view) {fuel : Nat} {dp : DWORD × DWORD}
    {x : Option DWORD} (rest : (view m.env).phase.Rest)
    (run : exec b (ioctl fuel ctrlSync dp) m = some ((.ok, x), m')) :
    view m'.env = { view m.env with phase := .ready } := by
  cases fuel with
  | zero => cases run
  | succ fuel =>
    obtain ⟨m₁, run₁, rfl⟩ := exec_member.1 run
    obtain ⟨m₂, run₂, rfl⟩ := exec_lockGuard.1 run₁
    have synced : (m₂.scene view).card = { view m.env with phase := .ready } := by
      refine exec_scene conforms (Q := fun (r : DRESULT × Option DWORD) w' =>
        r.1 = .ok → w'.card = { view m.env with phase := .ready }) ?_ run₂ rfl
      rw [wp_bind, Scene.wp_load]
      split
      · intro no
        cases no
      rw [wp_bind]
      apply Scene.wp_cardPresent
      intro present
      split
      · intro no
        cases no
      rw [if_pos rfl, wp_bind, wp_bind]
      apply wp_mono (wp_select rest)
      rintro ready w₁ ⟨woken, -⟩
      rw [wp_pure, wp_bind]
      apply wp_deselect_off
      intro p w₂ off _ card ok
      cases ready with
      | false => cases ok
      | true =>
        obtain ⟨-, card₁⟩ := woken rfl
        rw [card₁] at off card
        cases off
        exact card
    exact synced

/-! ## A write to the prompt card -/

theorem play_writeBlocks {w : Scene} {p : Phase} {a k : Nat} (fuel : Nat) (buff : List BYTE)
    (some_ : k ≠ 0) (bound : k < 2 ^ 32) (size : 512 * k ≤ buff.length)
    (filler : play (xmitSpi 0xFF) (w.selected p) = some (0xFF, w.selected (.await a true))) :
    ∃ w' : Scene, play (writeBlocks (fuel + 1) k (BitVec.ofNat 32 k) buff) (w.selected p) =
      some (0, w'.selected (.busy (some (a + k)))) := by
  induction k generalizing w p a buff with
  | zero => exact absurd rfl some_
  | succ k ih =>
    have room : 512 ≤ buff.length := by omega
    have sent := play_xmitDatablock fuel a true room filler
    have token : Card.startToken true = 0xFC := rfl
    rw [token] at sent
    have less : BitVec.ofNat 32 (k + 1) - 1 = BitVec.ofNat 32 k := by
      apply BitVec.eq_of_toNat_eq
      simp
      omega
    unfold writeBlocks
    rw [play_seq sent, if_neg (by decide), less]
    by_cases last : k = 0
    · subst last
      exact ⟨_, rfl⟩
    · have more : BitVec.ofNat 32 k ≠ 0 := by
        intro zero
        have := congrArg BitVec.toNat zero
        simp at this
        omega
      rw [if_neg more]
      have next : play (xmitSpi 0xFF) ((w.wrote a (buff.take 512) (by simp [room])).selected
          (.busy (some (a + 1)))) = some (0xFF, (w.wrote a (buff.take 512)
            (by simp [room])).selected (.await (a + 1) true)) := play_low rfl
      obtain ⟨w', played⟩ := ih (buff.drop 512) last (by omega) (by simp; omega) next
      rw [Nat.add_assoc, Nat.add_comm 1 k] at played
      exact ⟨w', played⟩

theorem play_stop {w : Scene} (fuel a : Nat) :
    ∃ w' : Scene, play (xmitDatablock (fuel + 1) [] 0xFD) (w.selected (.busy (some a))) =
      some (true, w') := by
  have filler : play (xmitSpi 0xFF) (w.selected (.busy (some a))) =
      some (0xFF, w.selected (.await a true)) := play_low rfl
  have token : { w.card with phase := .await a true }.prompt 0xFD =
      (0xFF, { w.card with phase := .stuff, stops := w.card.stops + 1 }) := by
    simp only [Card.prompt]
    rw [if_neg (by decide), if_neg (by decide), if_pos (by decide)]
  unfold xmitDatablock
  rw [play_seq (play_waitReady filler), if_pos rfl, play_seq (play_selected token)]
  exact ⟨_, rfl⟩

theorem play_acmd23 {w : Scene} (fuel : Nat) (arg : DWORD) (off : w.level = .high) :
    play (sendCmd (fuel + 1) acmd23 arg) w = some (0, w.selected .loose) := by
  have again : play (xmitSpi 0xFF) (w.at_ .ready) = some (0xFF, w.at_ .ready) := play_high off
  have announced : play (sendPacket (fuel + 1) cmd55 0) (w.at_ .ready) = some (0, w.selected .loose) :=
    play_sendPacket fuel cmd55 0 (by decide) (by decide)
  have sent : play (sendPacket (fuel + 1) (acmd23 &&& 0x7F) arg) (w.selected .loose) =
      some (0, (w.selected .loose).selected .loose) :=
    play_sendPacket fuel _ arg (by decide) (by decide)
  unfold sendCmd
  rw [play_seq (play_waitReady (play_high off)), if_pos (by decide),
    play_seq (play_waitReady again), play_seq announced, if_neg (by decide), sent,
    selected_selected]

theorem play_writeMultiple {w : Scene} {k : Nat} (buff : List BYTE) (addr : DWORD)
    (off : w.level = .high) (some_ : k ≠ 0) (bound : k < 2 ^ 32) (size : 512 * k ≤ buff.length)
    (sdc : w.drv.cardType &&& ctSdc ≠ 0) :
    ∃ w', play (writeMultiple k buff addr (BitVec.ofNat 32 k)) w = some (0, w') := by
  obtain ⟨j, rfl⟩ := Nat.exists_eq_succ_of_ne_zero some_
  have loose : play (xmitSpi 0xFF) (w.selected .loose) = some (0xFF, w.selected .loose) :=
    play_low rfl
  have sent := play_sendCmd j cmd25 addr (by decide) (by decide) loose
  have announced : play (if w.drv.cardType &&& ctSdc ≠ 0 then do
      let _ ← sendCmd (j + 1) acmd23 (BitVec.ofNat 32 (j + 1))
      pure ()
    else pure ()) w = some ((), w.selected .loose) := by
    rw [if_pos sdc, play_seq (play_acmd23 j _ off)]
    rfl
  have answered : (w.selected .loose).card.answered cmd25 addr 0 =
      .await (w.card.sectorAt addr) true := rfl
  obtain ⟨w₁, blocks⟩ := play_writeBlocks (w := w) j buff some_ bound size
    (play_low (p := .await (w.card.sectorAt addr) true) rfl)
  obtain ⟨w₂, stopped⟩ := play_stop (w := w₁) j (w.card.sectorAt addr + (j + 1))
  rw [selected_selected, answered] at sent
  unfold writeMultiple
  rw [play_seq play_load, play_seq announced, play_seq sent, if_pos rfl, play_seq blocks,
    play_seq stopped]
  exact ⟨w₂, rfl⟩

theorem play_write {w : Scene} (h : w.Idle) {k : Nat} (several : 1 < k) (bound : k < 2 ^ 32)
    (s : DWORD) {buff : List BYTE} (size : 512 * k ≤ buff.length)
    (sdc : w.drv.cardType &&& ctSdc ≠ 0) :
    ∃ w', play (write k buff s (BitVec.ofNat 32 k)) w = some (.ok, w') := by
  obtain ⟨w', wrote⟩ := play_writeMultiple buff (cardAddress w.locked.drv.cardType s) h.locked.off
    (by omega) bound size sdc
  have not_one : BitVec.ofNat 32 k ≠ 1 := by
    intro one
    have := congrArg BitVec.toNat one
    simp at this
    omega
  refine ⟨w'.released.unlocked, play_member ?_⟩
  have ready : w.locked.drv.status = 0 := h.locked.status
  rw [play_seq h.locked.present, if_neg (by decide), play_seq h.locked.unprotected,
    if_neg (by decide), play_seq play_load, ready, if_neg (by decide), if_neg (by decide)]
  dsimp only
  rw [if_neg not_one, play_seq wrote, play_seq play_deselect]
  rfl

/-! ## A reported write is a stored write -/

/-- `RES_OK` from `write()`: every packet was accepted, sector `s + i` holds block `i` of
the buffer, no other sector changed, and on the CMD25 path the stop token was taken. A
rejected packet, or a card that never shows that it is ready, means another result;
and where `CTRL_SYNC` returns `RES_OK` next, the card had let go of the line. -/
theorem write_reports_stored (conforms : Conforms b view) {fuel : Nat} {buff : List BYTE}
    {s : DWORD} {n : UINT} {res : DRESULT} (some_ : n ≠ 0) (quiet : (view m.env).phase.Quiet)
    (addressed : (view m.env).Addressed m.drv.cardType s n) (room : 512 * n.toNat ≤ buff.length)
    (run : exec b (write fuel buff s n) m = some (res, m')) :
    (res = .ok → Written (view m.env) s.toNat buff n.toNat (if n = 1 then 0 else 1) (view m'.env)) ∧
    (∀ given, (view m'.env).responses = given ++ (view m.env).responses → false ∈ given → res ≠ .ok) ∧
    (¬ Heard m m' → res ≠ .ok) ∧
    ∀ fuel' dp x m'', res = .ok → exec b (ioctl fuel' ctrlSync dp) m' = some ((.ok, x), m'') →
      view m''.env = { view m'.env with phase := .ready } := by
  refine ⟨?_, ?_, ?_, ?_⟩
  · rintro rfl
    exact (write_stored conforms some_ quiet addressed room run).written
  · rintro given responses rejected rfl
    have accepted := (write_stored conforms some_ quiet addressed room run).written.responses
    have all := List.append_cancel_right (responses.symm.trans accepted)
    rw [all] at rejected
    exact absurd (List.eq_of_mem_replicate rejected) (by decide)
  · rintro deaf rfl
    exact deaf (write_heard some_ run)
  · rintro fuel' dp x m'' rfl synced
    exact sync_released conforms (write_stored conforms some_ quiet addressed room run).rest synced

/-- Two blocks of ones written over the sectors 0 and 1. -/
theorem write_reports_stored_two : ∃ m', exec prompt
      (write 2 (List.replicate 1024 1) 0 2) (inserted numbered) = some (.ok, m') ∧
    Written (inserted numbered).env 0 (List.replicate 1024 1) 2 1 m'.env ∧
    Heard (inserted numbered) m' := by
  have size : 512 * (2 : UINT).toNat ≤ (List.replicate 1024 (1 : BYTE)).length := by
    rw [List.length_replicate]
    decide
  obtain ⟨w, played⟩ := play_write (inserted_idle numbered) (k := 2) (by decide) (by decide) 0 size
    (by decide)
  obtain ⟨m', run, -⟩ := exec_of_play played
  have reports := write_reports_stored prompt_conforms (by decide) (inserted_quiet numbered)
    (inserted_addressed numbered (by decide)) size run
  refine ⟨m', run, reports.1 rfl, ?_⟩
  by_contra deaf
  exact reports.2.2.1 deaf rfl

end FatFsParticle.Sdspi
