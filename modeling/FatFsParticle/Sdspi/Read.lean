import FatFsParticle.Sdspi.Prompt
import FatFsParticle.Sdspi.Frame

/-!
# Multiple sector reads

`read()` asks for one sector after the other, and each block it stores is right for
the address it sent. The loop never advances that address, so a run that ends in
`RES_OK` has stored the first sector `count` times.
-/

namespace FatFsParticle.Sdspi
open Interact Program

/-- The 512 bytes of a buffer for its sector `i`. -/
def block (buff : List BYTE) (i : Nat) : List BYTE := (buff.drop (512 * i)).take 512

theorem getElem?_blit {buff bytes : List BYTE} {off : Nat} (room : off + bytes.length ≤ buff.length)
    (k : Nat) : (blit buff off bytes)[k]? =
      if off ≤ k ∧ k < off + bytes.length then bytes[k - off]? else buff[k]? := by
  have len : (buff.take off).length = off := by
    rw [List.length_take]
    omega
  unfold blit
  simp only [List.append_assoc, List.getElem?_append, len, List.getElem?_take, List.getElem?_drop]
  split_ifs <;> first | rfl | omega | skip
  · congr 1
    omega

theorem length_blit {buff bytes : List BYTE} {off : Nat} (room : off + bytes.length ≤ buff.length) :
    (blit buff off bytes).length = buff.length := by
  unfold blit
  simp
  omega

theorem getElem?_block (buff : List BYTE) (i k : Nat) :
    (block buff i)[k]? = if k < 512 then buff[512 * i + k]? else none := by
  unfold block
  rw [List.getElem?_take, List.getElem?_drop]

theorem block_blit {buff bytes : List BYTE} {j : Nat} (size : bytes.length = 512)
    (room : 512 * j + 512 ≤ buff.length) (i : Nat) :
    block (blit buff (512 * j) bytes) i = if i = j then bytes else block buff i := by
  apply List.ext_getElem?
  intro k
  rw [getElem?_block, getElem?_blit (by omega), size]
  by_cases inside : k < 512
  · rw [if_pos inside]
    by_cases same : i = j
    · subst same
      rw [if_pos (by omega), if_pos rfl]
      congr 1
      omega
    · rw [if_neg (by omega), if_neg same, getElem?_block, if_pos inside]
  · rw [if_neg inside]
    split
    · exact (List.getElem?_eq_none (by omega)).symm
    · rw [getElem?_block, if_neg inside]

/-- In a buffer that was `buff₀`, the first `read` blocks are `x`; a block whose offset
does not fit a `UINT` was never reached. -/
def Filled (x : Sector) (buff₀ buff : List BYTE) (n read : Nat) : Prop :=
  buff.length = buff₀.length ∧
    ∀ i < n, block buff i = if i < read ∧ i < 2 ^ 23 then x.toList else block buff₀ i

theorem Filled.step {x : Sector} {buff₀ buff : List BYTE} {n : Nat} {read : UINT}
    (h : Filled x buff₀ buff n read.toNat) (room : 512 * n ≤ buff₀.length) (more : read.toNat < n)
    (bound : n < 2 ^ 32) :
    Filled x buff₀ (blit buff (512 * read).toNat x.toList) n (read + 1).toNat := by
  obtain ⟨length, blocks⟩ := h
  have next : (read + 1).toNat = read.toNat + 1 := by
    rw [BitVec.toNat_add]
    exact Nat.mod_eq_of_lt (by simp; omega)
  have offset : (512 * read).toNat = 512 * (read.toNat % 2 ^ 23) := by
    rw [BitVec.toNat_mul]
    simp
    omega
  have size := x.toList_length
  have inside : 512 * (read.toNat % 2 ^ 23) + 512 ≤ buff.length := by
    omega
  rw [offset, next]
  refine ⟨(length_blit (by omega)).trans length, ?_⟩
  intro i hi
  rw [block_blit size inside, blocks i hi]
  split_ifs <;> first | rfl | omega

namespace Scene

variable {w : Scene}

/-- Bytes the card is about to send. -/
theorem wp_rcvrSpiMulti (bs rest : List BYTE) (on : w.level = .low) :
    (rcvrSpiMulti bs.length).wp rules (fun r w' => r = bs ∧ w' = w.at_ (.sending rest))
      (w.at_ (.sending (bs ++ rest))) := by
  induction bs with
  | nil => exact ⟨rfl, rfl⟩
  | cons x bs ih =>
    change (rcvrSpiMulti (bs.length + 1)).wp _ _ _
    unfold rcvrSpiMulti
    rw [wp_bind, wp_xmitSpi]
    intro y w' ex
    obtain ⟨c, step, rfl⟩ := exchange_low ex on
    obtain ⟨rfl, rfl⟩ := Card.step_sending step rfl
    apply wp_seq ih
    rintro r w' ⟨rfl, rfl⟩
    exact ⟨rfl, rfl⟩

theorem wp_waitToken {t : TimeoutChecker} {fuel a : Nat} (on : w.level = .low) :
    (waitToken t fuel).wp rules (fun token w' => token = 0xFE →
      ∃ k k', w' = w.at_ (.sending ((w.card.store a).toList ++ [k, k']))) (w.at_ (.latency a)) := by
  induction fuel with
  | zero => trivial
  | succ fuel ih =>
    unfold waitToken
    rw [wp_bind, wp_xmitSpi]
    intro y w' ex
    obtain ⟨c, step, rfl⟩ := exchange_low ex on
    rcases Card.step_latency step rfl with ⟨rfl, rfl⟩ | ⟨rfl, k, k', rfl⟩ | ⟨filler, token, rfl⟩
    · rw [if_pos rfl, wp_bind]
      apply wp_expired
      intro late
      split
      · exact fun no => absurd no (by decide)
      · exact ih
    · exact fun _ => ⟨k, k', rfl⟩
    · rw [if_neg filler]
      exact fun same => absurd same token

/-- A block received after CMD17 was answered by 0 is the sector it asked for. -/
theorem wp_rcvrDatablock (fuel a : Nat) (on : w.level = .low) :
    (rcvrDatablock fuel 512).wp rules (fun r _ => ∀ bytes, r = some bytes →
      bytes = (w.card.store a).toList) (w.at_ (.latency a)) := by
  unfold rcvrDatablock
  rw [wp_bind]
  apply wp_begin
  intro t
  apply wp_seq (wp_waitToken on)
  intro token w₁ h
  split
  · rename_i start
    obtain ⟨k, k', rfl⟩ := h start
    rw [wp_bind]
    have block := wp_rcvrSpiMulti (w := w) (w.card.store a).toList [k, k'] on
    rw [(w.card.store a).toList_length] at block
    apply wp_mono block
    rintro r w₂ ⟨rfl, rfl⟩
    rw [wp_bind, wp_xmitSpi]
    rintro y w₃ - bytes same
    exact (Option.some.inj same).symm
  · rintro bytes no
    cases no

/-- Blocks that were `x` before the loop, and are after it. -/
theorem wp_readLoop {fuel turns n : Nat} {addr : DWORD} {x : Sector} {buff₀ buff : List BYTE}
    {read count : UINT} (quiet : w.card.phase.Quiet) (room : 512 * n ≤ buff₀.length)
    (bound : n < 2 ^ 32) (at_ : w.card.store (w.card.sectorAt addr) = x)
    (left : read.toNat + count.toNat = n) (filled : Filled x buff₀ buff n read.toNat) :
    (readLoop fuel addr turns read count buff).wp rules
      (fun r _ => r.1 = 0 ∧ Filled x buff₀ r.2 n n) w := by
  induction turns generalizing w read count buff with
  | zero => trivial
  | succ turns ih =>
    -- wherever a turn ends, only the phase of the card has changed
    have again {w' : Scene} {read' count' : UINT} {buff' : List BYTE} (idled : w.Idled w')
        (left : read'.toNat + count'.toNat = n) (filled : Filled x buff₀ buff' n read'.toNat) :
        (readLoop fuel addr turns read' count' buff').wp rules
          (fun r _ => r.1 = 0 ∧ Filled x buff₀ r.2 n n) w' := by
      apply ih idled.quiet _ left filled
      obtain ⟨p, -, card⟩ := idled
      rw [card]
      exact at_
    unfold readLoop
    split
    · rename_i zero
      subst zero
      have all : read.toNat = n := left
      rw [all] at filled
      exact ⟨rfl, filled⟩
    · rename_i more
      rw [wp_bind]
      apply wp_mono (wp_sendCmd (by decide) (by decide) quiet)
      rintro res w₁ ⟨idled, answered⟩
      split
      · rename_i ok
        subst ok
        obtain ⟨on, card⟩ := answered (by decide)
        have here : w₁.at_ (.latency (w.card.sectorAt addr)) = w₁ := at_same (by rw [card]; rfl)
        have received := wp_rcvrDatablock fuel (w.card.sectorAt addr) on
        rw [here] at received
        rw [wp_bind]
        apply wp_mono (wp_and received ((rcvrDatablock_polite fuel 512).lulls w₁ idled.quiet))
        rintro block w₂ ⟨read_, idled₂⟩
        cases block with
        | none => exact again (idled.trans idled₂) left filled
        | some bytes =>
          have some_ : count.toNat ≠ 0 := fun zero => more (BitVec.eq_of_toNat_eq zero)
          have sector : bytes = x.toList := by
            rw [read_ bytes rfl, card]
            exact congrArg List.Vector.toList at_
          have one_less : (read + 1).toNat + (count - 1).toNat = n := by
            rw [BitVec.toNat_add, BitVec.toNat_sub]
            simp
            omega
          rw [sector]
          exact again (idled.trans idled₂) one_less (filled.step room (by omega) bound)
      · -- the recovery sends commands, and no packet
        rw [wp_bind]
        apply wp_seq (deselect_polite.lulls w₁ idled.quiet)
        intro _ w₂ idled₂
        apply wp_seq (unlock_polite.lulls w₂ idled₂.quiet)
        intro _ w₃ idled₃
        apply wp_seq ((initializeCard_polite fuel).lulls w₃ idled₃.quiet)
        intro _ w₄ idled₄
        apply wp_seq (lock_polite.lulls w₄ idled₄.quiet)
        intro _ w₅ idled₅
        exact again (idled.trans (idled₂.trans (idled₃.trans (idled₄.trans idled₅)))) left filled

end Scene

/-! ## `read()` -/

open Scene

variable {σ : Type} {b : Board σ} {view : σ → Card} {m m' : Machine σ}

/-- After `RES_OK` every block is the first sector. -/
theorem read_filled (conforms : Conforms b view) {fuel : Nat} {buff buff' : List BYTE} {s : DWORD}
    {n : UINT} (some_ : n ≠ 0) (quiet : (view m.env).phase.Quiet)
    (addressed : (view m.env).Addressed m.drv.cardType s n) (room : 512 * n.toNat ≤ buff.length)
    (run : exec b (read fuel buff s n) m = some ((.ok, buff'), m')) :
    Filled ((view m.env).store s.toNat) buff buff' n.toNat n.toNat := by
  obtain ⟨m₁, run, -⟩ := exec_member.1 run
  obtain ⟨m₂, run, -⟩ := exec_lockGuard.1 run
  refine exec_scene conforms
    (Q := fun r _ => r.1 = .ok → Filled ((view m.env).store s.toNat) buff r.2 n.toNat n.toNat)
    ?_ run rfl
  rw [wp_bind]
  apply Scene.wp_cardPresent
  intro present
  rw [wp_bind, Scene.wp_load]
  split
  · intro no
    cases no
  · rw [wp_bind, Scene.wp_load, wp_bind]
    have first := Card.sectorAt_cardAddress addressed some_
    have nothing : Filled ((view m.env).store s.toNat) buff buff n.toNat 0 := ⟨rfl, by simp⟩
    refine wp_mono (Scene.wp_readLoop quiet room n.isLt (congrArg _ first) (Nat.zero_add _) nothing) ?_
    rintro r w ⟨-, filled⟩
    apply wp_seq Scene.wp_deselect
    rintro _ w' - -
    exact filled

/-! ## Runs on the prompt card -/

theorem play_readLoop {w w₁ : Scene} {k : Nat} (fuel : Nat) (addr : DWORD) (read : UINT) (buff : List BYTE)
    (bound : k < 2 ^ 32) (filler : play (xmitSpi 0xFF) w = some (0xFF, w₁)) :
    ∃ buff' w', play (readLoop (fuel + 1) addr (k + 1) read (BitVec.ofNat 32 k) buff) w =
      some ((0, buff'), w') := by
  induction k generalizing w w₁ read buff with
  | zero => exact ⟨buff, w, rfl⟩
  | succ k ih =>
    have more : BitVec.ofNat 32 (k + 1) ≠ 0 := by
      intro zero
      have := congrArg BitVec.toNat zero
      simp at this
      omega
    have less : BitVec.ofNat 32 (k + 1) - 1 = BitVec.ofNat 32 k := by
      apply BitVec.eq_of_toNat_eq
      simp
      omega
    have sent := play_sendCmd fuel cmd17 addr (by decide) (by decide) filler
    have answered : w₁.card.answered cmd17 addr 0 = .latency (w₁.card.sectorAt addr) := rfl
    unfold readLoop
    rw [if_neg more, play_seq sent, if_pos rfl, answered, play_seq (play_rcvrDatablock fuel _), less]
    exact ih _ _ (by omega) (play_low (y := 0xFF) rfl)

theorem play_read {w : Scene} (h : w.Idle) {k : Nat} (bound : k < 2 ^ 32) (s : DWORD)
    (buff : List BYTE) : ∃ buff' w',
      play (read (k + 1) buff s (BitVec.ofNat 32 k)) w = some ((.ok, buff'), w') := by
  obtain ⟨buff', w', loop⟩ := play_readLoop k (cardAddress w.locked.drv.cardType s) 0 buff bound
    (play_high h.locked.off)
  refine ⟨buff', w'.released.unlocked, play_member ?_⟩
  have initialized : ¬ ((!true || w.locked.drv.status &&& staNoinit != 0) = true) := by
    rw [h.locked.status]
    decide
  rw [play_seq h.locked.present, play_seq play_load, if_neg initialized, play_seq play_load,
    play_seq loop, play_seq play_deselect]
  rfl

/-- A `read()` that returns `RES_OK` has stored sector `s + i` as its block `i`, for every
one of them, exactly when all these sectors are like the first. (The offset `512 * read`
wraps at 4 GiB; a block from there on is whatever the buffer held before.) -/
theorem read_blocks_iff (conforms : Conforms b view) {fuel : Nat} {buff buff' : List BYTE}
    {s : DWORD} {n : UINT} (some_ : n ≠ 0) (quiet : (view m.env).phase.Quiet)
    (addressed : (view m.env).Addressed m.drv.cardType s n) (room : 512 * n.toNat ≤ buff.length)
    (run : exec b (read fuel buff s n) m = some ((.ok, buff'), m')) :
    (∀ i < n.toNat, block buff' i = ((view m.env).store (s.toNat + i)).toList) ↔
      ∀ i < n.toNat, ((view m.env).store (s.toNat + i)).toList =
        if i < 2 ^ 23 then ((view m.env).store s.toNat).toList else block buff i := by
  have stored (i : Nat) (hi : i < n.toNat) : block buff' i =
      if i < 2 ^ 23 then ((view m.env).store s.toNat).toList else block buff i := by
    simpa [hi] using (read_filled conforms some_ quiet addressed room run).2 i hi
  constructor
  · intro right i hi
    rw [← right i hi, stored i hi]
  · intro same i hi
    rw [stored i hi, same i hi]

/-- Every sector is full of one byte. -/
def alike (_ : Nat) : Sector := List.Vector.replicate 512 0x5A

theorem read_blocks_iff_alike : ∃ buff' m',
    exec prompt (read 3 (List.replicate 1024 0) 0 2) (inserted alike) = some ((.ok, buff'), m') ∧
    ∀ i < (2 : UINT).toNat, block buff' i = (alike ((0 : DWORD).toNat + i)).toList := by
  obtain ⟨buff', w, played⟩ := play_read (inserted_idle alike) (k := 2) (by decide) 0
    (List.replicate 1024 0)
  obtain ⟨m', run, -⟩ := exec_of_play played
  have room : 512 * (2 : UINT).toNat ≤ (List.replicate 1024 (0 : BYTE)).length := by
    rw [List.length_replicate]
    decide
  have iff := read_blocks_iff prompt_conforms (by decide) (inserted_quiet alike)
    (inserted_addressed alike (by decide)) room run
  refine ⟨buff', m', run, iff.2 fun i hi => ?_⟩
  have two : (2 : UINT).toNat = 2 := rfl
  rw [two] at hi
  exact (if_pos (by omega)).symm

/-- Sector `i` is full of the byte `i`. -/
def numbered (i : Nat) : Sector := List.Vector.replicate 512 (BitVec.ofNat 8 i)

/-- Two sectors read in one go: `RES_OK`, and the second block is the first sector. -/
theorem read_repeats_first_sector : Conforms prompt id ∧
    (inserted numbered).env.Addressed (inserted numbered).drv.cardType 0 2 ∧
    ∃ buff' m', exec prompt (read 3 (List.replicate 1024 0) 0 2) (inserted numbered) =
        some ((.ok, buff'), m') ∧ block buff' 1 = (numbered 0).toList ∧
      block buff' 1 ≠ (numbered 1).toList := by
  have addressed := inserted_addressed numbered (n := 2) (by decide)
  obtain ⟨buff', w, played⟩ := play_read (inserted_idle numbered) (k := 2) (by decide) 0
    (List.replicate 1024 0)
  obtain ⟨m', run, -⟩ := exec_of_play played
  have room : 512 * (2 : UINT).toNat ≤ (List.replicate 1024 (0 : BYTE)).length := by
    rw [List.length_replicate]
    decide
  have filled := read_filled prompt_conforms (by decide) (inserted_quiet numbered) addressed room run
  have second : block buff' 1 = (numbered 0).toList := filled.2 1 (by decide)
  refine ⟨prompt_conforms, addressed, buff', m', run, second, ?_⟩
  rw [second]
  intro same
  have replicated : List.replicate 512 (0 : BYTE) = List.replicate 512 (1 : BYTE) := same
  rcases (List.replicate_inj.1 replicated).2 with none | equal
  · cases none
  · exact absurd equal (by decide)

end FatFsParticle.Sdspi
