import FatFsParticle.Sdspi.Turns

/-!
# Addresses and the card in force

`read()` converts the sector number before its loop, by the `_cardType` it finds then. A
rejected CMD17 may change `_cardType` inside the loop, and blocks that come in move the
sector to be fetched, but every CMD17 carries the same argument. What is sent is heard on
the log of a run of `read()`, up to any moment of it, whether or not it comes back.
-/

namespace FatFsParticle.Sdspi
open Interact Program

variable {σ : Type}

/-- Where a sector is: its number, or that of its first byte. -/
def sectorAddress (cardType : BYTE) (sector : Nat) : Nat :=
  if cardType &&& ctBlock ≠ 0 then sector else 512 * sector

/-- The machine after `n` requests of `read()`, begun at `m`. -/
def midRead (b : Board σ) (m : Machine σ) (fuel : Nat) (buff : List BYTE) (sector : DWORD)
    (count : UINT) (n : Nat) : Machine σ :=
  (read fuel buff sector count).advance (Machine.handle b) n m

/-- The request after the first `n` of `read()`, begun at `m`, completes a CMD17 with the
argument `arg`. -/
def Sends (b : Board σ) (m : Machine σ) (fuel : Nat) (buff : List BYTE) (sector : DWORD)
    (count : UINT) (n : Nat) (arg : DWORD) : Prop :=
  (heardSince m (midRead b m fuel buff sector count (n + 1))).commands =
    (cmd17, arg) :: (heardSince m (midRead b m fuel buff sector count n)).commands

/-- Every CMD17 of `read()` carries the address of the sector to be fetched, that after the
blocks received so far, by the type in force. -/
def AddressesFollow (b : Board σ) (m : Machine σ) (buff : List BYTE) (sector : DWORD)
    (count : UINT) : Prop :=
  ∀ fuel n arg, Sends b m fuel buff sector count n arg →
    let now := midRead b m fuel buff sector count n
    arg.toNat = sectorAddress now.drv.cardType (sector.toNat + (heardSince m now).blocks)

/-- The address converted by `began` is right for the sector `k` further on, by `now`: none
has come in and the addressing is what it was, or the sector is 0; or bytes were counted
at first and blocks are now, and it happens to be the sector 512 times as far. -/
def StaysRight (began now : BYTE) (sector k : Nat) : Prop :=
  if began &&& ctBlock ≠ 0 then
    k = 0 ∧ (now &&& ctBlock ≠ 0 ∨ sector = 0)
  else if now &&& ctBlock ≠ 0 then k = 511 * sector else k = 0

instance (began now : BYTE) (sector k : Nat) : Decidable (StaysRight began now sector k) := by
  unfold StaysRight
  infer_instance

theorem toNat_cardAddress {cardType : BYTE} {sector : DWORD}
    (addressable : sectorAddress cardType sector.toNat < 2 ^ 32) :
    (cardAddress cardType sector).toNat = sectorAddress cardType sector.toNat := by
  unfold cardAddress sectorAddress at *
  by_cases bytes : cardType &&& ctBlock = 0
  · rw [if_neg (not_not.mpr bytes)] at addressable ⊢
    rw [if_pos bytes, BitVec.toNat_mul]
    have block : (512 : DWORD).toNat = 512 := rfl
    rw [block, Nat.mod_eq_of_lt (by omega)]
    omega
  · rw [if_neg bytes, if_pos bytes]

theorem sectorAddress_eq_iff (began now : BYTE) (sector k : Nat) :
    sectorAddress began sector = sectorAddress now (sector + k) ↔
      StaysRight began now sector k := by
  unfold sectorAddress StaysRight
  by_cases blocks : began &&& ctBlock ≠ 0
  · rw [if_pos blocks, if_pos blocks]
    by_cases still : now &&& ctBlock ≠ 0
    · rw [if_pos still]
      constructor
      · intro same
        exact ⟨by omega, .inl still⟩
      · rintro ⟨rfl, -⟩
        rfl
    · rw [if_neg still]
      constructor
      · intro same
        exact ⟨by omega, .inr (by omega)⟩
      · rintro ⟨rfl, now | zero⟩
        · exact absurd now still
        · omega
  · rw [if_neg blocks, if_neg blocks]
    by_cases changed : now &&& ctBlock ≠ 0
    · rw [if_pos changed, if_pos changed]
      omega
    · rw [if_neg changed, if_neg changed]
      omega

/-- Whatever happened since, the argument is what was computed first. -/
theorem Sends.arg_eq {b : Board σ} {m : Machine σ} {fuel n : Nat} {buff : List BYTE}
    {sector arg : DWORD} {count : UINT} (sends : Sends b m fuel buff sector count n arg) :
    count ≠ 0 ∧ arg = cardAddress m.drv.cardType sector := by
  let P (arg : DWORD) : Prop := count ≠ 0 ∧ arg = cardAddress m.drv.cardType sector
  have spec := Ear.wp_read (P := P) (e := ⟨m.drv, {}⟩) fuel buff sector rfl
    (fun some_ : count ≠ 0 => ⟨some_, rfl⟩)
  obtain ⟨e, hears⟩ := advance_sound (ear_simulates P b m.log) (.start m) spec (n + 1)
  obtain ⟨new, log, told⟩ := hears.log
  apply hears.right
  have heard : (heardSince m (midRead b m fuel buff sector count (n + 1))).commands =
      e.heard.commands := congrArg Hearing.commands ((heardSince_eq log).trans told)
  rw [← heard, sends]
  exact List.mem_cons_self

/-- The addresses follow the card exactly if, whenever CMD17 is sent, the address computed
first is still right. -/
theorem addresses_follow_iff (b : Board σ) (m : Machine σ) (buff : List BYTE) (sector : DWORD)
    (count : UINT)
    (addressable : ∀ k < count.toNat, sectorAddress m.drv.cardType (sector.toNat + k) < 2 ^ 32) :
    AddressesFollow b m buff sector count ↔
      ∀ fuel n, (∃ arg, Sends b m fuel buff sector count n arg) →
        let now := midRead b m fuel buff sector count n
        StaysRight m.drv.cardType now.drv.cardType sector.toNat (heardSince m now).blocks := by
  have value {fuel n : Nat} {arg : DWORD} (sends : Sends b m fuel buff sector count n arg) :
      arg.toNat = sectorAddress m.drv.cardType sector.toNat := by
    obtain ⟨some_, same⟩ := sends.arg_eq
    rw [same]
    apply toNat_cardAddress
    exact addressable 0 (Nat.pos_of_ne_zero fun zero => some_ (BitVec.eq_of_toNat_eq zero))
  constructor
  · rintro follow fuel n ⟨arg, sends⟩
    have right := follow fuel n arg sends
    rw [value sends] at right
    exact (sectorAddress_eq_iff _ _ _ _).mp right
  · intro stays fuel n arg sends
    rw [value sends]
    exact (sectorAddress_eq_iff _ _ _ _).mpr (stays fuel n ⟨arg, sends⟩)

/-! ## A card that was swapped -/

/-- An SDHC card that has no byte address 512. -/
def rejectingAnswer (cmd : BYTE) (arg : DWORD) : List BYTE :=
  if cmd = cmd17 ∧ arg = 512 then [0x20] else sdhcAnswer cmd arg

/-- The driver was initialised with a card that counts bytes, and holds another one now. -/
def swapped : Machine Scripted where
  drv := { cs := 10, status := 0, cardType := ctSd2 }
  out _ := .high
  hz := 15000000
  log := []
  env := { pins := fun _ => .high }

set_option maxRecDepth 20000 in
/-- After the re-initialisation the byte address 512 goes to the new card, where it is that
of sector 512. -/
theorem swapped_card_wrong_address :
    (∀ k < (1 : UINT).toNat, sectorAddress swapped.drv.cardType ((1 : DWORD).toNat + k) < 2 ^ 32) ∧
      ¬ AddressesFollow (scripted rejectingAnswer) swapped [] 1 1 := by
  constructor
  · decide
  · intro follow
    have again : (midRead (scripted rejectingAnswer) swapped 2 [] 1 1 3785).drv.cardType =
        ctSd2 ||| ctBlock ∧
        (heardSince swapped (midRead (scripted rejectingAnswer) swapped 2 [] 1 1 3785)).blocks = 0 ∧
        (heardSince swapped (midRead (scripted rejectingAnswer) swapped 2 [] 1 1 3786)).commands =
          (cmd17, 512) ::
            (heardSince swapped (midRead (scripted rejectingAnswer) swapped 2 [] 1 1 3785)).commands := by
      decide +kernel
    obtain ⟨blockwise, none_, sends⟩ := again
    have right := follow 2 3785 512 sends
    dsimp only at right
    rw [blockwise, none_] at right
    exact absurd right (by decide)

/-- One sector of an SDHC card. -/
theorem addresses_follow_iff_sdhc :
    let m := { swapped with drv := { swapped.drv with cardType := ctSd2 ||| ctBlock } }
    let board := scripted sdhcAnswer
    (∃ n, Sends board m 2 [] 0xFFFFFFFF 1 n 0xFFFFFFFF) ∧
      (AddressesFollow board m [] 0xFFFFFFFF 1 ↔
        ∀ fuel n, (∃ arg, Sends board m fuel [] 0xFFFFFFFF 1 n arg) →
          let now := midRead board m fuel [] 0xFFFFFFFF 1 n
          StaysRight m.drv.cardType now.drv.cardType 0xFFFFFFFF (heardSince m now).blocks) := by
  intro m board
  have sent : Sends board m 2 [] 0xFFFFFFFF 1 26 0xFFFFFFFF := by
    unfold Sends
    decide +kernel
  exact ⟨⟨26, sent⟩, addresses_follow_iff board m [] 0xFFFFFFFF 1 (by decide)⟩

end FatFsParticle.Sdspi
