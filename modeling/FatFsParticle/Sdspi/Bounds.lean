import FatFsParticle.Sdspi.Driver
import FatFsParticle.Interact.Fuel

/-!
# Bounds on turns

More fuel changes no run that has ended: each polling loop of the driver, and each
function around one, is below itself with a larger bound.
-/

namespace FatFsParticle.Sdspi
open Interact Program

theorem waitReadyLoop_below (t : TimeoutChecker) {n n' : Nat} (h : n ≤ n') :
    (waitReadyLoop t n).Below (waitReadyLoop t n') := by
  induction n generalizing n' with
  | zero => trivial
  | succ n ih =>
    obtain ⟨k, rfl⟩ := Nat.exists_eq_add_of_le' (Nat.lt_of_lt_of_le (Nat.zero_lt_succ n) h)
    unfold waitReadyLoop
    apply below_bind (below_refl _)
    intro d
    apply below_ite (below_refl _)
    apply below_bind (below_refl _)
    intro late
    exact below_ite (below_refl _) (ih (by omega))

theorem waitReady_below (wt : UINT) {n n' : Nat} (h : n ≤ n') :
    (waitReady n wt).Below (waitReady n' wt) := by
  apply below_bind (below_refl _)
  intro t
  exact below_bind (waitReadyLoop_below t h) fun _ => below_refl _

theorem select_below {n n' : Nat} (h : n ≤ n') : (select n).Below (select n') := by
  apply below_bind (below_refl _)
  intro _
  apply below_bind (below_refl _)
  intro _
  exact below_bind (waitReady_below 100 h) fun _ => below_refl _

theorem sendPacket_below (cmd : BYTE) (arg : DWORD) {n n' : Nat} (h : n ≤ n') :
    (sendPacket n cmd arg).Below (sendPacket n' cmd arg) := by
  apply below_bind
  · exact below_ite (below_bind (below_refl _) fun _ => select_below h) (below_refl _)
  · exact fun _ => below_refl _

theorem sendCmd_below (cmd : BYTE) (arg : DWORD) {n n' : Nat} (h : n ≤ n') :
    (sendCmd n cmd arg).Below (sendCmd n' cmd arg) := by
  apply below_bind (waitReady_below 10 h)
  intro _
  apply below_ite _ (sendPacket_below cmd arg h)
  apply below_bind (waitReady_below 10 h)
  intro _
  apply below_bind (sendPacket_below cmd55 0 h)
  intro res
  exact below_ite (below_refl _) (sendPacket_below _ arg h)

theorem rcvrDatablock_below (btr : Nat) {n n' : Nat} (h : n ≤ n') :
    (rcvrDatablock n btr).Below (rcvrDatablock n' btr) := by
  have loop (t : TimeoutChecker) {n n' : Nat} (h : n ≤ n') :
      (waitToken t n).Below (waitToken t n') := by
    induction n generalizing n' with
    | zero => trivial
    | succ n ih =>
      obtain ⟨k, rfl⟩ := Nat.exists_eq_add_of_le' (Nat.lt_of_lt_of_le (Nat.zero_lt_succ n) h)
      unfold waitToken
      apply below_bind (below_refl _)
      intro token
      apply below_ite _ (below_refl _)
      apply below_bind (below_refl _)
      intro late
      exact below_ite (below_refl _) (ih (by omega))
  apply below_bind (below_refl _)
  intro t
  exact below_bind (loop t h) fun _ => below_refl _

/-! ## `initialize` -/

theorem goIdle_below (k : Nat) {n n' : Nat} (h : n ≤ n') : (goIdle n k).Below (goIdle n' k) := by
  induction k with
  | zero => exact below_refl _
  | succ k ih =>
    apply below_bind (below_refl _)
    intro _
    exact below_bind (sendCmd_below cmd0 0 h) fun _ => ih

theorem pollUntilZero_below (t : TimeoutChecker) (cmd : BYTE) (arg : DWORD) {n n' k k' : Nat}
    (h : n ≤ n') (h' : k ≤ k') :
    (pollUntilZero n t cmd arg k).Below (pollUntilZero n' t cmd arg k') := by
  induction k generalizing k' with
  | zero => trivial
  | succ k ih =>
    obtain ⟨j, rfl⟩ := Nat.exists_eq_add_of_le' (Nat.lt_of_lt_of_le (Nat.zero_lt_succ k) h')
    unfold pollUntilZero
    apply below_bind (below_refl _)
    intro late
    apply below_ite (below_refl _)
    apply below_bind (sendCmd_below cmd arg h)
    intro res
    exact below_ite (below_refl _) (ih (by omega))

theorem identifySdv2_below (t : TimeoutChecker) {n n' : Nat} (h : n ≤ n') :
    (identifySdv2 n t).Below (identifySdv2 n' t) := by
  unfold identifySdv2
  iterate 4
    apply below_bind (below_refl _)
    intro _
  apply below_ite _ (below_refl _)
  apply below_bind (pollUntilZero_below t _ _ h h)
  intro _
  apply below_bind (below_refl _)
  intro late
  apply below_bind
  · apply below_ite (below_refl _)
    exact below_bind (sendCmd_below cmd58 0 h) fun _ => below_refl _
  · exact fun _ => below_refl _

theorem identifySdv1_below (t : TimeoutChecker) {n n' : Nat} (h : n ≤ n') :
    (identifySdv1 n t).Below (identifySdv1 n' t) := by
  apply below_bind (sendCmd_below acmd41 0 h)
  intro res
  apply below_bind (pollUntilZero_below t _ _ h h)
  intro _
  apply below_bind (below_refl _)
  intro late
  apply below_bind
  · apply below_ite (below_refl _)
    exact below_bind (sendCmd_below cmd16 512 h) fun _ => below_refl _
  · exact fun _ => below_refl _

theorem handshake_below {n n' : Nat} (h : n ≤ n') : (handshake n).Below (handshake n') := by
  apply below_bind (below_refl _)
  intro _
  apply below_bind (below_refl _)
  intro t
  apply below_bind (goIdle_below 200 h)
  intro _
  apply below_bind (sendCmd_below cmd0 0 h)
  intro res
  apply below_ite _ (below_refl _)
  apply below_bind (below_refl _)
  intro t'
  apply below_bind (sendCmd_below cmd8 0x1AA h)
  intro res
  apply below_bind (below_ite (identifySdv2_below t' h) (identifySdv1_below t' h))
  exact fun _ => below_refl _

theorem lockGuard_below {α : Type} {p q : Prog α} (h : p.Below q) :
    (lockGuard p).Below (lockGuard q) := by
  apply below_bind (below_refl _)
  intro _
  exact below_bind h fun _ => below_refl _

theorem member_below (f : Member) {α : Type} {p q : Prog α} (h : p.Below q) :
    (member f p).Below (member f q) := by
  apply below_bind (below_refl _)
  intro _
  exact below_bind h fun _ => below_refl _

theorem initializeCard_below {n n' : Nat} (h : n ≤ n') :
    (initializeCard n).Below (initializeCard n') := by
  apply member_below
  apply lockGuard_below
  apply below_bind (below_refl _)
  intro _
  apply below_bind (below_refl _)
  intro present
  apply below_ite (below_refl _)
  exact below_bind (handshake_below h) fun _ => below_refl _

end FatFsParticle.Sdspi
