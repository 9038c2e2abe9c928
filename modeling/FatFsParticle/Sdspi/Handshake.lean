import FatFsParticle.Sdspi.History
import FatFsParticle.Sdspi.Bounds

/-!
# Which cards `initialize()` accepts

`survey` is the part of the handshake that asks the card, up to the look at the
clock after the polling loop; `settle` is what the code makes of the answers, with
CMD16 for a card that is not SDv2. `Completed` says what it ought to make of them.
-/

namespace FatFsParticle.Sdspi
open Interact Program

variable {σ α : Type} {b : Board σ} {m m' : Machine σ}

/-- What the card answered. `zero`: the polling loop ended by an answer 0; `late`: the
timeout had expired at the check after it. -/
inductive Reply where
  | mute
  | badEcho
  | sdv2 (zero late : Bool) (ocr : Option BYTE)
  | other (acmd41 : BYTE) (zero late : Bool)
  deriving DecidableEq, Repr

/-- The answer to CMD58, which is sent only in time; `ocr` is the first byte of the
register if it was 0. -/
def surveyOcr (fuel : Nat) (zero late : Bool) : Prog Reply :=
  if late then pure (.sdv2 zero late none)
  else do
    let res ← sendCmd fuel cmd58 0
    if res = 0 then do
      let ocr0 ← xmitSpi 0xFF
      let _ ← xmitSpi 0xFF
      let _ ← xmitSpi 0xFF
      let _ ← xmitSpi 0xFF
      pure (.sdv2 zero late (some ocr0))
    else pure (.sdv2 zero late none)

/-- The answers of a card that answered CMD8 by 1. -/
def surveySdv2 (fuel : Nat) (timeout : TimeoutChecker) : Prog Reply := do
  let _ ← xmitSpi 0xFF
  let _ ← xmitSpi 0xFF
  let ocr2 ← xmitSpi 0xFF
  let ocr3 ← xmitSpi 0xFF
  if ocr2 = 0x01 ∧ ocr3 = 0xAA then do
    let zero ← pollUntilZero fuel timeout acmd41 (1 <<< 30) fuel
    let late ← timeout.expired
    surveyOcr fuel zero late
  else pure .badEcho

def surveyOther (fuel : Nat) (timeout : TimeoutChecker) : Prog Reply := do
  let res ← sendCmd fuel acmd41 0
  let zero ← pollUntilZero fuel timeout (if res ≤ 1 then acmd41 else cmd1) 0 fuel
  let late ← timeout.expired
  pure (.other res zero late)

/-- The answers of the card, with the timeout they were measured against. -/
def survey (fuel : Nat) : Prog (TimeoutChecker × Reply) := do
  let _ ← rcvrSpiMulti 10
  let timeout ← TimeoutChecker.begin 1000
  goIdle fuel 200
  let res ← sendCmd fuel cmd0 0
  if res = 1 then do
    let timeout ← TimeoutChecker.begin timeout.duration
    let res ← sendCmd fuel cmd8 0x1AA
    let reply ← (if res = 1 then surveySdv2 fuel timeout else surveyOther fuel timeout)
    pure (timeout, reply)
  else pure (timeout, .mute)

/-- The value of `ty` that belongs to the answers. -/
def Reply.cardType : Reply → BYTE
  | mute | badEcho | sdv2 _ _ none => 0
  | sdv2 _ _ (some ocr0) => if ocr0 &&& 0x40 ≠ 0 then ctSd2 ||| ctBlock else ctSd2
  | other res _ _ => if res ≤ 1 then ctSd1 else ctMmc

/-- What the code does with the answers: the value of `ty`. -/
def settle (fuel : Nat) (timeout : TimeoutChecker) : Reply → Prog BYTE
  | .mute | .badEcho => do
    let _ ← timeout.expired
    pure 0
  | .sdv2 zero late none => do
    let _ ← timeout.expired
    let _ ← timeout.expired
    pure (Reply.cardType (.sdv2 zero late none))
  | .sdv2 zero late (some ocr0) => do
    let _ ← timeout.expired
    pure (Reply.cardType (.sdv2 zero late (some ocr0)))
  | .other res zero late => do
    let rejected ← (if !late then pure true
      else do
        let res ← sendCmd fuel cmd16 512
        pure (res != 0))
    let _ ← timeout.expired
    pure (if rejected then 0 else Reply.cardType (.other res zero late))

/-! ## The handshake is a survey that is settled -/

theorem identifySdv2_eq (fuel : Nat) (timeout : TimeoutChecker) :
    (do let ty ← identifySdv2 fuel timeout; let _ ← timeout.expired; pure ty) =
      (surveySdv2 fuel timeout >>= settle fuel timeout) := by
  unfold identifySdv2 surveySdv2 surveyOcr
  simp only [bind_assoc, bind_ite, pure_bind]
  iterate 4 refine congrArg _ (funext fun _ => ?_)
  refine if_congr Iff.rfl ?_ rfl
  refine congrArg _ (funext fun zero => ?_)
  refine congrArg _ (funext fun late => ?_)
  cases late with
  | true => rfl
  | false =>
    simp only [Bool.false_eq_true, ↓reduceIte, beq_iff_eq]
    refine congrArg _ (funext fun res => ?_)
    refine if_congr Iff.rfl ?_ rfl
    iterate 4 refine congrArg _ (funext fun _ => ?_)
    rfl

theorem identifySdv1_eq (fuel : Nat) (timeout : TimeoutChecker) :
    (do let ty ← identifySdv1 fuel timeout; let _ ← timeout.expired; pure ty) =
      (surveyOther fuel timeout >>= settle fuel timeout) := by
  unfold identifySdv1 surveyOther
  simp only [bind_assoc, pure_bind]
  iterate 3 refine congrArg _ (funext fun _ => ?_)
  rfl

theorem handshake_eq (fuel : Nat) :
    handshake fuel = (do let (timeout, reply) ← survey fuel; settle fuel timeout reply) := by
  unfold handshake survey
  simp only [bind_assoc]
  refine congrArg _ (funext fun _ => ?_)
  refine congrArg _ (funext fun timeout => ?_)
  refine congrArg _ (funext fun _ => ?_)
  unfold identify
  refine congrArg _ (funext fun res => ?_)
  simp only [bind_ite, bind_assoc, pure_bind]
  refine if_congr Iff.rfl ?_ rfl
  refine congrArg _ (funext fun timeout => ?_)
  refine congrArg _ (funext fun res => ?_)
  refine if_congr Iff.rfl ?_ ?_
  · exact identifySdv2_eq fuel timeout
  · exact identifySdv1_eq fuel timeout

/-! ## The clock -/

/-- The clock readings of a log, newest first. -/
def ticks (log : List Event) : List DWORD :=
  log.filterMap fun
    | .tick t => some t
    | _ => none

theorem ticks_append (l l' : List Event) : ticks (l ++ l') = ticks l ++ ticks l' :=
  List.filterMap_append

/-- Between `older` and `newer` the clock did not go back. -/
def Forward (older newer : List Event) : Prop :=
  ∀ l, newer = l ++ older → (ticks l).Pairwise (· ≥ ·)

theorem Forward.part {a b c d : List Event} (h : Forward a d) (ab : a <:+ b) (cd : c <:+ d) :
    Forward b c := by
  intro l hl
  obtain ⟨x, rfl⟩ := ab
  obtain ⟨y, rfl⟩ := cd
  have whole := h (y ++ (l ++ x)) (by simp [hl])
  rw [ticks_append, ticks_append] at whole
  exact (List.pairwise_append.1 (List.pairwise_append.1 whole).2.1).1

/-- Once a timeout has expired it stays so while the clock goes forward. -/
theorem expiredAt_mono {t : TimeoutChecker} {now now' : DWORD} (started : t.start ≤ now)
    (forward : now ≤ now') (h : t.expiredAt now = true) : t.expiredAt now' = true := by
  unfold TimeoutChecker.expiredAt at h ⊢
  by_cases order : t.start < t.end_
  · rw [if_pos order] at h ⊢
    simp only [decide_eq_true_eq, BitVec.lt_def, BitVec.le_def] at h forward ⊢
    omega
  · rw [if_neg order] at h
    simp only [Bool.and_eq_true, decide_eq_true_eq] at h
    exact absurd started (BitVec.not_le.2 h.2)

theorem exec_expired {t : TimeoutChecker} {late : Bool} (h : exec b t.expired m = some (late, m')) :
    ∃ now, late = t.expiredAt now ∧ m'.log = .tick now :: m.log := by
  obtain ⟨now, u, hu, h⟩ := exec_bind_some.1 h
  rw [exec_millis] at hu
  cases hu
  cases h
  exact ⟨_, rfl, rfl⟩

/-- A polling loop that no answer 0 ended looked at the clock last, and was late. -/
theorem pollUntilZero_false {fuel : Nat} {t : TimeoutChecker} {cmd : BYTE} {arg : DWORD}
    {turns : Nat} (h : exec b (pollUntilZero fuel t cmd arg turns) m = some (false, m')) :
    ∃ now l, m'.log = .tick now :: l ++ m.log ∧ t.expiredAt now = true := by
  induction turns generalizing m with
  | zero => cases h
  | succ turns ih =>
    obtain ⟨late, u, hu, h⟩ := exec_bind_some.1 h
    obtain ⟨now, rfl, hlog⟩ := exec_expired hu
    by_cases late : t.expiredAt now = true
    · rw [if_pos late] at h
      cases h
      exact ⟨now, [], hlog, late⟩
    · rw [if_neg late] at h
      obtain ⟨res, v, hv, h⟩ := exec_bind_some.1 h
      split at h
      · cases h
      · obtain ⟨now', l, hl, late'⟩ := ih h
        obtain ⟨new, hnew, -⟩ := (exec_passed (sendCmd_traffic fuel _ _) hv).log
        exact ⟨now', l ++ new ++ [.tick now], by simp [hl, hnew, hlog], late'⟩

/-- The loop ended late, and after it the clock was read again to get `late`. -/
def Missed (t : TimeoutChecker) (late : Bool) (l : List Event) : Prop :=
  ∃ now now', [now', now].Sublist (ticks l) ∧ t.expiredAt now = true ∧ late = t.expiredAt now'

/-- What a reply says about the clock readings `l` made to get it. -/
def Reply.Timed (t : TimeoutChecker) (l : List Event) : Reply → Prop
  | mute | badEcho => True
  | sdv2 zero late ocr => (ocr.isSome = true → late = false) ∧ (zero = false → Missed t late l)
  | other _ zero late => zero = false → Missed t late l

theorem missed_of_poll {fuel : Nat} {t : TimeoutChecker} {cmd : BYTE} {arg : DWORD} {late : Bool}
    {u v : Machine σ} (poll : exec b (pollUntilZero fuel t cmd arg fuel) m = some (false, u))
    (check : exec b t.expired u = some (late, v)) :
    ∃ l, v.log = l ++ m.log ∧ Missed t late l := by
  obtain ⟨now, l, hl, expired⟩ := pollUntilZero_false poll
  obtain ⟨now', rfl, hlog⟩ := exec_expired check
  refine ⟨.tick now' :: .tick now :: l, by simp [hlog, hl], now, now', ?_, expired, rfl⟩
  exact ((List.nil_sublist _).cons_cons _).cons_cons _

theorem Missed.mono {t : TimeoutChecker} {late : Bool} {l : List Event} (h : Missed t late l)
    (x y : List Event) : Missed t late (x ++ l ++ y) := by
  obtain ⟨now, now', sub, rest⟩ := h
  refine ⟨now, now', ?_, rest⟩
  rw [ticks_append, ticks_append]
  exact (sub.trans (List.sublist_append_right _ _)).trans (List.sublist_append_left _ _)

theorem surveyOcr_result {fuel : Nat} {zero late : Bool} {r : Reply}
    (h : exec b (surveyOcr fuel zero late) m = some (r, m')) :
    ∃ ocr, r = .sdv2 zero late ocr ∧ (ocr.isSome = true → late = false) := by
  cases late with
  | true =>
    cases h
    exact ⟨none, rfl, by simp⟩
  | false =>
    obtain ⟨res, u, -, h⟩ := exec_bind_some.1 h
    split at h
    · obtain ⟨ocr0, v, -, h⟩ := exec_bind_some.1 h
      cases h
      exact ⟨some ocr0, rfl, fun _ => rfl⟩
    · cases h
      exact ⟨none, rfl, by simp⟩

theorem surveySdv2_timed {fuel : Nat} {t : TimeoutChecker} {r : Reply}
    (h : exec b (surveySdv2 fuel t) m = some (r, m')) : ∃ l, m'.log = l ++ m.log ∧ r.Timed t l := by
  obtain ⟨x, hx⟩ := exec_log h
  obtain ⟨_, u₁, h₁, h⟩ := exec_bind_some.1 h
  obtain ⟨_, u₂, h₂, h⟩ := exec_bind_some.1 h
  obtain ⟨_, u₃, h₃, h⟩ := exec_bind_some.1 h
  obtain ⟨_, u₄, h₄, h⟩ := exec_bind_some.1 h
  split at h
  · obtain ⟨zero, v, poll, h⟩ := exec_bind_some.1 h
    obtain ⟨late, w, check, h⟩ := exec_bind_some.1 h
    obtain ⟨ocr, rfl, inTime⟩ := surveyOcr_result h
    refine ⟨x, hx.symm, inTime, ?_⟩
    rintro rfl
    obtain ⟨l, hl, missed⟩ := missed_of_poll poll check
    obtain ⟨y, hy⟩ := exec_log h
    obtain ⟨z, hz⟩ := (exec_log h₁).trans ((exec_log h₂).trans ((exec_log h₃).trans (exec_log h₄)))
    have parts : x = y ++ l ++ z := by
      apply List.append_cancel_right
      rw [hx, ← hy, hl, ← hz]
      simp
    exact parts ▸ missed.mono y z
  · cases h
    exact ⟨x, hx.symm, trivial⟩

theorem surveyOther_timed {fuel : Nat} {t : TimeoutChecker} {r : Reply}
    (h : exec b (surveyOther fuel t) m = some (r, m')) : ∃ l, m'.log = l ++ m.log ∧ r.Timed t l := by
  obtain ⟨res, u, hu, h⟩ := exec_bind_some.1 h
  obtain ⟨zero, v, poll, h⟩ := exec_bind_some.1 h
  obtain ⟨late, w, check, h⟩ := exec_bind_some.1 h
  cases h
  obtain ⟨x, hx⟩ := (exec_log hu).trans ((exec_log poll).trans (exec_log check))
  refine ⟨x, hx.symm, ?_⟩
  rintro rfl
  obtain ⟨l, hl, missed⟩ := missed_of_poll poll check
  obtain ⟨z, hz⟩ := exec_log hu
  have parts : x = [] ++ l ++ z := by
    apply List.append_cancel_right
    rw [hx, hl, ← hz]
    simp
  exact parts ▸ missed.mono [] z

/-- A polling loop that no answer 0 ended leaves the reply late, and CMD58 is answered
only in time. -/
def Reply.Sound : Reply → Prop
  | mute | badEcho => True
  | sdv2 zero late ocr => (zero = false → late = true) ∧ (ocr.isSome = true → late = false)
  | other _ zero late => zero = false → late = true

theorem Missed.late {t : TimeoutChecker} {late : Bool} {l x : List Event} (h : Missed t late l)
    (sorted : (ticks (l ++ (x ++ [.tick t.start]))).Pairwise (· ≥ ·)) : late = true := by
  obtain ⟨now, now', sub, expired, rfl⟩ := h
  rw [ticks_append] at sorted
  obtain ⟨readings, -, across⟩ := List.pairwise_append.1 sorted
  have order : now ≤ now' := by simpa using readings.sublist sub
  have started : t.start ≤ now := by
    apply across now (sub.subset (by simp)) t.start
    simp [ticks]
  exact expiredAt_mono started order expired

theorem survey_sound {fuel : Nat} {t : TimeoutChecker} {r : Reply}
    (h : exec b (survey fuel) m = some ((t, r), m')) (forward : Forward m.log m'.log) :
    r.Sound := by
  obtain ⟨_, u₁, h₁, h⟩ := exec_bind_some.1 h
  obtain ⟨t₀, u₂, h₂, h⟩ := exec_bind_some.1 h
  obtain ⟨_, u₃, h₃, h⟩ := exec_bind_some.1 h
  obtain ⟨res, u₄, h₄, h⟩ := exec_bind_some.1 h
  split at h
  · obtain ⟨t', u₅, h₅, h⟩ := exec_bind_some.1 h
    obtain ⟨res', u₆, h₆, h⟩ := exec_bind_some.1 h
    obtain ⟨r', u₇, h₇, h⟩ := exec_bind_some.1 h
    cases h
    obtain ⟨l, hl, timed⟩ : ∃ l, m'.log = l ++ u₆.log ∧ r.Timed t l := by
      split at h₇
      · exact surveySdv2_timed h₇
      · exact surveyOther_timed h₇
    obtain ⟨x, hx⟩ := exec_log h₆
    have started : u₅.log = .tick t.start :: u₄.log := by
      cases h₅
      rfl
    have before : m.log <:+ u₄.log :=
      (exec_log h₁).trans ((exec_log h₂).trans ((exec_log h₃).trans (exec_log h₄)))
    have sorted := forward.part before List.suffix_rfl (l ++ (x ++ [.tick t.start]))
      (by rw [hl, ← hx, started]; simp)
    cases r with
    | mute | badEcho => trivial
    | sdv2 zero late ocr => exact ⟨fun missed => (timed.2 missed).late sorted, timed.1⟩
    | other acmd41 zero late => exact fun missed => (timed missed).late sorted
  · cases h
    trivial

/-! ## What the code makes of the answers -/

/-- Asked with CMD16 for blocks of 512 bytes, the card answers 0. -/
def AnswersCmd16 (b : Board σ) (m : Machine σ) : Prop :=
  ∃ fuel t, exec b (sendCmd fuel cmd16 512) m = some (0, t)

/-- The answers complete the handshake, where `sixteen` stands for an answer 0 to CMD16. -/
def Reply.Complete (sixteen : Prop) : Reply → Prop
  | mute | badEcho => False
  | sdv2 zero late ocr => zero = true ∧ late = false ∧ ocr.isSome = true
  | other _ zero late => zero = true ∧ late = false ∧ sixteen

theorem Reply.other_cardType (acmd41 : BYTE) (zero late : Bool) :
    Reply.cardType (.other acmd41 zero late) ≠ 0 := by
  change (if acmd41 ≤ 1 then ctSd1 else ctMmc) ≠ 0
  split <;> decide

theorem Reply.Complete.cardType {sixteen : Prop} {r : Reply} (h : r.Complete sixteen) :
    r.cardType ≠ 0 := by
  cases r with
  | mute | badEcho => exact h.elim
  | sdv2 zero late ocr =>
    cases ocr with
    | none => simp [Complete] at h
    | some ocr0 =>
      change (if ocr0 &&& 0x40 ≠ 0 then ctSd2 ||| ctBlock else ctSd2) ≠ 0
      split <;> decide
  | other acmd41 zero late => exact Reply.other_cardType acmd41 zero late

/-- The type `settle` finds is right exactly when the card is SDv2 or refuses CMD16. -/
theorem settle_iff {fuel : Nat} {t : TimeoutChecker} {r : Reply} {ty : BYTE}
    (h : exec b (settle fuel t r) m = some (ty, m')) (sound : r.Sound) :
    ((ty ≠ 0 ↔ r.Complete (AnswersCmd16 b m)) ∧
        (r.Complete (AnswersCmd16 b m) → ty = r.cardType)) ↔
      ∀ acmd41 zero late, r = .other acmd41 zero late → ¬ AnswersCmd16 b m := by
  cases r with
  | mute | badEcho =>
    cases h
    simp [Reply.Complete]
  | sdv2 zero late ocr =>
    cases ocr with
    | none =>
      cases h
      simp [Reply.Complete, Reply.cardType]
    | some ocr0 =>
      have inTime : late = false := sound.2 rfl
      have reached : zero = true := by
        cases zero with
        | true => rfl
        | false => exact absurd (sound.1 rfl) (by simp [inTime])
      have complete : Reply.Complete (AnswersCmd16 b m) (.sdv2 zero late (some ocr0)) :=
        ⟨reached, inTime, rfl⟩
      cases h
      constructor
      · intro _ acmd41 zero' late' other
        cases other
      · intro _
        exact ⟨⟨fun _ => complete, fun _ => complete.cardType⟩, fun _ => rfl⟩
  | other acmd41 zero late =>
    cases late with
    | false =>
      -- in time: CMD16 is never sent and the card is turned away
      have reached : zero = true := by
        cases zero with
        | true => rfl
        | false => exact absurd (sound rfl) (by simp)
      cases h
      constructor
      · rintro ⟨accepts, -⟩ _ _ _ - answers
        exact accepts.2 ⟨reached, rfl, answers⟩ rfl
      · intro refuses
        have no := refuses _ _ _ rfl
        exact ⟨⟨fun nonzero => absurd rfl nonzero, fun complete => absurd complete.2.2 no⟩,
          fun complete => absurd complete.2.2 no⟩
    | true =>
      -- late: the answer to CMD16 alone decides
      obtain ⟨rejected, u, hu, h⟩ := exec_bind_some.1 h
      obtain ⟨res, v, hv, hu⟩ := exec_bind_some.1 hu
      cases hu
      cases h
      have answer : AnswersCmd16 b m ↔ res = 0 := by
        constructor
        · rintro ⟨fuel', t', ht'⟩
          exact congrArg Prod.fst (run_unique (fun _ _ => sendCmd_below cmd16 512) hv ht')
        · rintro rfl
          exact ⟨fuel, u, hv⟩
      have incomplete : ¬ Reply.Complete (AnswersCmd16 b m) (.other acmd41 zero true) := by
        rintro ⟨-, late, -⟩
        cases late
      constructor
      · rintro ⟨accepts, -⟩ _ _ _ - answers
        have accepted := answer.1 answers
        apply incomplete
        apply accepts.1
        rw [accepted]
        exact Reply.other_cardType acmd41 zero true
      · intro refuses
        have no : res ≠ 0 := fun zero => refuses _ _ _ rfl (answer.2 zero)
        rw [if_pos (by simpa using no)]
        exact ⟨⟨fun nonzero => absurd rfl nonzero, fun complete => absurd complete incomplete⟩,
          fun complete => absurd complete incomplete⟩

/-! ## `initialize()` -/

/-- A card is there and gave the answers `r`, and they complete the handshake. -/
def Completed (b : Board σ) (fuel : Nat) (m : Machine σ) (r : Reply) : Prop :=
  (m.entered.slot b).1 = true ∧ ∃ t u, exec b (survey fuel) (m.entered.slot b).2 = some ((t, r), u) ∧
    r.Complete (AnswersCmd16 b u)

/-- `initialize()` from `m` accepts the card, with its type, if the handshake was
completed, and else leaves the driver without a card. -/
structure Accepts (b : Board σ) (fuel : Nat) (m : Machine σ) (st : DSTATUS) (m' : Machine σ) :
    Prop where
  ready : st &&& staNoinit = 0 ↔ ∃ r, Completed b fuel m r
  cardType : ∀ r, Completed b fuel m r → m'.drv.cardType = r.cardType
  rejects : (¬ ∃ r, Completed b fuel m r) →
    m'.drv.cardType = 0 ∧ st &&& staNoinit ≠ 0 ∧ m'.drv.status &&& staNoinit ≠ 0

/-- While the clock goes forward, `initialize()` does what it ought to exactly when there
is a card, and it is SDv2 or does not answer CMD16 by 0. -/
theorem initializeCard_accepts_iff {fuel : Nat} {st : DSTATUS}
    (run : exec b (initializeCard fuel) m = some (st, m')) (forward : Forward m.log m'.log) :
    Accepts b fuel m st m' ↔ (m.entered.slot b).1 = true ∧
      ∀ t acmd41 zero late u,
        exec b (survey fuel) (m.entered.slot b).2 = some ((t, .other acmd41 zero late), u) →
        ¬ AnswersCmd16 b u := by
  rcases initializeCard_cases run with ⟨absent, rfl, rfl⟩ | ⟨present, ty, m₁, m₂, hh, hc, rfl⟩
  · constructor
    · intro accepts
      have none : ¬ ∃ r, Completed b fuel m r := by
        rintro ⟨r, present, -⟩
        rw [absent] at present
        cases present
      exact absurd (by decide) (accepts.rejects none).2.1
    · rintro ⟨present, -⟩
      rw [absent] at present
      cases present
  · rw [handshake_eq] at hh
    obtain ⟨⟨t, r⟩, u, hs, ht⟩ := exec_bind_some.1 hh
    obtain ⟨w, v, run', -, -, -, drv, hlog⟩ := exec_conclude (b := b) (m := m₁) ty
    rw [run'] at hc
    obtain ⟨rfl, rfl⟩ := by simpa using hc
    have survey_forward : Forward (m.entered.slot b).2.log u.log := by
      refine forward.part ?_ ?_
      · rcases m.entered.slot_log b with ⟨-, hs⟩ | ⟨-, level, -, hl⟩
        · rw [hs]
          exact List.suffix_cons _ _
        · rw [hl]
          exact (List.suffix_cons _ _).trans (List.suffix_cons _ _)
      · exact (exec_log ht).trans ((exec_log run').trans (List.suffix_cons _ _))
    have completed (r' : Reply) :
        Completed b fuel m r' ↔ r' = r ∧ r.Complete (AnswersCmd16 b u) := by
      constructor
      · rintro ⟨-, t', u', hs', complete⟩
        rw [hs] at hs'
        cases hs'
        exact ⟨rfl, complete⟩
      · rintro ⟨rfl, complete⟩
        exact ⟨present, t, u, hs, complete⟩
    have type : (v.unlocked.marked (.leave .initializeCard)).drv.cardType = ty := by simp [drv]
    have bit : v.drv.status &&& staNoinit = 0 ↔ ty ≠ 0 := by
      rw [drv]
      exact concludedStatus_noinit _ _ _
    have settled := settle_iff ht (survey_sound hs survey_forward)
    have some_completed : (∃ r', Completed b fuel m r') ↔ r.Complete (AnswersCmd16 b u) := by
      simp [completed]
    constructor
    · intro accepts
      refine ⟨present, ?_⟩
      intro t' acmd41 zero late u' hs'
      obtain ⟨hr, rfl⟩ := by simpa using hs.symm.trans hs'
      apply settled.1 _ acmd41 zero late hr.2
      constructor
      · rw [← bit, accepts.ready, some_completed]
      · intro complete
        rw [← type]
        exact accepts.cardType r ((completed r).2 ⟨rfl, complete⟩)
    · rintro ⟨-, refuses⟩
      obtain ⟨ready, cardType⟩ := settled.2 fun acmd41 zero late other =>
        refuses t acmd41 zero late u (other ▸ hs)
      constructor
      · rw [bit, some_completed, ready]
      · intro r' hr'
        obtain ⟨rfl, complete⟩ := (completed r').1 hr'
        rw [type, cardType complete]
      · intro none
        have zero : ty = 0 := by
          by_contra nonzero
          exact none (some_completed.2 (ready.1 nonzero))
        have set : v.drv.status &&& staNoinit ≠ 0 := fun clear => bit.1 clear zero
        exact ⟨type.trans zero, set, set⟩

/-- A clock that stands still goes forward. -/
theorem forward_of_still {p : Prog α} {now : DWORD} (still : ∀ s, (b.millis s).1 = now) {a : α}
    (h : exec b p m = some (a, m')) : Forward m.log m'.log := by
  obtain ⟨new, hlog, same⟩ : ∃ new, m'.log = new ++ m.log ∧ ∀ t ∈ ticks new, t = now := by
    refine run_steps
      (T := fun m m' : Machine σ => ∃ new, m'.log = new ++ m.log ∧ ∀ t ∈ ticks new, t = now)
      (fun m => ⟨[], rfl, by simp [ticks]⟩) ?_ ?_ h
    · rintro m₁ m₂ m₃ ⟨new, hlog, hnew⟩ ⟨new', hlog', hnew'⟩
      refine ⟨new' ++ new, by simp [hlog', hlog], ?_⟩
      intro t ht
      rw [ticks_append] at ht
      rcases List.mem_append.1 ht with ht | ht
      · exact hnew' t ht
      · exact hnew t ht
    · intro r m
      cases r with
      | millis => exact ⟨[_], rfl, by simpa [ticks] using still m.env⟩
      | transfer | digitalRead | mark => exact ⟨[_], rfl, by simp [ticks]⟩
      | spi c => cases c <;> exact ⟨[], rfl, by simp [ticks]⟩
      | digitalWrite | delay | load | store | mutexLock | mutexUnlock =>
        exact ⟨[], rfl, by simp [ticks]⟩
  intro l hl
  have : l = new := List.append_cancel_right (hl.symm.trans hlog)
  subst this
  apply List.Pairwise.imp_of_mem _ (List.pairwise_of_forall (R := fun _ _ : DWORD => True) (by simp))
  intro x y hx hy _
  rw [same x hx, same y hy]
  exact BitVec.le_refl _

set_option maxRecDepth 100000 in
/-- An SDv2 card with block addresses is accepted. -/
theorem initializeCard_accepts_iff_sdhc : ∃ st m',
    exec (scripted sdhcAnswer) (initializeCard 5) (detecting fun _ => .high) = some (st, m') ∧
    st &&& staNoinit = 0 ∧ Accepts (scripted sdhcAnswer) 5 (detecting fun _ => .high) st m' := by
  have accepted : ((exec (scripted sdhcAnswer) (initializeCard 5) (detecting fun _ => .high)).any
      fun x => x.1 &&& staNoinit == 0) = true := by decide +kernel
  have asked : ((exec (scripted sdhcAnswer) (survey 5)
      ((detecting fun _ => .high).entered.slot (scripted sdhcAnswer)).2).any fun x =>
      x.1.2 == .sdv2 true false (some 0xC0)) = true := by
    decide +kernel
  simp only [Option.any_eq_true, beq_iff_eq] at accepted asked
  obtain ⟨⟨st, m'⟩, run, clear⟩ := accepted
  obtain ⟨⟨⟨t, r⟩, u⟩, hs, rfl⟩ := asked
  refine ⟨st, m', run, clear, (initializeCard_accepts_iff run (forward_of_still (fun _ => rfl) run)).2 ⟨rfl, ?_⟩⟩
  intro t' acmd41 zero late u' other
  rw [hs] at other
  cases other

/-- The answers of an SDv1 card. -/
def sdv1Answer (cmd : BYTE) (_ : DWORD) : List BYTE :=
  if cmd = cmd0 ∨ cmd = cmd55 then [0x01] else if cmd = cmd8 then [0x05] else [0x00]

set_option maxRecDepth 100000 in
/-- An SDv1 card that answers everything in time is turned away. -/
theorem sdv1_card_rejected : ∃ st m',
    exec (scripted sdv1Answer) (initializeCard 5) (detecting fun _ => .high) = some (st, m') ∧
    Forward (detecting fun _ => .high).log m'.log ∧
    ¬ Accepts (scripted sdv1Answer) 5 (detecting fun _ => .high) st m' := by
  have rejected : ((exec (scripted sdv1Answer) (initializeCard 5) (detecting fun _ => .high)).any
      fun x => x.1 &&& staNoinit != 0) = true := by decide +kernel
  have asked : ((exec (scripted sdv1Answer) (survey 5)
      ((detecting fun _ => .high).entered.slot (scripted sdv1Answer)).2).any fun x =>
      x.1.2 == .other 0 true false &&
      (exec (scripted sdv1Answer) (sendCmd 5 cmd16 512) x.2).any fun y => y.1 == 0) = true := by
    decide +kernel
  simp only [Option.any_eq_true, Bool.and_eq_true, beq_iff_eq, bne_iff_ne] at rejected asked
  obtain ⟨⟨st, m'⟩, run, set⟩ := rejected
  obtain ⟨⟨⟨t, r⟩, u⟩, hs, rfl, ⟨res, v⟩, answer, rfl⟩ := asked
  refine ⟨st, m', run, forward_of_still (fun _ => rfl) run, ?_⟩
  intro accepts
  exact set (accepts.ready.2 ⟨_, rfl, t, u, hs, rfl, rfl, 5, v, answer⟩)

end FatFsParticle.Sdspi
