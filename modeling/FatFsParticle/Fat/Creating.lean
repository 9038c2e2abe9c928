import FatFsParticle.Fat.Chains

/-!
# What create_chain does

The search looks at every cluster once, in a circle that begins behind the suggestion. It
takes the first free one, and finds none only where none is free. An entry of 1, which no
chain has, ends it, too.
-/

namespace FatFsParticle.Fat
open Interact Program Links
open Files (FRESULT)
open Drives (FatType)

/-! ## The circle -/

/-- The `k`-th cluster that is looked at from `scl` on. -/
def Layout.look (l : Layout) (scl : DWORD) (k : Nat) : DWORD :=
  BitVec.ofNat 32 (if scl.toNat + k < l.nFatent.toNat then scl.toNat + k
    else scl.toNat + k + 2 - l.nFatent.toNat)

/-- Where the search may begin. -/
def Layout.Start (l : Layout) (scl : DWORD) : Prop := 1 ≤ scl.toNat ∧ scl.toNat < l.nFatent.toNat

/-- What the search from `scl` on comes to. -/
inductive Layout.Found (l : Layout) (T : DWORD → DWORD) (scl : DWORD) : Except DWORD DWORD → Prop
  | free {k : Nat} (some_ : 1 ≤ k) (few : k ≤ l.nFatent.toNat - 2) (free : T (l.look scl k) = 0)
      (first : ∀ i, 1 ≤ i → i < k → T (l.look scl i) ≠ 0) : Found l T scl (.ok (l.look scl k))
  | full (none_ : ∀ c, l.Cluster c → T c ≠ 0) : Found l T scl (.error 0)
  | odd {c : DWORD} (cluster : l.Cluster c) (one : T c = 1) : Found l T scl (.error 1)

section
variable {faulty : Prop} {P : DWORD → Prop} {fs : FATFS} {l : Layout} {D L : Disk} {c scl : DWORD} {k : Nat}

theorem Layout.toNat_look (start : l.Start scl) (few : k ≤ l.nFatent.toNat - 2) :
    (l.look scl k).toNat = if scl.toNat + k < l.nFatent.toNat then scl.toNat + k
      else scl.toNat + k + 2 - l.nFatent.toNat := by
  have bound := l.nFatent.isLt
  obtain ⟨-, high⟩ := start
  unfold look
  rw [BitVec.toNat_ofNat, Nat.mod_eq_of_lt]
  split <;> omega

theorem Layout.cluster_iff (l : Layout) (c : DWORD) :
    l.Cluster c ↔ 2 ≤ c.toNat ∧ c.toNat < l.nFatent.toNat := Iff.rfl

theorem Layout.look_zero (start : l.Start scl) : l.look scl 0 = scl := by
  apply BitVec.eq_of_toNat_eq
  rw [Layout.toNat_look start (Nat.zero_le _), Nat.add_zero, if_pos start.2]

theorem Layout.cluster_look (start : l.Start scl) (some_ : 1 ≤ k) (few : k ≤ l.nFatent.toNat - 2) :
    l.Cluster (l.look scl k) := by
  obtain ⟨low, high⟩ := start
  rw [l.cluster_iff, Layout.toNat_look ⟨low, high⟩ few]
  split <;> omega

/-- Every cluster is on the circle. -/
theorem Layout.exists_look (start : l.Start scl) (cluster : l.Cluster c) :
    ∃ k, 1 ≤ k ∧ k ≤ l.nFatent.toNat - 2 ∧ l.look scl k = c := by
  obtain ⟨low, high⟩ := (l.cluster_iff c).1 cluster
  obtain ⟨first, last⟩ := id start
  by_cases behind : scl.toNat < c.toNat
  · refine ⟨c.toNat - scl.toNat, by omega, by omega, BitVec.eq_of_toNat_eq ?_⟩
    rw [Layout.toNat_look start (by omega), if_pos (by omega)]
    omega
  · refine ⟨l.nFatent.toNat - 2 + c.toNat - scl.toNat, by omega, by omega, BitVec.eq_of_toNat_eq ?_⟩
    rw [Layout.toNat_look start (by omega), if_neg (by omega)]
    omega

theorem Layout.all_looked (start : l.Start scl) {T : DWORD → DWORD}
    (seen : ∀ i, 1 ≤ i → i ≤ l.nFatent.toNat - 2 → T (l.look scl i) ≠ 0) (cluster : l.Cluster c) :
    T c ≠ 0 := by
  obtain ⟨k, some_, few, rfl⟩ := Layout.exists_look start cluster
  exact seen k some_ few

/-- The cluster after one on the circle. The circle is closed where the test finds the
first number behind the suggestion. -/
theorem Layout.look_succ (start : l.Start scl) (few : k ≤ l.nFatent.toNat - 2)
    (last : k = l.nFatent.toNat - 2 → scl.toNat = 1) :
    let ncl := l.look scl k + 1
    let around : Bool := l.nFatent ≤ ncl
    let ncl := if around then 2 else ncl
    if k = l.nFatent.toNat - 2 then (around = true ∧ scl < ncl)
    else ¬(around = true ∧ scl < ncl) ∧ ncl = l.look scl (k + 1) := by
  have here := Layout.toNat_look start few
  have bound := l.nFatent.isLt
  have some_ := l.some_
  obtain ⟨first, high⟩ := id start
  have next : (l.look scl k + 1).toNat = (l.look scl k).toNat + 1 := by
    rw [BitVec.toNat_add]
    simp
    rw [here]
    split <;> omega
  dsimp only
  split
  case isTrue all =>
    have one := last all
    rw [if_pos (by omega)] at here
    have around : l.nFatent ≤ l.look scl k + 1 := by
      rw [BitVec.le_def, next]
      omega
    simp only [around, decide_true, if_true, true_and]
    rw [BitVec.lt_def, one]
    decide
  case isFalse more =>
    have after := Layout.toNat_look start (k := k + 1) (by omega)
    have less : scl < 2 ↔ scl.toNat < 2 := by
      rw [BitVec.lt_def]
      rfl
    by_cases around : l.nFatent ≤ l.look scl k + 1
    · have at_ : l.nFatent.toNat ≤ (l.look scl k).toNat + 1 := next ▸ BitVec.le_def.1 around
      simp only [around, decide_true, if_true, true_and]
      constructor
      · rw [less]
        split at here <;> omega
      · apply BitVec.eq_of_toNat_eq
        rw [after]
        simp
        split at here <;> split <;> omega
    · have at_ : (l.look scl k).toNat + 1 < l.nFatent.toNat :=
        next ▸ BitVec.lt_def.1 (BitVec.not_le.1 around)
      simp only [around, decide_false, Bool.false_eq_true, if_false, false_and, not_false_eq_true,
        true_and]
      apply BitVec.eq_of_toNat_eq
      rw [next, after]
      split at here <;> split <;> omega

/-! ## The search -/

/-- Induction along the circle: what has been looked at is in use. -/
theorem twp_findFree (holds : Holds P fs D L) (start : fs.Start scl) (few : k ≤ fs.nFatent.toNat - 2)
    (last : k = fs.nFatent.toNat - 2 → scl.toNat = 1)
    (seen : ∀ i, 1 ≤ i → i ≤ k → fs.table L (fs.look scl i) ≠ 0) {turns : Nat}
    (enough : fs.nFatent.toNat ≤ turns + k) :
    (findFree scl turns fs (fs.look scl k)).twp (rules faulty) (fun r D' => Fetched fs r.2 ∧
      Holds P r.2 D' L ∧ (fs.Found (fs.table L) scl r.1 ∨ r.1 = .error 0xFFFFFFFF ∧ faulty)) D := by
  have some_ := fs.some_
  induction turns generalizing fs D k with
  | zero => omega
  | succ turns ih =>
    unfold findFree
    have next := Layout.look_succ start few last
    dsimp only at next ⊢
    split at next
    case isTrue all =>
      rw [if_pos next]
      refine ⟨.refl fs, holds, .inl (.full fun c cluster => ?_)⟩
      exact Layout.all_looked start (fun i low high => seen i low (by omega)) cluster
    case isFalse more =>
      obtain ⟨goes, at_⟩ := next
      have cluster := Layout.cluster_look start (k := k + 1) (by omega) (by omega)
      rw [if_neg goes, at_]
      apply twp_seq (twp_getFat holds _)
      rintro ⟨cs, fs'⟩ D' ⟨moved, holds', ⟨rfl, -⟩ | ⟨rfl, bad⟩⟩
      · dsimp only at moved holds' ⊢
        have layout := moved.layout
        by_cases free : fs.table L (fs.look scl (k + 1)) = 0
        · rw [if_pos free]
          refine ⟨moved, holds', .inl (.free (by omega) (by omega) free fun i low high => ?_)⟩
          exact seen i low (by omega)
        rw [if_neg free]
        by_cases one : fs.table L (fs.look scl (k + 1)) = 1
        · rw [if_pos (.inl one), one]
          exact ⟨moved, holds', .inl (.odd cluster one)⟩
        rw [if_neg (not_or.2 ⟨one, fs.table_ne L _⟩)]
        have seen' : ∀ i, 1 ≤ i → i ≤ k + 1 → fs.table L (fs.look scl i) ≠ 0 := by
          intro i low high
          by_cases here : i = k + 1
          · rw [here]
            exact free
          · exact seen i low (by omega)
        have place := Layout.toNat_look start (k := k + 1) (by omega)
        obtain ⟨first, inside⟩ := id start
        by_cases round : fs.look scl (k + 1) = scl
        · rw [if_pos round]
          refine ⟨moved, holds', .inl (.full fun c cluster => ?_)⟩
          have all : k + 1 = fs.nFatent.toNat - 2 := by
            rw [round] at place
            split at place <;> omega
          exact Layout.all_looked start (fun i low high => seen' i low (by omega)) cluster
        · rw [if_neg round, ← layout]
          have last' : k + 1 = fs.nFatent.toNat - 2 → scl.toNat = 1 := by
            intro all
            by_contra behind
            apply round
            apply BitVec.eq_of_toNat_eq
            rw [place]
            split <;> omega
          apply twp_mono (ih holds' (layout ▸ start) (by rw [layout]; omega) (layout ▸ last')
            (layout ▸ seen') (by rw [layout]; omega) (layout ▸ some_))
          rintro r D'' ⟨moved', holds'', found⟩
          exact ⟨moved.trans moved', holds'', layout ▸ found⟩
      · dsimp only at moved holds' ⊢
        rw [if_neg (by decide), if_pos (.inr rfl)]
        exact ⟨moved, holds', .inr ⟨rfl, bad⟩⟩

theorem twp_findFree_all (holds : Holds P fs D L) (start : fs.Start scl) :
    (findFree scl fs.nFatent.toNat fs scl).twp (rules faulty) (fun r D' => Fetched fs r.2 ∧
      Holds P r.2 D' L ∧ (fs.Found (fs.table L) scl r.1 ∨ r.1 = .error 0xFFFFFFFF ∧ faulty)) D := by
  have some_ := fs.some_
  have search : (findFree scl fs.nFatent.toNat fs (fs.look scl 0)).twp (rules faulty) _ D :=
    twp_findFree holds start (Nat.zero_le _) (by omega) (by omega) (Nat.le_refl _)
  rwa [Layout.look_zero start] at search

end

/-! ## The outcomes -/

/-- Where the search for a cluster behind `clst` begins, or for a new chain. -/
def FATFS.origin (fs : FATFS) (clst : DWORD) : DWORD :=
  if clst = 0 then if fs.lastClst = 0 ∨ fs.nFatent ≤ fs.lastClst then 1 else fs.lastClst else clst

/-- How `create_chain` counts a cluster that is free no more. -/
def Layout.drop (l : Layout) (freeClst : DWORD) : DWORD :=
  if freeClst < l.nFatent - 2 then freeClst - 1 else freeClst

/-- `ncl` is linked behind `clst`, if there is such a cluster. -/
def Layout.Joined (l : Layout) (clst ncl : DWORD) (L L' : Disk) : Prop :=
  if clst = 0 then L' = L else l.Put L L' clst ncl

/-- What an access that failed has left: nothing, a cluster that is marked and not linked, or
half of a 12-bit value. -/
inductive Layout.Marred (l : Layout) (clst ncl : DWORD) (L L' : Disk) : Prop
  | untouched (same : L' = L)
  | marked (put : l.Put L L' ncl 0xFFFFFFFF)
  | half (packed : l.fsType = .fat12) {v : DWORD} (put : l.Put L L' ncl v)
  | halfLink (packed : l.fsType = .fat12) (old : clst ≠ 0) {L₁ : Disk} {v : DWORD} (put : l.Put L L₁ ncl 0xFFFFFFFF)
      (link : l.Put L₁ L' clst v)

/-- What `create_chain` returns, and what it makes of the object and of the volume. -/
inductive Created (faulty : Prop) (fs : FATFS) (clst : DWORD) (L : Disk) :
    DWORD → FATFS → Disk → Prop
  | full {fs' : FATFS} (moved : Fetched fs fs') (none_ : ∀ c, fs.Cluster c → fs.table L c ≠ 0) :
      Created faulty fs clst L 0 fs' L
  | followed {fs' : FATFS} (moved : Fetched fs fs') (old : clst ≠ 0)
      (next : fs.Cluster (fs.table L clst)) : Created faulty fs clst L (fs.table L clst) fs' L
  | odd {fs' : FATFS} (moved : Fetched fs fs') (damage : clst ≠ 0 ∧ fs.table L clst < 2 ∨
      ∃ c, fs.Cluster c ∧ fs.table L c = 1) : Created faulty fs clst L 1 fs' L
  | made {fs' : FATFS} {L₁ L' : Disk} {ncl : DWORD} (layout : fs'.toLayout = fs.toLayout)
      (lastClst : fs'.lastClst = ncl) (freeClst : fs'.freeClst = fs.drop fs.freeClst)
      (fat : fs'.AtFat)
      (last : clst ≠ 0 → fs.Cluster clst ∧ fs.Last (fs.table L clst))
      (found : fs.Found (fs.table L) (fs.origin clst) (.ok ncl)) (put : fs.Put L L₁ ncl 0xFFFFFFFF)
      (joined : fs.Joined clst ncl L₁ L') : Created faulty fs clst L ncl fs' L'
  | failed {fs' : FATFS} {L' : Disk} {ncl : DWORD} (bad : faulty) (moved : Fetched fs fs')
      (cluster : fs.Cluster ncl) (free : fs.table L ncl = 0) (marred : fs.Marred clst ncl L L') :
      Created faulty fs clst L 0xFFFFFFFF fs' L'
  | lost {fs' : FATFS} (bad : faulty) (moved : Fetched fs fs') : Created faulty fs clst L 0xFFFFFFFF fs' L

section
variable {faulty : Prop} {P : DWORD → Prop} {fs : FATFS} {l : Layout} {D L : Disk} {clst ncl scl : DWORD}

theorem Layout.Found.free_ok {T : DWORD → DWORD} (start : l.Start scl)
    (found : l.Found T scl (.ok ncl)) : l.Cluster ncl ∧ T ncl = 0 := by
  cases found with
  | free some_ few free first => exact ⟨Layout.cluster_look start some_ few, free⟩

theorem FATFS.start_origin (fs : FATFS) (inside : clst ≠ 0 → fs.Cluster clst) :
    fs.Start (fs.origin clst) := by
  have some_ := fs.some_
  unfold origin
  split
  case isTrue =>
    split
    case isTrue => exact ⟨by decide, by simp; omega⟩
    case isFalse good =>
      rw [not_or, BitVec.not_le, BitVec.lt_def] at good
      refine ⟨Nat.pos_of_ne_zero fun zero => good.1 (BitVec.eq_of_toNat_eq zero), good.2⟩
  case isFalse old =>
    obtain ⟨low, high⟩ := (fs.cluster_iff clst).1 (inside old)
    exact ⟨by omega, high⟩

theorem Layout.table_out (l : Layout) (L : Disk) (out : ¬l.Cluster clst) : l.table L clst = 1 := by
  unfold Cluster at out
  rw [not_and_or, BitVec.not_le, BitVec.not_lt] at out
  exact if_pos out

theorem twp_suggested (holds : Holds P fs D L) (clst : DWORD) :
    (suggested fs clst).twp (rules faulty) (fun r D' => Fetched fs r.2 ∧ Holds P r.2 D' L ∧
      ((r.1 = .ok (fs.origin clst) ∧ (clst ≠ 0 → fs.Cluster clst ∧ fs.Last (fs.table L clst))) ∨
        (clst ≠ 0 ∧ (r.1 = .error 1 ∧ fs.table L clst < 2 ∨
          r.1 = .error (fs.table L clst) ∧ fs.Cluster (fs.table L clst))) ∨
        (r.1 = .error 0xFFFFFFFF ∧ faulty))) D := by
  unfold suggested
  split
  case isTrue new =>
    refine ⟨.refl fs, holds, .inl ⟨?_, fun old => absurd new old⟩⟩
    unfold FATFS.origin
    rw [if_pos new]
  case isFalse old =>
    apply twp_seq (twp_getFat holds clst)
    rintro ⟨cs, fs'⟩ D' ⟨moved, holds', ⟨rfl, -⟩ | ⟨rfl, bad⟩⟩
    · dsimp only at moved holds' ⊢
      have entries : fs'.nFatent = fs.nFatent := congrArg Layout.nFatent moved.layout
      split
      case isTrue free => exact ⟨moved, holds', .inr (.inl ⟨old, .inl ⟨rfl, free⟩⟩)⟩
      case isFalse used =>
        rw [if_neg (fs.table_ne L clst), entries]
        split
        case isTrue next =>
          exact ⟨moved, holds', .inr (.inl ⟨old, .inr ⟨rfl, BitVec.not_lt.1 used, next⟩⟩)⟩
        case isFalse ends =>
          refine ⟨moved, holds', .inl ⟨?_, fun _ => ⟨?_, BitVec.not_lt.1 ends⟩⟩⟩
          · unfold FATFS.origin
            rw [if_neg old]
          · by_contra out
            exact used (fs.table_out L out ▸ by decide)
    · dsimp only at moved holds' ⊢
      rw [if_neg (by decide), if_pos rfl]
      exact ⟨moved, holds', .inr (.inr ⟨rfl, bad⟩)⟩

theorem twp_linkCluster (holds : Holds P fs D L) (cluster : fs.Cluster ncl)
    (last : clst ≠ 0 → fs.Cluster clst) :
    (linkCluster fs clst ncl).twp (rules faulty) (fun r D' => ∃ L', Holds P r.2 D' L' ∧
      ((r.1 = ncl ∧ r.2.toLayout = fs.toLayout ∧ r.2.lastClst = ncl ∧
          r.2.freeClst = fs.drop fs.freeClst ∧ r.2.AtFat ∧
          ∃ L₁, fs.Put L L₁ ncl 0xFFFFFFFF ∧ fs.Joined clst ncl L₁ L') ∨
        (r.1 = 0xFFFFFFFF ∧ faulty ∧ Fetched fs r.2 ∧ fs.Marred clst ncl L L'))) D := by
  have inside {c : DWORD} (cluster : fs.Cluster c) (out : c < 2 ∨ fs.nFatent ≤ c) : False :=
    out.elim (BitVec.not_lt.2 cluster.1) (BitVec.not_le.2 cluster.2)
  unfold linkCluster
  apply twp_seq (twp_putFat holds ncl 0xFFFFFFFF)
  rintro ⟨res, fs₁⟩ D₁ ⟨moved₁, L₁, holds₁, ⟨rfl, fat, put⟩ | ⟨-, out, -⟩ | ⟨rfl, bad, half⟩⟩
  · dsimp only at moved₁ holds₁ ⊢
    have entries₁ : fs₁.nFatent = fs.nFatent := congrArg Layout.nFatent moved₁.layout
    by_cases new : clst = 0
    · rw [if_neg (fun both => both.2 new)]
      refine ⟨L₁, ⟨holds₁.own, holds₁.fat, holds₁.disk, holds₁.window⟩, .inl ⟨rfl, moved₁.layout, rfl, ?_, fat, L₁, put, ?_⟩⟩
      · dsimp only
        rw [moved₁.freeClst, entries₁]
        rfl
      · unfold Layout.Joined
        rw [if_pos new]
    · rw [if_pos ⟨rfl, new⟩]
      apply twp_seq (twp_putFat holds₁ clst ncl)
      rintro ⟨res, fs₂⟩ D₂ ⟨moved₂, L₂, holds₂, ⟨rfl, fat, link⟩ | ⟨-, out, -⟩ | ⟨rfl, bad, half⟩⟩
      · have moved := moved₁.trans moved₂
        dsimp only at holds₂ moved ⊢
        have entries₂ : fs₂.nFatent = fs.nFatent := congrArg Layout.nFatent moved.layout
        rw [if_pos rfl]
        refine ⟨L₂, ⟨holds₂.own, holds₂.fat, holds₂.disk, holds₂.window⟩, .inl ⟨rfl, moved.layout, rfl, ?_, fat, L₁, put, ?_⟩⟩
        · dsimp only
          rw [moved.freeClst, entries₂]
          rfl
        · unfold Layout.Joined
          rw [if_neg new]
          exact moved₁.layout ▸ link
      · rw [moved₁.layout] at out
        exact (inside (last new) out).elim
      · dsimp only at holds₂ ⊢
        rw [if_neg (by decide), if_pos rfl]
        refine ⟨L₂, holds₂, .inr ⟨rfl, bad, moved₁.trans moved₂, ?_⟩⟩
        rw [moved₁.layout] at half
        rcases half with rfl | ⟨packed, -, v, link⟩
        · exact .marked put
        · exact .halfLink packed new put link
  · exact (inside cluster out).elim
  · dsimp only at moved₁ holds₁ ⊢
    rw [if_neg (fun both => absurd both.1 (by decide))]
    refine ⟨L₁, holds₁, .inr ⟨rfl, bad, moved₁, ?_⟩⟩
    rcases half with rfl | ⟨packed, -, v, put⟩
    · exact .untouched rfl
    · exact .half packed put

theorem twp_createChain (holds : Holds P fs D L) (clst : DWORD) :
    (createChain fs clst).twp (rules faulty)
      (fun r D' => ∃ L', Holds P r.2 D' L' ∧ Created faulty fs clst L r.1 r.2 L') D := by
  unfold createChain
  apply twp_seq (twp_suggested holds clst)
  rintro ⟨start, fs₁⟩ D₁ ⟨moved₁, holds₁, ⟨rfl, last⟩ | ⟨old, ⟨rfl, small⟩ | ⟨rfl, next⟩⟩ | ⟨rfl, bad⟩⟩
  · dsimp only at moved₁ holds₁ ⊢
    have layout := moved₁.layout
    have begin := fs.start_origin fun old => (last old).1
    apply twp_seq (twp_findFree_all holds₁ (layout ▸ begin))
    rintro ⟨found, fs₂⟩ D₂ ⟨moved₂, holds₂, looked | ⟨rfl, bad⟩⟩
    · have moved := moved₁.trans moved₂
      dsimp only at moved holds₂ looked ⊢
      rw [layout] at looked
      cases looked with
      | @free k some_ few free first =>
        have cluster := Layout.cluster_look begin some_ few
        dsimp only
        apply twp_mono (twp_linkCluster holds₂ (moved.layout ▸ cluster)
          fun old => moved.layout ▸ (last old).1)
        rintro ⟨r, fs'⟩ D' ⟨L', holds', ⟨rfl, layout', lastClst, freeClst, fat, L₁, put, joined⟩ |
          ⟨rfl, bad, moved', marred⟩⟩
        · rw [moved.layout] at layout' put joined freeClst
          rw [moved.freeClst] at freeClst
          exact ⟨L', holds', .made layout' lastClst freeClst fat last (.free some_ few free first) put
            joined⟩
        · rw [moved.layout] at marred
          exact ⟨L', holds', .failed bad (moved.trans moved') cluster free marred⟩
      | full none_ => exact ⟨L, holds₂, .full moved none_⟩
      | odd cluster one => exact ⟨L, holds₂, .odd moved (.inr ⟨_, cluster, one⟩)⟩
    · exact ⟨L, holds₂, .lost bad (moved₁.trans moved₂)⟩
  · exact ⟨L, holds₁, .odd moved₁ (.inl ⟨old, small⟩)⟩
  · exact ⟨L, holds₁, .followed moved₁ old next⟩
  · exact ⟨L, holds₁, .lost bad moved₁⟩

end

end FatFsParticle.Fat
