import FatFsParticle.Fat.Changes

/-!
# Chains of file objects

`f_truncate` cuts the chain of an open file, `f_expand` makes a chain of neighbouring
clusters for an empty one. The search of `f_expand` goes around the table as that of
`create_chain` does, and goes on counting where it has come around, so the block that it
finds may lie at both ends of the table. Such a block cannot be linked.
-/

namespace FatFsParticle.Fat
open Interact Program Links
open Files (FRESULT faWrite faModified faDirty)
open Drives (FatType)
open Usage (Sector)

/-- What these functions use of a file object. -/
structure FIL where
  err : FRESULT
  flag : BYTE
  sclust : DWORD
  objsize : DWORD
  fptr : DWORD
  clust : DWORD
  sect : DWORD
  buf : Sector

/-! ## f_truncate -/

/-- The chain of `f_truncate`: all of it goes, or what is behind the current cluster. -/
def truncateChain (fs : FATFS) (fp : FIL) : Prog (FRESULT × FIL × FATFS) :=
  if fp.fptr = 0 then do
    let (res, fs) ← removeChain fs fp.sclust 0
    pure (res, { fp with sclust := 0 }, fs)
  else do
    let (ncl, fs) ← getFat fs fp.clust
    let res : FRESULT := if ncl = 1 then .intErr else if ncl = 0xFFFFFFFF then .diskErr else .ok
    if res = .ok ∧ ncl < fs.nFatent then do
      let (res, fs) ← removeChain fs ncl fp.clust
      pure (res, fp, fs)
    else pure (res, fp, fs)

/-- `f_truncate`, where `validate` has returned `res`. -/
def fTruncate (res : FRESULT) (fs : FATFS) (fp : FIL) : Prog (FRESULT × FIL × FATFS) :=
  if res ≠ .ok then pure (res, fp, fs)
  else if fp.err ≠ .ok then pure (fp.err, fp, fs)
  else if fp.flag &&& faWrite = 0 then pure (.denied, fp, fs)
  else if fp.fptr < fp.objsize then do
    let (res, fp, fs) ← truncateChain fs fp
    let fp := { fp with objsize := fp.fptr, flag := fp.flag ||| faModified }
    let (res, fp) ← (if res = .ok ∧ fp.flag &&& faDirty ≠ 0 then do
        let ok ← diskWrite fp.sect fp.buf
        pure (if ok then (.ok, { fp with flag := fp.flag &&& ~~~faDirty }) else (.diskErr, fp))
      else pure (res, fp))
    pure (res, if res ≠ .ok then { fp with err := res } else fp, fs)
  else pure (.ok, fp, fs)

/-! ## f_expand -/

/-- The search for `tcl` free neighbours: `ncl` of them lie in front of `clst`, from `scl`
on. -/
def findBlock (stcl tcl : DWORD) : Nat → FATFS → DWORD → DWORD → DWORD →
    Prog (Except FRESULT DWORD × FATFS)
  | 0, _, _, _, _ => .stuck
  | turns + 1, fs, scl, clst, ncl => do
    let (n, fs) ← getFat fs clst
    let clst := if fs.nFatent ≤ clst + 1 then 2 else clst + 1
    if n = 1 then pure (.error .intErr, fs)
    else if n = 0xFFFFFFFF then pure (.error .diskErr, fs)
    else if n = 0 then
      if ncl + 1 = tcl then pure (.ok scl, fs)
      else if clst = stcl then pure (.error .denied, fs)
      else findBlock stcl tcl turns fs scl clst (ncl + 1)
    else if clst = stcl then pure (.error .denied, fs)
    else findBlock stcl tcl turns fs clst clst 0

/-- The clusters from `clst` on are linked, `tcl` of them. -/
def linkBlock : Nat → FATFS → DWORD → DWORD → Prog (FRESULT × DWORD × FATFS)
  | 0, fs, _, lclst => pure (.ok, lclst, fs)
  | tcl + 1, fs, clst, lclst => do
    let (res, fs) ← putFat fs clst (if tcl = 0 then 0xFFFFFFFF else clst + 1)
    if res ≠ .ok then pure (res, lclst, fs) else linkBlock tcl fs (clst + 1) clst

/-- Clusters that `fsz` bytes take. -/
def clustersOf (fs : Layout) (fsz : DWORD) : DWORD :=
  let n := fs.csize.setWidth 32 * 512
  fsz / n + if fsz &&& (n - 1) ≠ 0 then 1 else 0

/-- `f_expand`, where `validate` has returned `res`. -/
def fExpand (res : FRESULT) (fs : FATFS) (fp : FIL) (fsz : DWORD) (opt : Bool) :
    Prog (FRESULT × FIL × FATFS) :=
  if res ≠ .ok then pure (res, fp, fs)
  else if fp.err ≠ .ok then pure (fp.err, fp, fs)
  else if fsz = 0 ∨ fp.objsize ≠ 0 ∨ fp.flag &&& faWrite = 0 then pure (.denied, fp, fs)
  else do
    let tcl := clustersOf fs.toLayout fsz
    let stcl := fs.lastClst
    let stcl := if stcl < 2 ∨ fs.nFatent ≤ stcl then 2 else stcl
    let (found, fs) ← findBlock stcl tcl fs.nFatent.toNat fs stcl stcl 0
    match found with
    | .error res => pure (res, fp, fs)
    | .ok scl =>
      if opt then do
        let (res, lclst, fs) ← linkBlock tcl.toNat fs scl 0
        if res = .ok then
          pure (res, { fp with sclust := scl, objsize := fsz, flag := fp.flag ||| faModified },
            { fs with lastClst := lclst })
        else pure (res, fp, fs)
      else pure (.ok, fp, fs)

/-! ## The search of f_expand -/

/-- The first `t` free clusters that are neighbours on the circle, which begins at `stcl`,
are at the place `k`. -/
structure Layout.FirstBlock (l : Layout) (T : DWORD → DWORD) (stcl : DWORD) (t k : Nat) : Prop where
  few : k + t ≤ l.nFatent.toNat - 2
  free : ∀ i < t, T (l.look stcl (k + i)) = 0
  first : ∀ k' < k, ∃ i < t, T (l.look stcl (k' + i)) ≠ 0

/-- What the search for `t` free neighbours from `stcl` on comes to. -/
inductive Layout.Block (l : Layout) (T : DWORD → DWORD) (stcl : DWORD) (t : Nat) :
    Except FRESULT DWORD → Prop
  | found {k : Nat} (first : l.FirstBlock T stcl t k) : Block l T stcl t (.ok (l.look stcl k))
  | full (none_ : ∀ k, k + t ≤ l.nFatent.toNat - 2 → ∃ i < t, T (l.look stcl (k + i)) ≠ 0) :
      Block l T stcl t (.error .denied)
  | odd {c : DWORD} (cluster : l.Cluster c) (one : T c = 1) : Block l T stcl t (.error .intErr)

section
variable {faulty : Prop} {P : DWORD → Prop} {fs fs' : FATFS} {l : Layout} {D L L' : Disk}
  {c stcl : DWORD} {j m t : Nat}

theorem Layout.Cluster.start (h : l.Cluster stcl) : l.Start stcl := by
  obtain ⟨low, high⟩ := (l.cluster_iff stcl).1 h
  exact ⟨by omega, high⟩

/-- The cluster after one on the circle, and after the last one the first. -/
theorem Layout.look_next (cluster : l.Cluster stcl) (inside : j < l.nFatent.toNat - 2) :
    (if l.nFatent ≤ l.look stcl j + 1 then 2 else l.look stcl j + 1) = l.look stcl (j + 1) := by
  have next := Layout.look_succ cluster.start (k := j) (by omega) (by omega)
  dsimp only at next
  rw [if_neg (by omega)] at next
  simpa only [decide_eq_true_eq] using next.2

theorem Layout.look_eq_iff (cluster : l.Cluster stcl) (some_ : 0 < j) (few : j ≤ l.nFatent.toNat - 2) :
    l.look stcl j = stcl ↔ j = l.nFatent.toNat - 2 := by
  obtain ⟨low, high⟩ := (l.cluster_iff stcl).1 cluster
  have value := Layout.toNat_look cluster.start few
  rw [← BitVec.toNat_inj, value]
  split <;> omega

/-- In front of the place `j` of the circle lie `m` free clusters, and no block that is
large enough. -/
structure Layout.Counted (l : Layout) (T : DWORD → DWORD) (stcl : DWORD) (t j m : Nat) : Prop where
  less : m < t
  within : m ≤ j
  free : ∀ i, j - m ≤ i → i < j → T (l.look stcl i) = 0
  none_ : ∀ k, k + t ≤ j → ∃ i < t, T (l.look stcl (k + i)) ≠ 0
  behind : m = j ∨ T (l.look stcl (j - m - 1)) ≠ 0

variable {T : DWORD → DWORD}

/-- No block that is large enough ends where the count is too low. -/
theorem Layout.Counted.none_succ (h : l.Counted T stcl t j m) (more : m + 1 ≠ t) :
    ∀ k, k + t ≤ j + 1 → ∃ i < t, T (l.look stcl (k + i)) ≠ 0 := by
  intro k few
  have less := h.less
  have within := h.within
  by_cases before : k + t ≤ j
  · exact h.none_ k before
  · rcases h.behind with all | used
    · omega
    · refine ⟨j - m - 1 - k, by omega, ?_⟩
      rwa [show k + (j - m - 1 - k) = j - m - 1 by omega]

theorem Layout.Counted.free_succ (h : l.Counted T stcl t j m) (free : T (l.look stcl j) = 0)
    (more : m + 1 ≠ t) : l.Counted T stcl t (j + 1) (m + 1) where
  less := by
    have less := h.less
    omega
  within := Nat.succ_le_succ h.within
  free i low high := by
    by_cases here : i = j
    · rw [here]
      exact free
    · exact h.free i (by omega) (by omega)
  none_ := h.none_succ more
  behind := by
    rcases h.behind with all | used
    · exact .inl (by omega)
    · exact .inr (by rwa [Nat.add_sub_add_right])

theorem Layout.Counted.used_succ (h : l.Counted T stcl t j m) (used : T (l.look stcl j) ≠ 0) :
    l.Counted T stcl t (j + 1) 0 where
  less := Nat.zero_lt_of_lt h.less
  within := Nat.zero_le _
  free i low high := by omega
  none_ k few := by
    have less := h.less
    by_cases before : k + t ≤ j
    · exact h.none_ k before
    · refine ⟨j - k, by omega, ?_⟩
      rwa [show k + (j - k) = j by omega]
  behind := .inr (by simpa using used)

theorem toNat_succ {n : DWORD} {m : Nat} (small : n.toNat = m) (less : m < t) (few : t < 2 ^ 32) :
    (n + 1).toNat = m + 1 := by
  rw [BitVec.toNat_add, small]
  simp
  omega

/-- Induction along the circle. -/
theorem twp_findBlock (holds : Holds P fs D L) (cluster : fs.Cluster stcl) {tcl ncl : DWORD}
    (counted : fs.Counted (fs.table L) stcl tcl.toNat j ncl.toNat) (inside : j < fs.nFatent.toNat - 2)
    {turns : Nat} (enough : fs.nFatent.toNat ≤ turns + j + 2) :
    (findBlock stcl tcl turns fs (fs.look stcl (j - ncl.toNat)) (fs.look stcl j) ncl).twp (rules faulty)
      (fun r D' => Fetched fs r.2 ∧ Holds P r.2 D' L ∧
        (fs.Block (fs.table L) stcl tcl.toNat r.1 ∨ r.1 = .error .diskErr ∧ faulty)) D := by
  induction turns generalizing fs D j ncl with
  | zero => omega
  | succ turns ih =>
    unfold findBlock
    apply twp_seq (twp_getFat holds _)
    rintro ⟨n, fs'⟩ D' ⟨moved, holds', ⟨rfl, -⟩ | ⟨rfl, bad⟩⟩
    · dsimp only at moved holds' ⊢
      have layout := moved.layout
      have less := counted.less
      have entries : fs'.nFatent = fs.nFatent := congrArg Layout.nFatent layout
      have next : (if fs'.nFatent ≤ fs.look stcl j + 1 then 2 else fs.look stcl j + 1) =
          fs.look stcl (j + 1) := by
        rw [entries]
        exact Layout.look_next cluster inside
      have around := Layout.look_eq_iff cluster (j := j + 1) (by omega) (by omega)
      simp only [next, around]
      by_cases one : fs.table L (fs.look stcl j) = 1
      · rw [if_pos one]
        have inner : fs.Cluster (fs.look stcl j) := by
          by_cases first : j = 0
          · rw [first, Layout.look_zero cluster.start]
            exact cluster
          · exact Layout.cluster_look cluster.start (by omega) (by omega)
        exact ⟨moved, holds', .inl (.odd inner one)⟩
      rw [if_neg one, if_neg (fs.table_ne L _)]
      by_cases free : fs.table L (fs.look stcl j) = 0
      · rw [if_pos free]
        have sum := toNat_succ (n := ncl) rfl less tcl.isLt
        by_cases enough_ : ncl + 1 = tcl
        · rw [if_pos enough_]
          have size : ncl.toNat + 1 = tcl.toNat := by rw [← sum, enough_]
          have within := counted.within
          refine ⟨moved, holds', .inl (.found ⟨by omega, ?_, ?_⟩)⟩
          · intro i low
            by_cases last : i = ncl.toNat
            · rw [last, Nat.sub_add_cancel within]
              exact free
            · exact counted.free _ (by omega) (by omega)
          · intro k before
            exact counted.none_ k (by omega)
        · rw [if_neg enough_]
          have more : ncl.toNat + 1 ≠ tcl.toNat := by
            rw [← sum]
            exact fun same => enough_ (BitVec.eq_of_toNat_eq same)
          split
          case isTrue all =>
            refine ⟨moved, holds', .inl (.full fun k few => ?_)⟩
            exact counted.none_succ more k (by omega)
          case isFalse goes =>
            have counted' := counted.free_succ free more
            rw [← sum] at counted'
            have rest := ih holds' (layout ▸ cluster) (layout ▸ counted') (by rw [layout]; omega)
              (by rw [layout]; omega)
            rw [sum, Nat.add_sub_add_right, layout] at rest
            apply twp_mono rest
            rintro r D'' ⟨moved', holds'', block⟩
            exact ⟨moved.trans moved', holds'', block⟩
      · rw [if_neg free]
        have counted' : fs.Counted (fs.table L) stcl tcl.toNat (j + 1) (0 : DWORD).toNat :=
          counted.used_succ free
        split
        case isTrue all =>
          refine ⟨moved, holds', .inl (.full fun k few => ?_)⟩
          exact counted'.none_ k (by omega)
        case isFalse goes =>
          have rest := ih holds' (layout ▸ cluster) (layout ▸ counted')
            (by rw [layout]; omega) (by rw [layout]; omega)
          rw [layout] at rest
          apply twp_mono rest
          rintro r D'' ⟨moved', holds'', block⟩
          exact ⟨moved.trans moved', holds'', block⟩
    · dsimp only at moved holds' ⊢
      rw [if_neg (by decide), if_pos rfl]
      exact ⟨moved, holds', .inr ⟨rfl, bad⟩⟩

theorem twp_findBlock_all (holds : Holds P fs D L) (cluster : fs.Cluster stcl) {tcl : DWORD}
    (size : tcl.toNat ≠ 0) :
    (findBlock stcl tcl fs.nFatent.toNat fs stcl stcl 0).twp (rules faulty)
      (fun r D' => Fetched fs r.2 ∧ Holds P r.2 D' L ∧
        (fs.Block (fs.table L) stcl tcl.toNat r.1 ∨ r.1 = .error .diskErr ∧ faulty)) D := by
  have some_ := fs.some_
  have counted : fs.Counted (fs.table L) stcl tcl.toNat 0 (0 : DWORD).toNat :=
    ⟨Nat.pos_of_ne_zero size, Nat.le_refl _, by omega, by omega, .inl rfl⟩
  have search : (findBlock stcl tcl fs.nFatent.toNat fs _ _ 0).twp (rules faulty) _ D :=
    twp_findBlock holds cluster counted (by omega) (by omega)
  rwa [Nat.zero_sub, Layout.look_zero cluster.start] at search

/-! ## The links of f_expand -/

/-- `t` neighbours from `c` on. -/
def block : DWORD → Nat → List DWORD
  | _, 0 => []
  | c, t + 1 => c :: block (c + 1) t

theorem mem_block {x : DWORD} (few : c.toNat + t < 2 ^ 32) :
    x ∈ block c t ↔ c.toNat ≤ x.toNat ∧ x.toNat < c.toNat + t := by
  induction t generalizing c with
  | zero =>
    simp [block]
  | succ t ih =>
    have next : (c + 1).toNat = c.toNat + 1 := by
      rw [BitVec.toNat_add]
      simp
      omega
    rw [block, List.mem_cons, ih (by omega), next, ← BitVec.toNat_inj]
    omega

/-- What `linkBlock` does to the table. -/
structure LinkedBlock (faulty : Prop) (fs fs' : FATFS) (L L' : Disk) (c : DWORD) (t : Nat)
    (lclst : DWORD) (res : FRESULT) (last : DWORD) : Prop where
  moved : Fetched fs fs'
  out : ∀ x, x ∉ block c t → fs.table L' x = fs.table L x
  rest : fs.SameRest L L'
  result : (res = .ok ∧ c.toNat + t ≤ fs.nFatent.toNat ∧ Linked (fs.table L') fs.Last (block c t) ∧
      last = (block c t).getLastD lclst) ∨
    (res = .intErr ∧ fs.nFatent.toNat < c.toNat + t ∧
      ∀ x ∈ block c t, fs.Cluster x → fs.table L' x ≠ 0) ∨
    (res = .diskErr ∧ faulty)

/-- Induction along the block, of which each cluster is linked to the next. -/
theorem twp_linkBlock (holds : Holds P fs D L) (low : 2 ≤ c.toNat) (high : c.toNat ≤ fs.nFatent.toNat)
    (few : c.toNat + t < 2 ^ 32) (lclst : DWORD) :
    (linkBlock t fs c lclst).twp (rules faulty) (fun r D' => ∃ L', Holds P r.2.2 D' L' ∧
      LinkedBlock faulty fs r.2.2 L L' c t lclst r.1 r.2.1) D := by
  induction t generalizing fs D L c lclst with
  | zero => exact ⟨L, holds, .refl fs, fun _ _ => rfl, fun _ _ => rfl, .inl ⟨rfl, high, trivial, rfl⟩⟩
  | succ t ih =>
    have next : (c + 1).toNat = c.toNat + 1 := by
      rw [BitVec.toNat_add]
      simp
      omega
    have members {x : DWORD} := mem_block (x := x) few
    have behind {x : DWORD} := mem_block (c := c + 1) (t := t) (x := x) (by omega)
    unfold linkBlock
    apply twp_seq (twp_putFat holds c _)
    rintro ⟨res, fs₁⟩ D₁ ⟨moved, L₁, holds₁, ⟨rfl, fat, put⟩ | ⟨rfl, out, rfl⟩ | ⟨rfl, bad, half⟩⟩
    · dsimp only at moved holds₁ ⊢
      have layout := moved.layout
      have cluster : fs.Cluster c := by
        by_contra outside
        have one := fs.table_out L₁ outside
        rw [put.same] at one
        rw [fs.cluster_iff] at outside
        have here : c.toNat = fs.nFatent.toNat := by omega
        have room := limit_lt fs.fsType
        have limit_ := fs.few
        have value := congrArg BitVec.toNat one
        rw [toNat_and_mask] at value
        split at value
        · have big := Layout.last_mask fs.toLayout
          unfold Layout.Last at big
          rw [BitVec.le_def, toNat_and_mask] at big
          have some_ := fs.some_
          simp at value big
          omega
        · rw [next, Nat.mod_eq_of_lt (by omega)] at value
          simp at value
          omega
      obtain ⟨-, inside⟩ := (fs.cluster_iff c).1 cluster
      rw [if_neg (by decide)]
      apply twp_mono (ih holds₁ (c := c + 1) (by omega) (by rw [layout]; omega) (by omega) c)
      rintro r D' ⟨L', holds', linked⟩
      have out' := linked.out
      have rest' := linked.rest
      have result := linked.result
      rw [layout, next] at result
      rw [layout] at out' rest'
      have kept : fs.table L' c = fs.table L₁ c := out' c fun mem => by
        have := behind.1 mem
        omega
      refine ⟨L', holds', moved.trans linked.moved, ?_, fun s away => (rest' s away).trans
        (put.rest s away), ?_⟩
      · intro x out
        simp only [block, List.mem_cons, not_or] at out
        rw [out' x out.2, put.ne out.1]
      · rcases result with ⟨ok, fits, chain, last⟩ | ⟨failed, wide, used⟩ | failed
        · refine .inl ⟨ok, by omega, ?_, ?_⟩
          · cases t with
            | zero =>
              rw [block, block, linked_singleton, kept, put.same]
              exact fs.last_mask
            | succ t =>
              have follows : fs.Cluster (c + 1) := by
                rw [fs.cluster_iff, next]
                omega
              rw [block, block, linked_cons_cons, kept, put.same, if_neg (by omega), follows.and_mask]
              exact ⟨rfl, chain⟩
          · rw [last]
            cases t <;> rfl
        · refine .inr (.inl ⟨failed, by omega, ?_⟩)
          intro x mem inner
          rcases List.mem_cons.1 mem with rfl | mem
          · rw [kept, put.same]
            split
            · exact Layout.Last.ne_zero fs.last_mask
            · intro zero
              have value := congrArg BitVec.toNat zero
              have room := limit_lt fs.fsType
              have limit_ := fs.few
              rw [toNat_and_mask, next, Nat.mod_eq_of_lt (by omega)] at value
              simp at value
          · exact used x mem inner
        · exact .inr (.inr failed)
    · dsimp only at moved holds₁ ⊢
      rw [if_pos (by decide)]
      have edge : c.toNat = fs.nFatent.toNat := by
        rw [BitVec.lt_def, BitVec.le_def] at out
        have two : (2 : DWORD).toNat = 2 := rfl
        omega
      refine ⟨L₁, holds₁, moved, fun _ _ => rfl, fun _ _ => rfl, .inr (.inl ⟨rfl, by omega, ?_⟩)⟩
      intro x mem inner
      have place := members.1 mem
      have inside := ((fs.cluster_iff x).1 inner).2
      omega
    · dsimp only at moved holds₁ ⊢
      rw [if_pos (by decide)]
      refine ⟨L₁, holds₁, moved, ?_, ?_, .inr (.inr ⟨rfl, bad⟩)⟩
      · intro x out
        rcases half with rfl | ⟨-, -, v, put⟩
        · rfl
        · exact put.ne fun here => out (by simp [here, block])
      · rcases half with rfl | ⟨-, -, v, put⟩
        · exact fun s _ => rfl
        · exact put.rest

/-- Neighbours in the table are neighbours on the circle. -/
theorem Layout.look_add (cluster : l.Cluster stcl) (few : j + t ≤ l.nFatent.toNat - 2)
    (inner : l.Cluster c) (low : (l.look stcl j).toNat ≤ c.toNat)
    (high : c.toNat < (l.look stcl j).toNat + t) : ∃ i < t, l.look stcl (j + i) = c := by
  obtain ⟨first, last⟩ := (l.cluster_iff stcl).1 cluster
  obtain ⟨-, inside⟩ := (l.cluster_iff c).1 inner
  have here := Layout.toNat_look cluster.start (k := j) (by omega)
  refine ⟨c.toNat - (l.look stcl j).toNat, by omega, BitVec.eq_of_toNat_eq ?_⟩
  rw [Layout.toNat_look cluster.start (by omega)]
  split at here <;> split <;> omega

theorem Layout.toNat_bcs (l : Layout) : ∃ k ≤ 16, (l.csize.setWidth 32 * 512 : DWORD).toNat = 2 ^ k ∧
    l.csize.toNat * 512 = 2 ^ k := by
  obtain ⟨k, small, power⟩ := l.power
  have whole : l.csize.toNat * 512 = 2 ^ (k + 9) := by rw [power, Nat.pow_add]
  have bound : 2 ^ (k + 9) ≤ 2 ^ 16 := Nat.pow_le_pow_right (by decide) (by omega)
  refine ⟨k + 9, by omega, ?_, whole⟩
  rw [BitVec.toNat_mul, BitVec.toNat_setWidth_of_le (by decide), ← whole]
  apply Nat.mod_eq_of_lt
  simp
  omega

theorem div_round (x : Nat) {n : Nat} (some_ : 0 < n) :
    (x + n - 1) / n = x / n + if x % n ≠ 0 then 1 else 0 := by
  rw [Nat.add_sub_assoc some_, Nat.add_div some_, Nat.div_eq_of_lt (by omega : n - 1 < n),
    Nat.mod_eq_of_lt (by omega : n - 1 < n)]
  have less := Nat.mod_lt x some_
  split <;> split <;> omega

/-- As many clusters as the bytes fill, the last one perhaps in part. -/
theorem toNat_clustersOf (l : Layout) (fsz : DWORD) :
    (clustersOf l fsz).toNat = (fsz.toNat + l.csize.toNat * 512 - 1) / (l.csize.toNat * 512) := by
  obtain ⟨k, small, value, whole⟩ := l.toNat_bcs
  have bound := fsz.isLt
  have some_ : 0 < 2 ^ k := Nat.two_pow_pos k
  have rest : (fsz &&& (l.csize.setWidth 32 * 512 - 1)).toNat = fsz.toNat % 2 ^ k := by
    rw [BitVec.toNat_and, BitVec.toNat_sub_of_le, value, ← Nat.and_two_pow_sub_one_eq_mod]
    · rfl
    · rw [BitVec.le_def, value]
      exact some_
  have part : fsz &&& (l.csize.setWidth 32 * 512 - 1) ≠ 0 ↔ fsz.toNat % 2 ^ k ≠ 0 := by
    rw [ne_eq, ← BitVec.toNat_inj, rest]
    rfl
  unfold clustersOf
  dsimp only
  simp only [part]
  rw [whole, BitVec.toNat_add, BitVec.toNat_udiv, value, div_round _ some_]
  generalize 2 ^ k = n at some_ ⊢
  have div := Nat.div_add_mod fsz.toNat n
  have quotient : fsz.toNat / n ≤ n * (fsz.toNat / n) := Nat.le_mul_of_pos_left _ some_
  split
  · apply Nat.mod_eq_of_lt
    simp
    omega
  · apply Nat.mod_eq_of_lt
    simp
    omega

theorem clustersOf_ne {l : Layout} {fsz : DWORD} (some_ : fsz ≠ 0) : (clustersOf l fsz).toNat ≠ 0 := by
  have some_ : fsz.toNat ≠ 0 := fun zero => some_ (BitVec.eq_of_toNat_eq zero)
  have unit := l.unit
  rw [toNat_clustersOf]
  exact (Nat.div_pos (by omega) (by omega)).ne'

/-- Where `f_expand` begins to look. -/
def FATFS.blockOrigin (fs : FATFS) : DWORD :=
  if fs.lastClst < 2 ∨ fs.nFatent ≤ fs.lastClst then 2 else fs.lastClst

theorem FATFS.cluster_blockOrigin (fs : FATFS) : fs.Cluster fs.blockOrigin := by
  have some_ := fs.some_
  unfold blockOrigin
  split
  case isTrue =>
    rw [fs.cluster_iff]
    exact ⟨by decide, some_⟩
  case isFalse good =>
    rw [not_or, BitVec.not_lt, BitVec.not_le] at good
    exact good

/-- `f_expand` does not return at once. -/
structure FIL.Expandable (fp : FIL) (res : FRESULT) (fsz : DWORD) : Prop where
  valid : res = .ok
  err : fp.err = .ok
  some_ : fsz ≠ 0
  empty : fp.objsize = 0
  write : fp.flag &&& faWrite ≠ 0

/-- What `f_expand` returns, and what it makes of the file object and of the volume. -/
inductive Expanded (faulty : Prop) (valid : FRESULT) (fs : FATFS) (fp : FIL) (fsz : DWORD) (opt : Bool)
    (L : Disk) : FRESULT → FIL → FATFS → Disk → Prop
  | refused {res : FRESULT} {fs' : FATFS} (moved : Fetched fs fs') (failed : res ≠ .ok)
      (reason : ¬fp.Expandable valid fsz ∨
        (res = .denied ∧
          ∀ k, ¬fs.FirstBlock (fs.table L) fs.blockOrigin (clustersOf fs.toLayout fsz).toNat k) ∨
        (∃ c, fs.Cluster c ∧ fs.table L c = 1) ∨ faulty) :
      Expanded faulty valid fs fp fsz opt L res fp fs' L
  | found {fs' : FATFS} (moved : Fetched fs fs') (only : opt = false) :
      Expanded faulty valid fs fp fsz opt L .ok fp fs' L
  | made {k : Nat} {fs' : FATFS} {L' : Disk} (wanted : opt = true) (ready : fp.Expandable valid fsz)
      (first : fs.FirstBlock (fs.table L) fs.blockOrigin (clustersOf fs.toLayout fsz).toNat k)
      (fits : (fs.look fs.blockOrigin k).toNat + (clustersOf fs.toLayout fsz).toNat ≤ fs.nFatent.toNat)
      (change : Rechained fs fs' L L' []
        (block (fs.look fs.blockOrigin k) (clustersOf fs.toLayout fsz).toNat))
      (lossless : fs.Lossless L L' []
        (block (fs.look fs.blockOrigin k) (clustersOf fs.toLayout fsz).toNat))
      (freeClst : fs'.freeClst = fs.freeClst) :
      Expanded faulty valid fs fp fsz opt L .ok
        { fp with sclust := fs.look fs.blockOrigin k, objsize := fsz, flag := fp.flag ||| faModified }
        fs' L'
  | torn {k : Nat} {fs' : FATFS} {L' : Disk} (wanted : opt = true) (moved : Fetched fs fs')
      (first : fs.FirstBlock (fs.table L) fs.blockOrigin (clustersOf fs.toLayout fsz).toNat k)
      (wide : fs.nFatent.toNat < (fs.look fs.blockOrigin k).toNat + (clustersOf fs.toLayout fsz).toNat)
      (out : ∀ c, ¬(fs.Cluster c ∧ fs.look fs.blockOrigin k ≤ c) → fs.table L' c = fs.table L c)
      (lost : ∀ c, fs.Cluster c → fs.look fs.blockOrigin k ≤ c → fs.table L c = 0 ∧ fs.table L' c ≠ 0)
      (rest : fs.SameRest L L') : Expanded faulty valid fs fp fsz opt L .intErr fp fs' L'
  | broken {fs' : FATFS} {L' : Disk} (bad : faulty) (moved : Fetched fs fs')
      (out : ∀ c, fs.table L c ≠ 0 → fs.table L' c = fs.table L c) (rest : fs.SameRest L L') :
      Expanded faulty valid fs fp fsz opt L .diskErr fp fs' L'

theorem twp_fExpand (holds : Holds P fs D L) (valid : FRESULT) (fp : FIL) (fsz : DWORD) (opt : Bool) :
    (fExpand valid fs fp fsz opt).twp (rules faulty) (fun r D' => ∃ L', Holds P r.2.2 D' L' ∧
      Expanded faulty valid fs fp fsz opt L r.1 r.2.1 r.2.2 L') D := by
  have refused {res : FRESULT} (failed : res ≠ .ok) (early : ¬fp.Expandable valid fsz) :
      ∃ L', Holds P fs D L' ∧ Expanded faulty valid fs fp fsz opt L res fp fs L' :=
    ⟨L, holds, .refused (.refl fs) failed (.inl early)⟩
  unfold fExpand
  split
  case isTrue failed => exact refused failed fun ready => failed ready.valid
  split
  case isTrue failed => exact refused failed fun ready => failed ready.err
  split
  case isTrue early =>
    refine refused (show FRESULT.denied ≠ .ok by decide) fun ready => ?_
    rcases early with none_ | some_ | locked
    · exact ready.some_ none_
    · exact some_ ready.empty
    · exact ready.write locked
  case isFalse valid_ err_ args =>
    rw [not_or, not_or, not_not] at args
    have ready : fp.Expandable valid fsz :=
      ⟨not_not.1 valid_, not_not.1 err_, args.1, args.2.1, args.2.2⟩
    have cluster := fs.cluster_blockOrigin
    have size := clustersOf_ne (l := fs.toLayout) args.1
    apply twp_seq (twp_findBlock_all holds cluster size)
    rintro ⟨found, fs₁⟩ D₁ ⟨moved, holds₁, block_ | ⟨rfl, bad⟩⟩
    · dsimp only at moved holds₁ block_ ⊢
      cases block_ with
      | full none_ =>
        refine ⟨L, holds₁, .refused moved (show FRESULT.denied ≠ .ok by decide)
          (.inr (.inl ⟨rfl, fun k first => ?_⟩))⟩
        obtain ⟨i, less, used⟩ := none_ k first.few
        exact used (first.free i less)
      | odd inner one =>
        exact ⟨L, holds₁, .refused moved (show FRESULT.intErr ≠ .ok by decide)
          (.inr (.inr (.inl ⟨_, inner, one⟩)))⟩
      | @found k first =>
        have layout := moved.layout
        cases opt with
        | false => exact ⟨L, holds₁, .found moved rfl⟩
        | true =>
          have few := first.few
          have place := Layout.toNat_look cluster.start (k := k) (by omega)
          obtain ⟨low, high⟩ := (fs.cluster_iff _).1 cluster
          have inner : 2 ≤ (fs.look fs.blockOrigin k).toNat ∧
              (fs.look fs.blockOrigin k).toNat < fs.nFatent.toNat := by
            rw [place]
            split <;> omega
          have bound := limit_lt fs.fsType
          have entries := fs.few
          have pow : 2 ^ bits fs.fsType ≤ 2 ^ 28 := by cases fs.fsType <;> decide
          have small : (fs.look fs.blockOrigin k).toNat + (clustersOf fs.toLayout fsz).toNat < 2 ^ 32 := by
            omega
          have free {x : DWORD} (inside : fs.Cluster x)
              (mem : x ∈ block (fs.look fs.blockOrigin k) (clustersOf fs.toLayout fsz).toNat) :
              fs.table L x = 0 := by
            rw [mem_block small] at mem
            obtain ⟨i, less, rfl⟩ := Layout.look_add cluster few inside mem.1 mem.2
            exact first.free i less
          apply twp_seq (twp_linkBlock holds₁ inner.1 (by rw [layout]; omega) small 0)
          rintro ⟨res, lclst, fs₂⟩ D₂ ⟨L₂, holds₂, linked⟩
          have moved₂ := moved.trans linked.moved
          have out := linked.out
          have rest := linked.rest
          have result := linked.result
          rw [layout] at out rest result
          have same (x : DWORD) (used : fs.table L x ≠ 0) : fs.table L₂ x = fs.table L x := by
            by_cases inside : fs.Cluster x
            · exact out x fun mem => used (free inside mem)
            · rw [fs.table_out L inside, fs.table_out L₂ inside]
          rcases result with ⟨rfl, fits, chain, -⟩ | ⟨rfl, wide, used⟩ | ⟨rfl, bad⟩
          · have clusters : ∀ x ∈ block (fs.look fs.blockOrigin k) (clustersOf fs.toLayout fsz).toNat,
                fs.Cluster x := by
              intro x mem
              rw [mem_block small] at mem
              rw [fs.cluster_iff]
              omega
            have busy := Layout.used chain clusters
            refine ⟨L₂, ⟨holds₂.own, holds₂.fat, holds₂.disk, holds₂.window⟩,
              .made rfl ready first fits ?_ ?_ moved₂.freeClst⟩
            · refine ⟨moved₂.layout, chain, clusters, fun x mem => .inr (free (clusters x mem) mem),
                fun x _ => same x, rest, moved₂.window.imp id fun at_ => ⟨at_, fun x zero => ?_⟩⟩
              by_contra some_
              exact some_ (same x some_ ▸ zero)
            · intro x _
              constructor
              · intro zero
                have away : x ∉ block (fs.look fs.blockOrigin k) (clustersOf fs.toLayout fsz).toNat :=
                  fun mem => busy x mem zero
                exact ⟨away, .inl (out x away ▸ zero)⟩
              · rintro ⟨away, zero | old⟩
                · rw [out x away, zero]
                · simp at old
          · refine ⟨L₂, holds₂, .torn rfl moved₂ first wide ?_ ?_ rest⟩
            · intro x away
              by_cases inside : fs.Cluster x
              · apply out x
                rw [mem_block small]
                exact fun mem => away ⟨inside, mem.1⟩
              · rw [fs.table_out L inside, fs.table_out L₂ inside]
            · intro x inside behind
              have mem : x ∈ block (fs.look fs.blockOrigin k) (clustersOf fs.toLayout fsz).toNat := by
                rw [mem_block small]
                have last := ((fs.cluster_iff x).1 inside).2
                exact ⟨behind, by omega⟩
              exact ⟨free inside mem, used x mem inside⟩
          · exact ⟨L₂, holds₂, .broken bad moved₂ same rest⟩
    · dsimp only at moved holds₁ ⊢
      exact ⟨L, holds₁, .refused moved (show FRESULT.diskErr ≠ .ok by decide)
        (.inr (.inr (.inr bad)))⟩

/-! ## What f_truncate does -/

/-- The chain of a file object, and its current cluster in it. -/
structure FIL.On (fp : FIL) (old : List DWORD) : Prop where
  sclust : fp.sclust = old.headD 0
  clust : fp.fptr ≠ 0 → fp.clust ∈ old

/-- `old` has lost what is behind a cluster, or all of it. -/
structure Shortened (faulty : Prop) (fs fs' : FATFS) (L L' : Disk) (old new : List DWORD) : Prop where
  change : Rechained fs fs' L L' old new
  front : new <+: old
  lossless : ¬faulty → fs.Lossless L L' old new
  freeClst : ¬faulty → fs'.freeClst = bump^[old.length - new.length] fs.freeClst

theorem Fetched.shortened {old : List DWORD} (moved : Fetched fs fs')
    (linked : Linked (fs.table L) fs.Last old) (inside : ∀ c ∈ old, fs.Cluster c) :
    Shortened faulty fs fs' L L old old where
  change := moved.rechained linked inside
  front := List.prefix_refl old
  lossless _ := Layout.lossless_same linked inside
  freeClst _ := by rw [Nat.sub_self]; exact moved.freeClst

theorem Removed.ok {res : FRESULT} {m : List DWORD} (removed : Removed faulty m fs fs' L L' res)
    (sound : ¬faulty) : res = .ok ∧ fs'.freeClst = bump^[m.length] fs.freeClst := by
  rcases removed.result with ⟨ok, -, count⟩ | ⟨-, bad⟩
  · exact ⟨ok, count⟩
  · exact absurd bad sound

variable {fp : FIL}

theorem twp_truncateChain (holds : Holds P fs D L) (whole : fs.fsType = .fat12 → ¬faulty)
    {old : List DWORD} (on : fp.On old) (linked : Linked (fs.table L) fs.Last old)
    (inside : ∀ c ∈ old, fs.Cluster c) :
    (truncateChain fs fp).twp (rules faulty) (fun r D' => ∃ L' new, Holds P r.2.2 D' L' ∧
      Shortened faulty fs r.2.2 L L' old new ∧ r.2.1.sclust = new.headD 0 ∧
      r.2.1.sect = fp.sect) D := by
  have once := linked.nodup fun c mem => (inside c mem).not_last
  unfold truncateChain
  split
  case isTrue top =>
    cases old with
    | nil =>
      have none_ : fp.sclust = 0 := on.sclust
      rw [none_, removeChain, if_pos (.inl (by decide))]
      exact ⟨L, [], holds, (Fetched.refl fs).shortened linked inside, rfl, rfl⟩
    | cons c m =>
      have first : fp.sclust = c := on.sclust
      rw [first]
      apply twp_seq (twp_removeChain holds linked once inside fun other => absurd rfl other)
      rintro ⟨res, fs'⟩ D' ⟨L', holds', ⟨L₁, ended, -, removed⟩ | ⟨other, -⟩⟩
      · obtain rfl : L₁ = L := ended
        refine ⟨L', [], holds', ⟨removed.rechained, List.nil_prefix, fun sound => ?_, fun sound => ?_⟩,
          rfl, rfl⟩
        · exact removed.lossless (removed.ok sound).1
        · exact (removed.ok sound).2
      · exact absurd rfl other
  case isFalse later =>
    have mem := on.clust later
    obtain ⟨l, m, rfl⟩ := List.append_of_mem mem
    have cluster := inside _ mem
    apply twp_seq (twp_getFat holds fp.clust)
    rintro ⟨ncl, fs₁⟩ D₁ ⟨moved, holds₁, ⟨rfl, at_⟩ | ⟨rfl, bad⟩⟩
    · dsimp only at moved holds₁ at_ ⊢
      have layout := moved.layout
      have entries : fs₁.nFatent = fs.nFatent := congrArg Layout.nFatent layout
      have stay : ∃ L' new, Holds P fs₁ D₁ L' ∧ Shortened faulty fs fs₁ L L' (l ++ fp.clust :: m) new ∧
          fp.sclust = new.headD 0 ∧ fp.sect = fp.sect :=
        ⟨L, _, holds₁, moved.shortened linked inside, on.sclust, rfl⟩
      cases m with
      | nil =>
        have ends : fs.Last (fs.table L fp.clust) := Linked.last linked
        obtain ⟨-, other, high⟩ := ends.link
        rw [if_neg other, if_neg (fs.table_ne L _), if_neg fun both => high (entries ▸ both.2)]
        exact stay
      | cons b m =>
        have next : fs.table L fp.clust = b := linked.next_of_append
        obtain ⟨-, other, low⟩ := (inside b (by simp)).link next
        rw [if_neg other, if_neg (fs.table_ne L _), if_pos ⟨rfl, entries ▸ low⟩, next]
        have behind : Linked (fs₁.table L) fs₁.Last (b :: m) := layout ▸ (Linked.of_append linked).tail
        have once' : (b :: m).Nodup := (List.nodup_append.1 once).2.1.tail
        have clusters : ∀ x ∈ b :: m, fs₁.Cluster x := by
          rw [layout]
          exact fun x mem => inside x (by simp at mem ⊢; tauto)
        have apart : fp.clust ∉ b :: m := (List.nodup_cons.1 (List.nodup_append.1 once).2.1).1
        apply twp_seq (twp_removeChain holds₁ behind once' clusters fun _ =>
          ⟨layout ▸ cluster, apart⟩)
        rintro ⟨res, fs₂⟩ D₂ ⟨L₂, holds₂, ⟨L₁, ended, fat, removed⟩ | ⟨-, moved', -, bad, uncut⟩⟩
        · dsimp only at holds₂ fat removed ⊢
          rw [Layout.Ended, if_neg cluster.ne_zero, layout] at ended
          have removed' : Removed faulty (b :: m) fs fs₂ L₁ L₂ res := by
            have out := removed.out
            have rest := removed.rest
            have result := removed.result
            rw [layout] at out rest result
            rw [moved.freeClst] at result
            have fat' := fat cluster.ne_zero
            exact ⟨removed.layout.trans layout, removed.lastClst.trans moved.lastClst, out, rest,
              .inl fat', result⟩
          have start : fp.sclust = (l ++ [fp.clust]).headD 0 := by
            rw [on.sclust]
            cases l <;> rfl
          have change := Removed.cut ended removed' (fat cluster.ne_zero) linked once inside
          refine ⟨L₂, l ++ [fp.clust], holds₂, ⟨change, ⟨b :: m, by simp⟩, fun sound => ?_,
            fun sound => ?_⟩, start, rfl⟩
          · exact Removed.lossless_cut ended removed' (removed'.ok sound).1 linked once inside
          · have lengths : (l ++ fp.clust :: b :: m).length - (l ++ [fp.clust]).length =
                (b :: m).length := by
              simp
              omega
            rw [lengths]
            exact (removed'.ok sound).2
        · dsimp only at moved' holds₂ ⊢
          rw [layout] at uncut
          rcases uncut with rfl | ⟨packed, -⟩
          · exact ⟨L₂, _, holds₂, (moved.trans moved').shortened linked inside, on.sclust, rfl⟩
          · exact absurd bad (whole packed)
    · dsimp only at moved holds₁ ⊢
      have failed : (if (0xFFFFFFFF : DWORD) = 1 then FRESULT.intErr
          else if (0xFFFFFFFF : DWORD) = 0xFFFFFFFF then .diskErr else .ok) = .diskErr := by decide
      rw [failed, if_neg fun both => absurd both.1 (by decide)]
      exact ⟨L, _, holds₁, moved.shortened linked inside, on.sclust, rfl⟩

theorem twp_fTruncate (holds : Holds P fs D L) (whole : fs.fsType = .fat12 → ¬faulty) (valid : FRESULT)
    (data : ¬P fp.sect) {old : List DWORD} (on : fp.On old) (linked : Linked (fs.table L) fs.Last old)
    (inside : ∀ c ∈ old, fs.Cluster c) :
    (fTruncate valid fs fp).twp (rules faulty) (fun r D' => ∃ L' new, Holds P r.2.2 D' L' ∧
      Shortened faulty fs r.2.2 L L' old new ∧ r.2.1.sclust = new.headD 0) D := by
  have refused : ∃ L' new, Holds P fs D L' ∧ Shortened faulty fs fs L L' old new ∧
      fp.sclust = new.headD 0 :=
    ⟨L, old, holds, (Fetched.refl fs).shortened linked inside, on.sclust⟩
  unfold fTruncate
  split
  case isTrue => exact refused
  split
  case isTrue => exact refused
  split
  case isTrue => exact refused
  split
  case isFalse => exact refused
  apply twp_seq (twp_truncateChain holds whole on linked inside)
  rintro ⟨res, fp', fs'⟩ D' ⟨L', new, holds', shorter, start, sect⟩
  dsimp only at holds' shorter start sect ⊢
  split
  · rw [twp_bind, twp_bind]
    apply twp_mono (twp_direct holds' (sect ▸ data) _)
    intro ok D'' holds''
    cases ok <;> exact ⟨L', new, holds'', shorter, start⟩
  · rw [twp_bind, twp_pure]
    split <;> exact ⟨L', new, holds', shorter, start⟩

end

end FatFsParticle.Fat
