import FatFsParticle.Dirs.Places

/-!
# Walking along a table

`dir_sdi` comes to the entry of an offset, `dir_next` from each entry to the one behind it.
A table on a chain grows by a cluster of zeros where it is told to stretch. A cluster that
is linked and can not be filled with zeros stays linked.
-/

namespace FatFsParticle.Dirs
open Interact Program Fat Links
open Files (FRESULT)
open Drives (FatType)
open Usage (Sector)

/-- The volume of the layout `l` holds `L` behind the reserved sectors. -/
structure Shown (l : Layout) (fs : FATFS) (D L : Disk) : Prop where
  layout : fs.toLayout = l
  holds : Holds l.Own fs D L

section
variable {faulty : Prop} {l : Layout} {fs : FATFS} {D L : Disk} {m : List DWORD} {dp dp' : DIR} {n : Nat}
  {c s sclust : DWORD}

theorem twp_window (shown : Shown l fs D L) (own : l.Own s) :
    (moveWindow fs s).twp (rules faulty) (fun r D' => Shown l r.2 D' L ∧
      (r.1 = .ok ∧ r.2.winsect = s ∧ r.2.win = L s ∨ r.1 = .diskErr ∧ faulty)) D := by
  apply twp_mono (twp_moveWindow shown.holds s)
  rintro r D' ⟨moved, holds, ⟨ok, at_, win⟩ | ⟨failed, bad, -⟩⟩
  · exact ⟨⟨moved.layout.trans shown.layout, holds⟩, .inl ⟨ok, at_, win own⟩⟩
  · exact ⟨⟨moved.layout.trans shown.layout, holds⟩, .inr ⟨failed, bad⟩⟩

theorem twp_entry (shown : Shown l fs D L) (c : DWORD) :
    (getFat fs c).twp (rules faulty) (fun r D' => Shown l r.2 D' L ∧
      (r.1 = l.table L c ∨ r.1 = 0xFFFFFFFF ∧ faulty)) D := by
  apply twp_mono (twp_getFat shown.holds c)
  rintro r D' ⟨moved, holds, ⟨value, -⟩ | failed⟩
  · exact ⟨⟨moved.layout.trans shown.layout, holds⟩, .inl (shown.layout ▸ value)⟩
  · exact ⟨⟨moved.layout.trans shown.layout, holds⟩, .inr failed⟩

/-! ## Zeros -/

/-- `n` sectors from `s` on are filled with zeros. -/
def blanked (s : DWORD) (n : Nat) (L : Disk) : Disk :=
  fun t => if s.toNat ≤ t.toNat ∧ t.toNat < s.toNat + n then fun _ => 0 else L t

theorem blanked_zero (s : DWORD) (L : Disk) : blanked s 0 L = L := by
  funext t
  exact if_neg (by omega)

theorem blanked_succ (fits : s.toNat + 1 < 2 ^ 32) (n : Nat) (L : Disk) :
    blanked (s + 1) n (Function.update L s fun _ => 0) = blanked s (n + 1) L := by
  have next : (s + 1).toNat = s.toNat + 1 := by
    rw [BitVec.toNat_add]
    exact Nat.mod_eq_of_lt fits
  funext t
  unfold blanked
  rw [next, Function.update_apply]
  by_cases here : t = s
  · subst here
    rw [if_neg (by omega), if_pos rfl, if_pos (by omega)]
  · have away : t.toNat ≠ s.toNat := fun same => here (BitVec.eq_of_toNat_eq same)
    rw [if_neg here]
    by_cases inside : s.toNat + 1 ≤ t.toNat ∧ t.toNat < s.toNat + 1 + n
    · rw [if_pos inside, if_pos (by omega)]
    · rw [if_neg inside, if_neg (by omega)]

/-- Everything is on the disk, whatever the window shows. -/
structure Flushed (l : Layout) (fs : FATFS) (D L : Disk) : Prop where
  layout : fs.toLayout = l
  clean : fs.wflag = false
  disk : ∀ s, l.Own s → D s = L s

theorem Shown.flushed (shown : Shown l fs D L) (clean : fs.wflag = false) : Flushed l fs D L where
  layout := shown.layout
  clean := clean
  disk s own := shown.holds.disk s own fun at_ => by
    rw [clean] at at_
    exact Bool.false_ne_true at_.1

/-- The window becomes what is in its sector. -/
theorem Flushed.shown (flushed : Flushed l fs D L) (win : l.Own fs.winsect → fs.win = L fs.winsect) :
    Shown l fs D L where
  layout := flushed.layout
  holds :=
    { own := fun _ own => flushed.layout ▸ own
      fat := fun _ fat => .inl (flushed.layout ▸ fat)
      disk := fun s own _ => flushed.disk s own
      window := win }

theorem Flushed.dirty (flushed : Flushed l fs D L) :
    Shown l { fs with wflag := true } D (Function.update L fs.winsect fs.win) where
  layout := flushed.layout
  holds :=
    { own := fun s own => flushed.layout ▸ own
      fat := fun s fat => .inl (flushed.layout ▸ fat)
      disk := fun s own away => by
        rw [Function.update_of_ne fun here => away ⟨rfl, here⟩]
        exact flushed.disk s own
      window := fun _ => by
        dsimp only
        rw [Function.update_self] }

theorem twp_zeroLoop (flushed : Flushed l fs D L) (zero : fs.win = fun _ => 0)
    (fits : fs.winsect.toNat + n < 2 ^ 32) :
    (zeroLoop n fs).twp (rules faulty) (fun r D' => if r.1 then
        Flushed l r.2 D' (blanked fs.winsect n L) ∧ (r.2.win = fun _ => 0) ∧
          r.2.winsect = fs.winsect + BitVec.ofNat 32 n
      else faulty ∧ ∃ L', Shown l r.2 D' L') D := by
  induction n generalizing fs D L with
  | zero =>
    refine ⟨?_, zero, ?_⟩
    · rw [blanked_zero]
      exact flushed
    · simp
  | succ n ih =>
    unfold zeroLoop
    have dirty := flushed.dirty
    apply twp_seq (twp_syncWindow dirty.holds)
    rintro ⟨res, fs'⟩ D' ⟨moved, holds, at_, win, ⟨rfl, clean⟩ | ⟨rfl, bad⟩⟩
    · dsimp only at moved holds at_ win clean ⊢
      rw [if_neg (by decide)]
      have layout := moved.layout.trans flushed.layout
      have next : (fs'.winsect + 1).toNat = fs.winsect.toNat + 1 := by
        rw [at_, BitVec.toNat_add]
        exact Nat.mod_eq_of_lt (by simp; omega)
      have flushed' : Flushed l { fs' with winsect := fs'.winsect + 1 } D'
          (Function.update L fs.winsect fun _ => 0) := by
        have shown : Shown l fs' D' (Function.update L fs.winsect fs.win) := ⟨layout, holds⟩
        rw [zero] at shown
        exact ⟨layout, clean, (shown.flushed clean).disk⟩
      apply twp_mono (ih flushed' (win.trans zero) (by dsimp only; omega))
      rintro ⟨ok, fs''⟩ D'' done
      cases ok with
      | false => exact done
      | true =>
        dsimp only at done ⊢
        rw [at_, blanked_succ (by omega)] at done
        refine ⟨done.1, done.2.1, done.2.2.trans ?_⟩
        rw [BitVec.add_assoc]
        congr 1
        apply BitVec.eq_of_toNat_eq
        simp [Nat.add_comm]
    · dsimp only at moved holds ⊢
      rw [if_pos (by decide)]
      exact ⟨bad, _, moved.layout.trans flushed.layout, holds⟩

theorem twp_cleanCluster (shown : Shown l fs D L) (cluster : l.Cluster c) :
    (cleanCluster fs c).twp (rules faulty) (fun r D' => if r.1 then
        Shown l r.2 D' (blanked (clust2sect l c) l.csize.toNat L)
      else faulty ∧ ∃ L', Shown l r.2 D' L') D := by
  obtain ⟨value, room⟩ := toNat_clust2sect cluster
  have unit := l.unit
  unfold cleanCluster
  apply twp_seq (twp_syncWindow shown.holds)
  rintro ⟨res, fs'⟩ D' ⟨moved, holds, -, -, ⟨rfl, clean⟩ | ⟨rfl, bad⟩⟩
  · dsimp only at moved holds clean ⊢
    rw [if_neg (by decide)]
    have layout := moved.layout.trans shown.layout
    have shown' : Shown l fs' D' L := ⟨layout, holds⟩
    have flushed : Flushed l { fs' with win := fun _ => 0, winsect := clust2sect fs'.toLayout c } D' L :=
      ⟨layout, clean, (shown'.flushed clean).disk⟩
    have fits : (clust2sect fs'.toLayout c).toNat + fs'.csize.toNat < 2 ^ 32 := by
      rw [layout]
      omega
    apply twp_seq (twp_zeroLoop flushed rfl fits)
    rintro ⟨ok, fs''⟩ D'' done
    cases ok with
    | false => exact done
    | true =>
      obtain ⟨flushed', win, at_⟩ := done
      dsimp only at flushed' win at_ ⊢
      rw [layout] at flushed' at_
      have back : fs''.winsect - BitVec.ofNat 32 fs'.csize.toNat = clust2sect l c := by
        rw [at_, layout, BitVec.add_sub_cancel]
      have flushed'' : Flushed l { fs'' with winsect := clust2sect l c } D''
          (blanked (clust2sect l c) l.csize.toNat L) :=
        ⟨flushed'.layout, flushed'.clean, flushed'.disk⟩
      rw [if_neg (by decide), back]
      refine flushed''.shown fun _ => ?_
      dsimp only
      rw [win]
      exact (if_pos (by omega)).symm
  · dsimp only at moved holds ⊢
    rw [if_pos (by decide)]
    exact ⟨bad, L, moved.layout.trans shown.layout, holds⟩

/-! ## A cluster more -/

/-- An entry of zeros. -/
abbrev blank : Fin 32 → BYTE := fun _ => 0

/-- The table has the cluster `c` more, which is filled with zeros. -/
structure Grown (l : Layout) (L L' : Disk) (sclust : DWORD) (m : List DWORD) (c : DWORD) : Prop where
  laid : Laid l L' sclust (m ++ [c])
  slots : slots l L' (m ++ [c]) = slots l L m ++ List.replicate (size l (m ++ [c]) - size l m) blank
  more : size l m < size l (m ++ [c])
  free : l.Cluster c ∧ l.table L c = 0

theorem Laid.stretch (laid : Laid l L sclust m) {k : List DWORD} {a : DWORD} (is : m = k ++ [a])
    {L₁ L₂ : Disk} (cluster : l.Cluster c) (free : l.table L c = 0) (put : l.Put L L₁ c 0xFFFFFFFF)
    (link : l.Put L₁ L₂ a c) : Laid l L₂ sclust (m ++ [c]) := by
  have table : l.table L₂ =
      Function.update (Function.update (l.table L) c (0xFFFFFFFF &&& mask l.fsType)) a c := by
    rw [link.table, put.table, cluster.and_mask]
  have new : c ∉ m := fun mem => Layout.used laid.linked laid.inside c mem free
  have linked := laid.linked
  have once := laid.nodup
  subst is
  constructor
  · exact laid.root
  · rw [laid.start]
    cases k <;> rfl
  · exact fun none_ => absurd none_ (by simp)
  · rw [table, List.append_assoc]
    exact linked.stretch once l.last_mask new
  · intro x mem
    rcases List.mem_append.1 mem with mem | mem
    · exact laid.inside x mem
    · rw [List.mem_singleton.1 mem]
      exact cluster

theorem Laid.blanked (laid : Laid l L sclust (m ++ [c])) :
    Laid l (blanked (clust2sect l c) l.csize.toNat L) sclust (m ++ [c]) := by
  obtain ⟨value, -⟩ := toNat_clust2sect (laid.inside c (by simp))
  have after := l.after
  have fat := fat_behind l
  have same : l.table (Dirs.blanked (clust2sect l c) l.csize.toNat L) = l.table L := by
    apply l.table_congr
    intro s inFat
    unfold Layout.InFat at inFat
    exact if_neg (by omega)
  exact ⟨laid.root, laid.start, laid.static, same ▸ laid.linked, laid.inside⟩

theorem width_append (some_ : m ≠ []) : width l (m ++ [c]) = width l m + l.csize.toNat := by
  unfold width
  rw [if_neg some_, if_neg (by simp), List.length_append, Nat.add_mul]
  simp

theorem Laid.grown (laid : Laid l L sclust m) {k : List DWORD} {a : DWORD} (is : m = k ++ [a])
    (room : size l m < entries) {L₁ L₂ : Disk} (cluster : l.Cluster c) (free : l.table L c = 0)
    (put : l.Put L L₁ c 0xFFFFFFFF) (link : l.Put L₁ L₂ a c) :
    Grown l L (Dirs.blanked (clust2sect l c) l.csize.toNat L₂) sclust m c := by
  have laid' := (laid.stretch is cluster free put link).blanked
  have some_ : m ≠ [] := by simp [is]
  have unit := l.unit
  have wide := width_append (l := l) (c := c) some_
  have uncut : size l m = width l m * 16 := by
    unfold size at room ⊢
    omega
  have more : size l m < size l (m ++ [c]) := by
    rw [uncut] at room ⊢
    unfold size
    rw [wide]
    omega
  refine ⟨laid', ?_, more, cluster, free⟩
  have new (i : Nat) (less : i < l.csize.toNat) :
      sectorAt l (m ++ [c]) (width l m + i) = clust2sect l c + BitVec.ofNat 32 i := by
    have index : (width l m + i) / l.csize.toNat = m.length ∧ (width l m + i) % l.csize.toNat = i := by
      unfold width
      rw [if_neg some_, Nat.add_comm, Nat.add_mul_div_right _ _ unit, Nat.div_eq_of_lt less,
        Nat.add_mul_mod_self_right, Nat.mod_eq_of_lt less, Nat.zero_add]
      exact ⟨rfl, rfl⟩
    unfold sectorAt
    rw [if_neg (by simp), index.1, index.2, List.getD_eq_getElem _ _ (by simp)]
    simp
  obtain ⟨value, fits⟩ := toNat_clust2sect cluster
  apply List.ext_getElem
  · simp
    omega
  intro n less less'
  rw [length_slots] at less
  have sector := width_of_size less
  by_cases old : n < size l m
  · rw [List.getElem_append_left (by simpa using old)]
    have inside := width_of_size old
    simp only [Dirs.slots, List.getElem_map, List.getElem_range]
    rw [sectorAt_append some_ inside]
    have away : ¬((clust2sect l c).toNat ≤ (sectorAt l m (n / 16)).toNat ∧
        (sectorAt l m (n / 16)).toNat < (clust2sect l c).toNat + l.csize.toNat) := by
      rintro ⟨low, high⟩
      have there := new ((sectorAt l m (n / 16)).toNat - (clust2sect l c).toNat) (by omega)
      have same : sectorAt l (m ++ [c])
          (width l m + ((sectorAt l m (n / 16)).toNat - (clust2sect l c).toNat)) =
            sectorAt l (m ++ [c]) (n / 16) := by
        rw [there, sectorAt_append some_ inside]
        apply BitVec.eq_of_toNat_eq
        rw [BitVec.toNat_add, BitVec.toNat_ofNat]
        omega
      have index := laid'.sectorAt_inj (by omega) (by omega) same
      omega
    have rest : L₂ (sectorAt l m (n / 16)) = L (sectorAt l m (n / 16)) := by
      have out := laid.out inside
      have behind : (sectorAt l m (n / 16)).toNat < l.fatbase.toNat ∨
          l.fatbase.toNat + l.fsize.toNat ≤ (sectorAt l m (n / 16)).toNat := by
        unfold Layout.InFat at out
        omega
      rw [link.rest _ behind, put.rest _ behind]
    have kept : Dirs.blanked (clust2sect l c) l.csize.toNat L₂ (sectorAt l m (n / 16)) =
        L (sectorAt l m (n / 16)) := (if_neg away).trans rest
    rw [kept]
  · rw [List.getElem_append_right (by simpa using old), List.getElem_replicate]
    simp only [Dirs.slots, List.getElem_map, List.getElem_range]
    obtain ⟨i, small, is⟩ : ∃ i < l.csize.toNat, n / 16 = width l m + i :=
      ⟨n / 16 - width l m, by omega, by omega⟩
    rw [is, new i small]
    have zero : Dirs.blanked (clust2sect l c) l.csize.toNat L₂ (clust2sect l c + BitVec.ofNat 32 i) =
        fun _ => 0 := by
      have place : (clust2sect l c + BitVec.ofNat 32 i).toNat = (clust2sect l c).toNat + i := by
        rw [BitVec.toNat_add, BitVec.toNat_ofNat]
        omega
      exact if_pos (by omega)
    rw [zero]
    rfl

/-! ## dir_next -/

/-- The object but its place. -/
structure Kept (dp dp' : DIR) : Prop where
  sclust : dp'.sclust = dp.sclust
  attr : dp'.attr = dp.attr
  fn : dp'.fn = dp.fn

theorem Kept.refl (dp : DIR) : Kept dp dp := ⟨rfl, rfl, rfl⟩

/-- What `dir_next` comes to from the entry `n`, and what the volume holds then. Behind the
last entry that a table can have the object stays where it is. -/
inductive Walked (faulty : Prop) (l : Layout) (L : Disk) (sclust : DWORD) (m : List DWORD) (n : Nat)
    (stretch : Bool) : FRESULT → DIR → Disk → Prop
  | next {dp' : DIR} (at_ : At l m dp' (n + 1)) : Walked faulty l L sclust m n stretch .ok dp' L
  | last {dp' : DIR} (ends : n + 1 = size l m) (why : stretch = false ∨ m = [] ∨ size l m = entries)
      (left : if size l m = entries then At l m dp' n else dp'.sect = 0) :
      Walked faulty l L sclust m n stretch .noFile dp' L
  | grown {dp' : DIR} {L' : Disk} {c : DWORD} (told : stretch = true) (ends : n + 1 = size l m)
      (grown : Grown l L L' sclust m c) (at_ : At l (m ++ [c]) dp' (n + 1)) :
      Walked faulty l L sclust m n stretch .ok dp' L'
  | denied {dp' : DIR} (told : stretch = true) (ends : n + 1 = size l m)
      (none_ : ∀ c, l.Cluster c → l.table L c ≠ 0) : Walked faulty l L sclust m n stretch .denied dp' L
  | odd {dp' : DIR} {x : DWORD} (told : stretch = true) (ends : n + 1 = size l m) (cluster : l.Cluster x)
      (one : l.table L x = 1) : Walked faulty l L sclust m n stretch .intErr dp' L
  | failed {dp' : DIR} {L' : Disk} (bad : faulty) (same : stretch = true ∨ L' = L) :
      Walked faulty l L sclust m n stretch .diskErr dp' L'

theorem twp_chain (shown : Shown l fs D L) (cluster : l.Cluster c) (last : l.Last (l.table L c)) :
    (createChain fs c).twp (rules faulty) (fun r D' => ∃ L', Shown l r.2 D' L' ∧
      ((r.1 = 0 ∧ L' = L ∧ ∀ x, l.Cluster x → l.table L x ≠ 0) ∨
        (r.1 = 1 ∧ L' = L ∧ ∃ x, l.Cluster x ∧ l.table L x = 1) ∨
        (r.1 = 0xFFFFFFFF ∧ faulty) ∨
        (l.Cluster r.1 ∧ l.table L r.1 = 0 ∧ ∃ L₁, l.Put L L₁ r.1 0xFFFFFFFF ∧ l.Put L₁ L' c r.1))) D := by
  obtain rfl := shown.layout
  have old := cluster.ne_zero
  apply twp_mono (twp_createChain shown.holds c)
  rintro ⟨r, fs'⟩ D' ⟨L', holds, created⟩
  dsimp only at holds ⊢
  cases created with
  | full moved none_ => exact ⟨L, ⟨moved.layout, holds⟩, .inl ⟨rfl, rfl, none_⟩⟩
  | followed moved _ next => exact absurd last next.not_last
  | odd moved damage =>
    refine ⟨L, ⟨moved.layout, holds⟩, .inr (.inl ⟨rfl, rfl, ?_⟩)⟩
    rcases damage with ⟨-, small⟩ | odd
    · have some_ := fs.some_
      have high : fs.nFatent.toNat ≤ (fs.table L c).toNat := BitVec.le_def.1 last
      rw [BitVec.lt_def] at small
      have two : (2 : DWORD).toNat = 2 := rfl
      omega
    · exact odd
  | made layout lastClst freeClst fat last' found put joined =>
    have start := fs.start_origin fun old => (last' old).1
    obtain ⟨cluster', free⟩ := found.free_ok start
    unfold Layout.Joined at joined
    rw [if_neg old] at joined
    exact ⟨L', ⟨layout, holds⟩, .inr (.inr (.inr ⟨cluster', free, _, put, joined⟩))⟩
  | failed bad moved cluster' free marred =>
    exact ⟨L', ⟨moved.layout, holds⟩, .inr (.inr (.inl ⟨rfl, bad⟩))⟩
  | lost bad moved => exact ⟨L, ⟨moved.layout, holds⟩, .inr (.inr (.inl ⟨rfl, bad⟩))⟩

/-- Where the last sector of a cluster is in the chain. -/
theorem cluster_ends (some_ : m ≠ []) (room : n + 1 < entries)
    (first : (n / 16 + 1) % l.csize.toNat = 0) (sector : (n + 1) / 16 = n / 16 + 1) :
    (n + 1) / 16 / l.csize.toNat = n / 16 / l.csize.toNat + 1 ∧
      (n + 1 < size l m ↔ n / 16 / l.csize.toNat + 1 < m.length) := by
  have unit := l.unit
  have whole := Nat.div_add_mod (n / 16) l.csize.toNat
  obtain ⟨j, multiple⟩ := Nat.dvd_of_mod_eq_zero first
  have index : n / 16 / l.csize.toNat + 1 = j := by
    have pos : 0 < j := by
      rcases Nat.eq_zero_or_pos j with rfl | pos
      · omega
      · exact pos
    obtain ⟨i, rfl⟩ : ∃ i, j = i + 1 := ⟨j - 1, by omega⟩
    rw [Nat.mul_add, Nat.mul_one] at multiple
    have value : n / 16 = l.csize.toNat * i + (l.csize.toNat - 1) := by omega
    rw [value, Nat.mul_add_div unit, Nat.div_eq_of_lt (by omega), Nat.add_zero]
  rw [sector, multiple, Nat.mul_div_cancel_left _ unit, index]
  refine ⟨rfl, ?_⟩
  unfold size width
  rw [if_neg some_]
  have less : n / 16 + 1 < m.length * l.csize.toNat ↔ j < m.length := by
    rw [multiple, Nat.mul_comm]
    exact Nat.mul_lt_mul_right unit
  rw [← less]
  omega

/-- From the last sector of a cluster. -/
theorem twp_nextCluster (shown : Shown l fs D L) (laid : Laid l L sclust m) (some_ : m ≠ [])
    (inside : n < size l m) (room : n + 1 < entries) (first : (n / 16 + 1) % l.csize.toNat = 0)
    (sector : (n + 1) / 16 = n / 16 + 1) (at_ : dp.clust = m.getD (n / 16 / l.csize.toNat) 0)
    (stretch : Bool) :
    (nextCluster fs dp stretch).twp (rules faulty) (fun r D' => ∃ L', Shown l r.2 D' L' ∧
      match r.1 with
      | .error (res, dp') => Kept dp dp' ∧ Walked faulty l L sclust m n stretch res dp' L' ∧ res ≠ .ok
      | .ok c => (n + 1 < size l m ∧ L' = L ∧ c = m.getD ((n + 1) / 16 / l.csize.toNat) 0 ∧ l.Cluster c) ∨
          (stretch = true ∧ n + 1 = size l m ∧ Grown l L L' sclust m c)) D := by
  obtain ⟨index, more_iff⟩ := cluster_ends some_ room first sector
  obtain ⟨there, is⟩ := getD_mem some_ (width_of_size inside)
  have cluster := laid.inside _ (List.getElem_mem there)
  rw [is] at at_
  unfold nextCluster
  rw [at_]
  apply twp_seq (twp_entry shown _)
  rintro ⟨clst, fs₁⟩ D₁ ⟨shown₁, rfl | ⟨rfl, bad⟩⟩
  · dsimp only at shown₁ ⊢
    rw [if_neg (c := l.table L m[n / 16 / l.csize.toNat] = 0xFFFFFFFF) (l.table_ne L _), shown₁.layout]
    by_cases more : n / 16 / l.csize.toNat + 1 < m.length
    · have next := laid.linked.next_getElem more
      have cluster' := laid.inside _ (List.getElem_mem more)
      have low : ¬m[n / 16 / l.csize.toNat + 1] ≤ 1 := by
        have two := BitVec.le_def.1 cluster'.1
        rw [BitVec.le_def]
        exact fun small => absurd (Nat.le_trans two small) (by decide)
      rw [next, if_neg low, if_neg (BitVec.not_le.2 cluster'.2)]
      refine ⟨L, shown₁, .inl ⟨more_iff.2 more, rfl, ?_, cluster'⟩⟩
      rw [index, List.getD_eq_getElem _ _ more]
    · have last : n / 16 / l.csize.toNat + 1 = m.length := by omega
      have stop := laid.linked.last_getElem last
      obtain ⟨zero, one, above⟩ := Layout.Last.link stop
      have ends : n + 1 = size l m := by
        have not_more : ¬n + 1 < size l m := fun less => more (more_iff.1 less)
        omega
      have low : ¬l.table L m[n / 16 / l.csize.toNat] ≤ 1 := by
        rw [BitVec.le_def]
        intro small
        have one' : (1 : DWORD).toNat = 1 := rfl
        rcases Nat.le_one_iff_eq_zero_or_eq_one.1 small with value | value
        · exact zero (BitVec.eq_of_toNat_eq value)
        · exact one (BitVec.eq_of_toNat_eq value)
      rw [if_neg low, if_pos (BitVec.not_lt.1 above)]
      cases stretch with
      | false =>
        have left : size l m ≠ entries := by omega
        exact ⟨L, shown₁, ⟨rfl, rfl, rfl⟩, .last ends (.inl rfl) (by rw [if_neg left]), by decide⟩
      | true =>
        rw [if_neg (by decide)]
        apply twp_seq (twp_chain shown₁ cluster stop)
        rintro ⟨r, fs₂⟩ D₂ ⟨L₂, shown₂, ⟨rfl, rfl, none_⟩ | ⟨rfl, rfl, x, cluster', odd⟩ | ⟨rfl, bad⟩ |
          ⟨cluster', free, L₁, put, link⟩⟩
        · exact ⟨_, shown₂, .refl dp, .denied rfl ends none_, by decide⟩
        · exact ⟨_, shown₂, .refl dp, .odd rfl ends cluster' odd, by decide⟩
        · exact ⟨L₂, shown₂, .refl dp, .failed bad (.inl rfl), by decide⟩
        · dsimp only at shown₂ cluster' free put link ⊢
          have large : r ≠ 0xFFFFFFFF := by
            rintro rfl
            exact absurd (cluster'.and_mask) (by cases l.fsType <;> decide)
          rw [if_neg cluster'.ne_zero, if_neg cluster'.ne_one, if_neg large]
          apply twp_seq (twp_cleanCluster shown₂ cluster')
          rintro ⟨ok, fs₃⟩ D₃ done
          cases ok with
          | false =>
            obtain ⟨bad, L₃, shown₃⟩ := done
            exact ⟨L₃, shown₃, .refl dp, .failed bad (.inl rfl), by decide⟩
          | true =>
            have last' : m = m.take (n / 16 / l.csize.toNat) ++ [m[n / 16 / l.csize.toNat]] := by
              rw [List.take_append_getElem, last, List.take_length]
            exact ⟨_, done, .inr ⟨rfl, ends, laid.grown last' (by omega) cluster' free put link⟩⟩
  · dsimp only at shown₁ ⊢
    rw [if_neg (by decide), if_pos rfl]
    exact ⟨L, shown₁, .refl dp, .failed bad (.inr rfl), by decide⟩

theorem twp_dirNext (shown : Shown l fs D L) (laid : Laid l L sclust m) (at_ : At l m dp n) (stretch : Bool) :
    (dirNext fs dp stretch).twp (rules faulty) (fun r D' => ∃ L', Shown l r.2.1 D' L' ∧
      Kept dp r.2.2 ∧ Walked faulty l L sclust m n stretch r.1 r.2.2 L') D := by
  obtain ⟨dptr, inside, sect, clust⟩ := id at_
  have small := size_le l m
  have whole : entries = 65536 := by decide
  have ofs : (dp.dptr + 32).toNat = 32 * (n + 1) := by
    rw [BitVec.toNat_add, dptr]
    simp
    omega
  have some_sect : dp.sect ≠ 0 := by
    rw [sect]
    exact laid.sect_ne (width_of_size inside)
  have limit : maxDir ≤ dp.dptr + 32 ↔ entries ≤ n + 1 := by
    rw [BitVec.le_def, ofs, whole]
    show 0x200000 ≤ _ ↔ _
    omega
  have turn : (dp.dptr + 32) % 512 = 0 ↔ (n + 1) % 16 = 0 := by
    rw [← BitVec.toNat_inj, BitVec.toNat_umod, ofs]
    show 32 * (n + 1) % 512 = 0 ↔ _
    omega
  unfold dirNext
  dsimp only
  by_cases most : entries ≤ n + 1
  · rw [if_pos (.inr (limit.2 most))]
    have all : size l m = entries := by omega
    exact ⟨L, shown, .refl dp, .last (by omega) (.inr (.inr all)) (by rwa [if_pos all])⟩
  rw [if_neg (not_or.2 ⟨some_sect, fun beyond => most (limit.1 beyond)⟩)]
  by_cases sector : (n + 1) % 16 = 0
  · rw [if_pos (turn.2 sector)]
    have step : (n + 1) / 16 = n / 16 + 1 := by omega
    by_cases none_ : m = []
    · subst none_
      have none_ : dp.clust = 0 := clust
      have all : size l [] = l.nRootdir.toNat := by
        have align := laid.root.align
        have bound := l.nRootdir.isLt
        unfold size width
        rw [if_pos rfl]
        omega
      have ends : fs.nRootdir.setWidth 32 ≤ (dp.dptr + 32) / 32 ↔ l.nRootdir.toNat ≤ n + 1 := by
        have index : ((dp.dptr + 32) / 32).toNat = n + 1 := by
          rw [BitVec.toNat_udiv, ofs]
          show 32 * (n + 1) / 32 = _
          omega
        rw [BitVec.le_def, index, shown.layout, BitVec.toNat_setWidth_of_le (by decide)]
      rw [if_pos none_]
      split
      case isTrue beyond =>
        rw [ends] at beyond
        have left : size l [] ≠ entries := by omega
        exact ⟨L, shown, ⟨rfl, rfl, rfl⟩, .last (by omega) (.inr (.inl rfl)) (by rw [if_neg left])⟩
      case isFalse more =>
        have less : n + 1 < size l [] := by
          rw [ends] at more
          omega
        refine ⟨L, shown, ⟨rfl, rfl, rfl⟩, .next ⟨ofs, less, ?_, none_⟩⟩
        rw [step, (sectorAt_succ (.inl rfl)).1, ← sect]
    · obtain ⟨there, is⟩ := getD_mem none_ (width_of_size inside)
      have some_ : dp.clust ≠ 0 := by
        rw [clust, is]
        exact (laid.inside _ (List.getElem_mem there)).ne_zero
      have index : ((dp.dptr + 32) / 512).toNat = n / 16 + 1 := by
        rw [BitVec.toNat_udiv, ofs]
        show 32 * (n + 1) / 512 = _
        omega
      have change : (dp.dptr + 32) / 512 &&& (fs.csize.setWidth 32 - 1) = 0 ↔
          (n / 16 + 1) % l.csize.toNat = 0 := by
        rw [and_csize, index, shown.layout]
      rw [if_neg some_]
      split
      case isTrue first =>
        rw [change] at first
        have clust' : DIR.clust { dp with sect := dp.sect + 1 } = _ := clust
        apply twp_seq (twp_nextCluster shown laid none_ inside (by omega) first step clust' stretch)
        rintro ⟨next, fs'⟩ D' ⟨L', shown', result⟩
        cases next with
        | error r =>
          obtain ⟨res, dp'⟩ := r
          obtain ⟨kept, walked, -⟩ := result
          exact ⟨L', shown', ⟨kept.sclust, kept.attr, kept.fn⟩, walked⟩
        | ok c =>
          dsimp only at shown' result ⊢
          refine ⟨L', shown', ⟨rfl, rfl, rfl⟩, ?_⟩
          rw [shown'.layout]
          have begins : (n + 1) / 16 % l.csize.toNat = 0 := by rw [step, first]
          rcases result with ⟨more, rfl, rfl, -⟩ | ⟨told, ends, grown⟩
          · exact .next ⟨ofs, more, (sectorAt_first none_ begins).symm, rfl⟩
          · obtain ⟨index, more_iff⟩ := cluster_ends (l := l) none_ (by omega) first step
            have last : (n + 1) / 16 / l.csize.toNat = m.length := by
              have not_more := more_iff.not.1 (by omega)
              omega
            have new : (m ++ [c]).getD ((n + 1) / 16 / l.csize.toNat) 0 = c := by
              rw [last, List.getD_eq_getElem _ _ (by simp)]
              simp
            refine .grown told ends grown ⟨ofs, by have more := grown.more; omega, ?_, new.symm⟩
            rw [sectorAt_first (by simp) begins, new]
      case isFalse inner =>
        rw [change] at inner
        obtain ⟨sector', cluster'⟩ := sectorAt_succ (l := l) (m := m) (.inr inner)
        have aligned := size_aligned l m
        have less : n + 1 < size l m := by
          have inside' := width_of_size inside
          rw [width, if_neg none_] at inside'
          unfold size width
          rw [if_neg none_]
          have room : n / 16 + 1 ≠ m.length * l.csize.toNat := by
            intro all
            exact inner (by rw [all, Nat.mul_mod_left])
          omega
        refine ⟨L, shown, ⟨rfl, rfl, rfl⟩, .next ⟨ofs, less, ?_, ?_⟩⟩
        · rw [step, sector', ← sect]
        · rw [step, cluster' none_]
          exact clust
  · rw [if_neg fun zero => sector (turn.1 zero)]
    have same : (n + 1) / 16 = n / 16 := by omega
    exact ⟨L, shown, ⟨rfl, rfl, rfl⟩, .next ⟨ofs, inside_succ inside sector, by rw [same]; exact sect,
      by rw [same]; exact clust⟩⟩

/-! ## dir_sdi -/

/-- Induction on the turns: each one goes on by a cluster. -/
theorem twp_sdiLoop (shown : Shown l fs D L) (laid : Laid l L sclust m) {csz : DWORD}
    (bytes : csz.toNat = l.csize.toNat * 512) {turns j : Nat} (less : j < m.length) {ofs : DWORD}
    (enough : ofs.toNat / 512 < turns) :
    (sdiLoop csz turns fs m[j] ofs).twp (rules faulty) (fun r D' => Shown l r.2 D' L ∧
      match r.1 with
      | .ok (c, o) => ∃ i, o.toNat + i * (l.csize.toNat * 512) = ofs.toNat ∧ o.toNat < l.csize.toNat * 512 ∧
          m[j + i]? = some c
      | .error res => res = .intErr ∧ (m.length - j) * (l.csize.toNat * 512) ≤ ofs.toNat ∨
          res = .diskErr ∧ faulty) D := by
  have unit := l.unit
  induction turns generalizing fs D j ofs with
  | zero => omega
  | succ turns ih =>
    unfold sdiLoop
    split
    case isTrue beyond =>
      rw [BitVec.le_def, bytes] at beyond
      have rest : (ofs - csz).toNat = ofs.toNat - l.csize.toNat * 512 := by
        rw [BitVec.toNat_sub_of_le (BitVec.le_def.2 (bytes ▸ beyond)), bytes]
      have cluster := laid.inside _ (List.getElem_mem less)
      apply twp_seq (twp_entry shown _)
      rintro ⟨clst, fs'⟩ D' ⟨shown', rfl | ⟨rfl, bad⟩⟩
      · dsimp only at shown' ⊢
        rw [if_neg (l.table_ne L _), shown'.layout]
        by_cases more : j + 1 < m.length
        · have cluster' := laid.inside _ (List.getElem_mem more)
          rw [laid.linked.next_getElem more,
            if_neg (not_or.2 ⟨BitVec.not_lt.2 cluster'.1, BitVec.not_le.2 cluster'.2⟩)]
          apply twp_mono (ih shown' more (show (ofs - csz).toNat / 512 < turns by omega))
          rintro ⟨r, fs''⟩ D'' ⟨shown'', result⟩
          refine ⟨shown'', ?_⟩
          dsimp only at result ⊢
          rw [rest] at result
          cases r with
          | ok p =>
            obtain ⟨i, sum, small, at_⟩ := result
            refine ⟨i + 1, ?_, small, ?_⟩
            · rw [Nat.add_mul]
              omega
            · rw [← at_]
              congr 1
              omega
          | error res =>
            refine result.imp_left fun failed => ⟨failed.1, ?_⟩
            obtain ⟨k, left⟩ : ∃ k, m.length - j = k + 1 := ⟨m.length - j - 1, by omega⟩
            have left' : m.length - (j + 1) = k := by omega
            have room := failed.2
            rw [left'] at room
            rw [left, Nat.add_mul]
            omega
        · have stop := laid.linked.last_getElem (i := j) (by omega)
          rw [if_pos (.inr stop)]
          refine ⟨shown', .inl ⟨rfl, ?_⟩⟩
          have one : m.length - j = 1 := by omega
          rw [one]
          omega
      · dsimp only at shown' ⊢
        rw [if_pos rfl]
        exact ⟨shown', .inr ⟨rfl, bad⟩⟩
    case isFalse inside =>
      rw [BitVec.le_def, bytes] at inside
      exact ⟨shown, 0, by omega, by omega, List.getElem?_eq_getElem less⟩

/-- `dir_sdi` comes to an entry of the table, and to none behind its end. -/
theorem twp_dirSdi (shown : Shown l fs D L) (laid : Laid l L dp.sclust m) {ofs : DWORD}
    (index : ofs.toNat = 32 * n) (few : n < entries) :
    (dirSdi fs dp ofs).twp (rules faulty) (fun r D' => Shown l r.2.1 D' L ∧ Kept dp r.2.2 ∧
      (r.1 = .ok ∧ At l m r.2.2 n ∨ r.1 = .intErr ∧ size l m ≤ n ∨ r.1 = .diskErr ∧ faulty)) D := by
  have whole : entries = 65536 := by decide
  have aligned : ¬(maxDir ≤ ofs ∨ ofs % 32 ≠ 0) := by
    rw [BitVec.le_def, index, not_or, not_not, ← BitVec.toNat_inj, BitVec.toNat_umod, index]
    show ¬0x200000 ≤ _ ∧ 32 * n % 32 = 0
    omega
  have start := laid.start
  unfold dirSdi
  rw [if_neg aligned, shown.layout]
  dsimp only
  rw [start]
  cases m with
  | nil =>
    have static := laid.static rfl
    have all : size l [] = l.nRootdir.toNat := by
      have align := laid.root.align
      have bound := l.nRootdir.isLt
      unfold size width
      rw [if_pos rfl]
      omega
    have entry : (ofs / 32).toNat = n := by
      rw [BitVec.toNat_udiv, index]
      show 32 * n / 32 = n
      omega
    rw [List.headD_nil, if_pos rfl]
    split
    case isTrue beyond =>
      rw [BitVec.le_def, entry, BitVec.toNat_setWidth_of_le (by decide)] at beyond
      exact ⟨shown, ⟨rfl, rfl, rfl⟩, .inr (.inl ⟨rfl, all ▸ beyond⟩)⟩
    case isFalse inside =>
      rw [BitVec.le_def, entry, BitVec.toNat_setWidth_of_le (by decide), ← all] at inside
      have some_ : l.dirbase ≠ 0 := by
        have first := laid.sect_ne (q := 0) (by have inside' := width_of_size (Nat.not_le.1 inside); omega)
        simpa [sectorAt] using first
      have set_ : ({ dp with dptr := ofs } : DIR).set 0 l.dirbase ofs =
          (.ok, { dp with dptr := ofs, clust := 0, sect := l.dirbase + ofs / 512 }) := if_neg some_
      rw [set_]
      refine ⟨shown, ⟨rfl, rfl, rfl⟩, .inl ⟨rfl, index, Nat.not_le.1 inside, ?_, rfl⟩⟩
      show l.dirbase + ofs / 512 = l.dirbase + _
      congr 1
      apply BitVec.eq_of_toNat_eq
      rw [BitVec.toNat_udiv, BitVec.toNat_ofNat, index]
      show 32 * n / 512 = _
      omega
  | cons a m =>
    have cluster := laid.inside a List.mem_cons_self
    have unit := l.unit
    have bytes : (l.csize.setWidth 32 * 512 : DWORD).toNat = l.csize.toNat * 512 := by
      obtain ⟨k, -, value, value'⟩ := l.toNat_bcs
      rw [value, value']
    rw [List.headD_cons, if_neg cluster.ne_zero]
    apply twp_seq (twp_sdiLoop shown laid bytes (j := 0) (by simp) (Nat.lt_succ_self _))
    rintro ⟨at_, fs'⟩ D' ⟨shown', result⟩
    dsimp only at shown' result ⊢
    cases at_ with
    | error res =>
      refine ⟨shown', ⟨rfl, rfl, rfl⟩, .inr (result.imp_left fun failed => ⟨failed.1, ?_⟩)⟩
      have beyond := failed.2
      rw [index, Nat.sub_zero, ← Nat.mul_assoc] at beyond
      unfold size width
      rw [if_neg (by simp)]
      omega
    | ok p =>
      obtain ⟨c, o⟩ := p
      obtain ⟨i, sum, small, is⟩ := result
      rw [Nat.zero_add] at is
      obtain ⟨less, is⟩ := List.getElem?_eq_some_iff.1 is
      have cluster' := laid.inside c (is ▸ List.getElem_mem less)
      have first : clust2sect l c ≠ 0 := by
        obtain ⟨value, -⟩ := toNat_clust2sect cluster'
        have after := l.after
        have area := fsize_pos l
        have fat := fat_behind l
        intro zero
        have value' := congrArg BitVec.toNat zero
        have none_ : (0 : DWORD).toNat = 0 := rfl
        omega
      have sector : n / 16 = o.toNat / 512 + i * l.csize.toNat := by
        rw [index, ← Nat.mul_assoc] at sum
        omega
      have inner : o.toNat / 512 < l.csize.toNat := by omega
      have number : n / 16 / l.csize.toNat = i := by
        rw [sector, Nat.add_mul_div_right _ _ unit, Nat.div_eq_of_lt inner, Nat.zero_add]
      have offset : n / 16 % l.csize.toNat = o.toNat / 512 := by
        rw [sector, Nat.add_mul_mod_self_right, Nat.mod_eq_of_lt inner]
      have there : (a :: m).getD (n / 16 / l.csize.toNat) 0 = c := by
        rw [number, List.getD_eq_getElem _ _ less, is]
      rw [shown'.layout]
      have set_ : ({ dp with dptr := ofs } : DIR).set c (clust2sect l c) o =
          (.ok, { dp with dptr := ofs, clust := c, sect := clust2sect l c + o / 512 }) := if_neg first
      dsimp only
      rw [set_]
      refine ⟨shown', ⟨rfl, rfl, rfl⟩, .inl ⟨rfl, index, ?_, ?_, there.symm⟩⟩
      · have room : (i + 1) * l.csize.toNat ≤ (a :: m).length * l.csize.toNat :=
          Nat.mul_le_mul_right _ less
        rw [Nat.add_mul] at room
        unfold size width
        rw [if_neg (by simp)]
        omega
      · unfold sectorAt
        rw [if_neg (by simp), there, offset]
        show clust2sect l c + o / 512 = _
        congr 1
        apply BitVec.eq_of_toNat_eq
        rw [BitVec.toNat_udiv, BitVec.toNat_ofNat, Nat.mod_eq_of_lt (by omega)]
        rfl

end

end FatFsParticle.Dirs
