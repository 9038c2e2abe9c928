import FatFsParticle.Fat.Creating
import Mathlib.Order.Interval.Finset.Nat

/-!
# One chain changed

Whatever an operation on a chain comes to, it leaves another chain in its place, made of
clusters that were in it or free, and the entries of the clusters of other chains as they
are. So chains that have no cluster in common keep having none. Without a fault no cluster
is in use without being in a chain, unless it was before.
-/

namespace FatFsParticle.Fat
open Interact Program Links
open Files (FRESULT)
open Drives (FatType)

/-- `new` is in the place of `old`. While the window stays where it was, no cluster becomes
free. -/
structure Rechained (fs fs' : FATFS) (L L' : Disk) (old new : List DWORD) : Prop where
  layout : fs'.toLayout = fs.toLayout
  linked : Linked (fs.table L') fs.Last new
  inside : ∀ c ∈ new, fs.Cluster c
  taken : ∀ c ∈ new, c ∈ old ∨ fs.table L c = 0
  others : ∀ c, c ∉ old → fs.table L c ≠ 0 → fs.table L' c = fs.table L c
  rest : fs.SameRest L L'
  window : fs'.AtFat ∨ fs'.winsect = fs.winsect ∧ ∀ c, fs.table L' c = 0 → fs.table L c = 0

/-- The clusters of `old` that are not in `new` are free, and no others have become free or
come into use. -/
def Layout.Lossless (l : Layout) (L L' : Disk) (old new : List DWORD) : Prop :=
  ∀ c, l.Cluster c → (l.table L' c = 0 ↔ c ∉ new ∧ (l.table L c = 0 ∨ c ∈ old))

section
variable {faulty : Prop} {P : DWORD → Prop} {fs fs' : FATFS} {l : Layout} {D L L' : Disk} {c v : DWORD}
  {old new : List DWORD} {ι : Type} {chain : ι → List DWORD} {i : ι}

theorem Layout.Last.ne_zero (h : l.Last v) : v ≠ 0 := h.link.1

/-- What is in a chain is in use. -/
theorem Layout.used {T : DWORD → DWORD} (linked : Linked T l.Last old)
    (inside : ∀ c ∈ old, l.Cluster c) : ∀ c ∈ old, T c ≠ 0 := by
  induction old with
  | nil => simp
  | cons a m ih =>
    intro c mem
    rcases List.mem_cons.1 mem with rfl | mem
    · cases m with
      | nil => exact Layout.Last.ne_zero linked
      | cons b m =>
        rw [linked.1]
        exact (inside b (by simp)).ne_zero
    · exact ih linked.tail (fun x mem => inside x (List.mem_cons_of_mem a mem)) c mem

theorem Layout.not_last (l : Layout) : ∀ c, l.Cluster c → ¬l.Last c := fun _ => Layout.Cluster.not_last

theorem Rechained.owned [DecidableEq ι] (change : Rechained fs fs' L L' (chain i) new)
    (owned : Owned (fs.table L) fs.Last fs.Cluster chain) :
    Owned (fs.table L') fs.Last fs.Cluster (Function.update chain i new) := by
  have used (j : ι) : ∀ c ∈ chain j, fs.table L c ≠ 0 :=
    Layout.used (owned.linked j) (owned.inside j)
  apply owned.replace _ change.linked change.inside
  · intro j other c mem mine
    rcases change.taken c mem with old | free
    · exact owned.apart i j (Ne.symm other) c old mine
    · exact used j c mine free
  · intro j other c mine
    exact change.others c (owned.apart j i other c mine) (used j c mine)

/-- Nothing has changed but the window. -/
theorem Fetched.rechained (moved : Fetched fs fs') (linked : Linked (fs.table L) fs.Last old)
    (inside : ∀ c ∈ old, fs.Cluster c) : Rechained fs fs' L L old old :=
  ⟨moved.layout, linked, inside, fun _ => .inl, fun _ _ _ => rfl, fun _ _ => rfl,
    moved.window.imp id fun same => ⟨same, fun _ => id⟩⟩

theorem Layout.lossless_same (linked : Linked (l.table L) l.Last old)
    (inside : ∀ c ∈ old, l.Cluster c) : l.Lossless L L old old := by
  have used := Layout.used linked inside
  intro c _
  constructor
  · exact fun free => ⟨fun mem => used c mem free, .inl free⟩
  · exact fun ⟨out, free⟩ => free.resolve_right out

/-! ## Chains removed -/

theorem Removed.rechained {res : FRESULT} (removed : Removed faulty old fs fs' L L' res) :
    Rechained fs fs' L L' old [] where
  layout := removed.layout
  linked := trivial
  inside := by simp
  taken := by simp
  others c out _ := removed.out c out
  rest := removed.rest
  window := by
    rcases removed.window with fat | ⟨same, rfl⟩
    · exact .inl fat
    · exact .inr ⟨same, fun _ => id⟩

theorem Removed.lossless {res : FRESULT} (removed : Removed faulty old fs fs' L L' res)
    (ok : res = .ok) : fs.Lossless L L' old [] := by
  rcases removed.result with ⟨-, free, -⟩ | ⟨failed, -⟩
  · intro c _
    by_cases mem : c ∈ old
    · simp [free c mem, mem]
    · simp [removed.out c mem, mem]
  · rw [ok] at failed
    cases failed

/-- Behind `p` the chain is cut off. -/
theorem Removed.cut {res : FRESULT} {l m : List DWORD} {p : DWORD} {L₁ : Disk}
    (put : fs.Put L L₁ p 0xFFFFFFFF) (removed : Removed faulty m fs fs' L₁ L' res)
    (fat : fs'.AtFat) (linked : Linked (fs.table L) fs.Last (l ++ p :: m))
    (once : (l ++ p :: m).Nodup) (inside : ∀ c ∈ l ++ p :: m, fs.Cluster c) :
    Rechained fs fs' L L' (l ++ p :: m) (l ++ [p]) where
  layout := removed.layout
  linked := by
    have cut := linked.cut once fs.last_mask
    rw [← put.table] at cut
    apply cut.congr
    intro c mem
    apply removed.out
    intro behind
    have apart : (l ++ [p]).Disjoint m := List.disjoint_of_nodup_append (by simpa using once)
    exact apart mem behind
  inside c mem := inside c (by simp at mem ⊢; tauto)
  taken c mem := .inl (by simp at mem ⊢; tauto)
  others c out _ := by
    simp only [List.mem_append, List.mem_cons, not_or] at out
    rw [removed.out c out.2.2, put.table, Function.update_of_ne out.2.1]
  rest s away := (removed.rest s away).trans (put.rest s away)
  window := .inl fat

theorem Removed.lossless_cut {res : FRESULT} {l m : List DWORD} {p : DWORD} {L₁ : Disk}
    (put : fs.Put L L₁ p 0xFFFFFFFF) (removed : Removed faulty m fs fs' L₁ L' res) (ok : res = .ok)
    (linked : Linked (fs.table L) fs.Last (l ++ p :: m)) (once : (l ++ p :: m).Nodup)
    (inside : ∀ c ∈ l ++ p :: m, fs.Cluster c) : fs.Lossless L L' (l ++ p :: m) (l ++ [p]) := by
  have freed := removed.lossless ok
  have used := Layout.used linked inside
  have apart : (l ++ [p]).Disjoint m := List.disjoint_of_nodup_append (by simpa using once)
  have ends := Layout.Last.ne_zero fs.last_mask
  intro c cluster
  rw [freed c cluster, put.table, Function.update_apply]
  by_cases here : c = p
  · have out : c ∉ m := fun mem => apart (by simp [here]) mem
    rw [if_pos here]
    constructor
    · exact fun both => both.2.elim (fun zero => absurd zero ends) fun mem => absurd mem out
    · exact fun both => absurd (by simp [here]) both.1
  · simp only [here, if_false]
    have member := used c
    simp only [List.mem_append, List.mem_cons, here, false_or] at member ⊢
    have front : c ∈ l → c ∉ m := fun mem => apart (List.mem_append_left _ mem)
    simp
    tauto

/-! ## Chains made and stretched -/

theorem Layout.Put.ne (put : l.Put L L' c v) {x : DWORD} (other : x ≠ c) :
    l.table L' x = l.table L x := by
  rw [put.table, Function.update_of_ne other]

theorem Layout.Put.same (put : l.Put L L' c v) : l.table L' c = v &&& mask l.fsType := by
  rw [put.table, Function.update_self]

theorem Layout.Put.lossless_new (put : l.Put L L' c 0xFFFFFFFF) :
    l.Lossless L L' [] [c] := by
  intro x _
  have ends := Layout.Last.ne_zero l.last_mask
  rw [put.table, Function.update_apply]
  by_cases here : x = c
  · rw [if_pos here]
    constructor
    · exact fun zero => absurd zero ends
    · exact fun both => absurd (by simp [here]) both.1
  · rw [if_neg here]
    simp [here]

/-- A free cluster made a chain. -/
theorem Layout.Put.begun (put : fs.Put L L' c 0xFFFFFFFF) (free : fs.table L c = 0)
    (cluster : fs.Cluster c) (layout : fs'.toLayout = fs.toLayout) (fat : fs'.AtFat) :
    Rechained fs fs' L L' [] [c] where
  layout := layout
  linked := by
    rw [linked_singleton, put.same]
    exact fs.last_mask
  inside := by simpa using cluster
  taken := by simp [free]
  others x _ used := put.ne fun here => used (here ▸ free)
  rest := put.rest
  window := .inl fat

/-- What is in use stays as it is. -/
theorem Fetched.kept (moved : Fetched fs fs') (linked : Linked (fs.table L) fs.Last old)
    (inside : ∀ c ∈ old, fs.Cluster c)
    (same : ∀ c, fs.table L c ≠ 0 → fs.table L' c = fs.table L c) (rest : fs.SameRest L L') :
    Rechained fs fs' L L' old old := by
  have used := Layout.used linked inside
  refine ⟨moved.layout, linked.congr fun x mem => same x (used x mem), inside, fun _ => .inl,
    fun x _ => same x, rest, moved.window.imp id fun at_ => ⟨at_, fun x zero => ?_⟩⟩
  by_contra some_
  exact some_ (same x some_ ▸ zero)

/-- A free cluster marked and left alone. -/
theorem Layout.Put.marked (put : fs.Put L L' c v) (free : fs.table L c = 0)
    (moved : Fetched fs fs') (linked : Linked (fs.table L) fs.Last old)
    (inside : ∀ c ∈ old, fs.Cluster c) : Rechained fs fs' L L' old old :=
  moved.kept linked inside (fun _ some_ => put.ne fun here => some_ (here ▸ free)) put.rest

/-- A free cluster linked behind the last one of a chain. -/
theorem Layout.Put.stretch {m : List DWORD} {a : DWORD} {L₁ : Disk} (put : fs.Put L L₁ c 0xFFFFFFFF)
    (link : fs.Put L₁ L' a c) (free : fs.table L c = 0) (cluster : fs.Cluster c)
    (layout : fs'.toLayout = fs.toLayout) (fat : fs'.AtFat)
    (linked : Linked (fs.table L) fs.Last (m ++ [a])) (inside : ∀ c ∈ m ++ [a], fs.Cluster c) :
    Rechained fs fs' L L' (m ++ [a]) (m ++ [a, c]) where
  layout := layout
  linked := by
    have new : c ∉ m ++ [a] := fun mem => Layout.used linked inside c mem free
    have once := linked.nodup fun x mem => (inside x mem).not_last
    have longer := linked.stretch (b := c) once fs.last_mask new
    rw [link.table, put.table, cluster.and_mask]
    exact longer
  inside x mem := by
    have cases_ : x ∈ m ++ [a] ∨ x = c := by simp at mem ⊢; tauto
    exact cases_.elim (inside x) fun here => here ▸ cluster
  taken x mem := by
    have cases_ : x ∈ m ++ [a] ∨ x = c := by simp at mem ⊢; tauto
    rcases cases_ with mem | rfl
    · exact .inl mem
    · exact .inr free
  others x out used := by
    have away : x ≠ c := by
      rintro rfl
      exact used free
    rw [link.ne fun here => out (by simp [here]), put.ne away]
  rest s away := (link.rest s away).trans (put.rest s away)
  window := .inl fat

theorem Layout.Put.lossless_stretch {m : List DWORD} {a : DWORD} {L₁ : Disk}
    (put : l.Put L L₁ c 0xFFFFFFFF) (link : l.Put L₁ L' a c) (cluster : l.Cluster c) (linked : Linked (l.table L) l.Last (m ++ [a]))
    (inside : ∀ c ∈ m ++ [a], l.Cluster c) : l.Lossless L L' (m ++ [a]) (m ++ [a, c]) := by
  have used := Layout.used linked inside
  intro x _
  rw [link.table, Function.update_apply]
  by_cases last : x = a
  · have some_ : c &&& mask l.fsType ≠ 0 := by
      rw [cluster.and_mask]
      exact cluster.ne_zero
    rw [if_pos last]
    constructor
    · exact fun zero => absurd zero some_
    · exact fun both => absurd (by simp [last]) both.1
  · rw [if_neg last, put.lossless_new x ‹_›]
    have member := used x
    simp only [List.mem_append, List.mem_cons, last, List.not_mem_nil, or_false, false_or] at member ⊢
    tauto

/-- The value that `create_chain` returns is a cluster. -/
def Usable (r : DWORD) : Prop := 2 ≤ r ∧ r ≠ 0xFFFFFFFF

instance (r : DWORD) : Decidable (Usable r) := inferInstanceAs (Decidable (_ ∧ _))

theorem Layout.Cluster.usable (h : l.Cluster c) : Usable c := by
  refine ⟨h.1, ?_⟩
  rintro rfl
  have high := BitVec.lt_def.1 h.2
  have bound := l.nFatent.isLt
  simp at high
  omega

theorem Created.rechained_new {r : DWORD} (created : Created faulty fs 0 L r fs' L') :
    Rechained fs fs' L L' [] (if Usable r then [r] else []) := by
  have same (moved : Fetched fs fs') : Rechained fs fs' L L [] [] :=
    moved.rechained trivial (by simp)
  cases created with
  | full moved none_ => exact same moved
  | followed moved old => exact absurd rfl old
  | odd moved => exact same moved
  | made layout lastClst freeClst fat last found put joined =>
    obtain ⟨cluster, free⟩ := found.free_ok (fs.start_origin fun old => absurd rfl old)
    obtain rfl := joined
    rw [if_pos cluster.usable]
    exact put.begun free cluster layout fat
  | failed bad moved cluster free marred =>
    cases marred with
    | untouched same_ => exact same_ ▸ same moved
    | marked put => exact put.marked free moved trivial (by simp)
    | half packed put => exact put.marked free moved trivial (by simp)
    | halfLink packed old => exact absurd rfl old
  | lost bad moved => exact same moved

theorem Created.lossless_new {r : DWORD} (created : Created faulty fs 0 L r fs' L')
    (sound : ¬faulty) : fs.Lossless L L' [] (if Usable r then [r] else []) := by
  have same : fs.Lossless L L [] [] := Layout.lossless_same trivial (by simp)
  cases created with
  | full moved none_ => exact same
  | followed moved old => exact absurd rfl old
  | odd moved => exact same
  | made layout lastClst freeClst fat last found put joined =>
    obtain ⟨cluster, free⟩ := found.free_ok (fs.start_origin fun old => absurd rfl old)
    obtain rfl := joined
    rw [if_pos cluster.usable]
    exact put.lossless_new
  | failed bad => exact absurd bad sound
  | lost bad => exact absurd bad sound

/-- A chain that ends in `a` is stretched, or stays as it is; one that goes on behind `a`
stays. -/
theorem Created.rechained {r a : DWORD} {m m' : List DWORD}
    (created : Created faulty fs a L r fs' L') (whole : fs.fsType = .fat12 → ¬faulty)
    (linked : Linked (fs.table L) fs.Last (m ++ a :: m'))
    (inside : ∀ c ∈ m ++ a :: m', fs.Cluster c) :
    ∃ tail, Rechained fs fs' L L' (m ++ a :: m') (m ++ a :: tail) ∧
      (¬faulty → fs.Lossless L L' (m ++ a :: m') (m ++ a :: tail)) := by
  have there : a ≠ 0 := (inside a (by simp)).ne_zero
  have same (moved : Fetched fs fs') : ∃ tail, Rechained fs fs' L L (m ++ a :: m') (m ++ a :: tail) ∧
      (¬faulty → fs.Lossless L L (m ++ a :: m') (m ++ a :: tail)) :=
    ⟨m', moved.rechained linked inside, fun _ => Layout.lossless_same linked inside⟩
  cases created with
  | full moved none_ => exact same moved
  | followed moved old next => exact same moved
  | odd moved => exact same moved
  | made layout lastClst freeClst fat last found put joined =>
    obtain ⟨cluster, free⟩ := found.free_ok (fs.start_origin fun old => (last old).1)
    have ends : m' = [] := by
      cases m' with
      | nil => rfl
      | cons b m' =>
        have next : fs.table L a = b := linked.next_of_append
        exact absurd (next ▸ (last there).2) (inside b (by simp)).not_last
    subst ends
    rw [Layout.Joined, if_neg there] at joined
    exact ⟨[r], put.stretch joined free cluster layout fat linked inside,
      fun _ => put.lossless_stretch joined cluster linked inside⟩
  | failed bad moved cluster free marred =>
    cases marred with
    | untouched same_ => exact same_ ▸ same moved
    | marked put => exact ⟨m', put.marked free moved linked inside, fun sound => absurd bad sound⟩
    | half packed put => exact absurd bad (whole packed)
    | halfLink packed => exact absurd bad (whole packed)
  | lost bad moved => exact same moved

/-! ## Free clusters -/

/-- The clusters of the volume. -/
def Layout.clusters (l : Layout) : Finset DWORD := (Finset.range l.nFatent.toNat).image (BitVec.ofNat 32)
  |>.filter (2 ≤ ·)

theorem Layout.mem_clusters (l : Layout) (c : DWORD) : c ∈ l.clusters ↔ l.Cluster c := by
  have bound := l.nFatent.isLt
  unfold clusters Cluster
  simp only [Finset.mem_filter, Finset.mem_image, Finset.mem_range]
  constructor
  · rintro ⟨⟨k, less, rfl⟩, low⟩
    refine ⟨low, ?_⟩
    rw [BitVec.lt_def, BitVec.toNat_ofNat, Nat.mod_eq_of_lt (by omega)]
    exact less
  · rintro ⟨low, high⟩
    exact ⟨⟨c.toNat, high, BitVec.eq_of_toNat_eq (by simp)⟩, low⟩

/-- The free clusters of the volume. -/
def Layout.frees (l : Layout) (L : Disk) : Finset DWORD := l.clusters.filter (l.table L · = 0)

theorem Layout.mem_frees (l : Layout) (L : Disk) (c : DWORD) :
    c ∈ l.frees L ↔ l.Cluster c ∧ l.table L c = 0 := by
  rw [frees, Finset.mem_filter, mem_clusters]

theorem Layout.card_clusters (l : Layout) : l.clusters.card = l.nFatent.toNat - 2 := by
  have bound := l.nFatent.isLt
  have numbers : l.clusters.image BitVec.toNat = Finset.Ico 2 l.nFatent.toNat := by
    ext k
    simp only [Finset.mem_image, Finset.mem_Ico]
    constructor
    · rintro ⟨c, inside, rfl⟩
      exact (l.cluster_iff c).1 ((l.mem_clusters c).1 inside)
    · rintro ⟨low, high⟩
      have value : (BitVec.ofNat 32 k).toNat = k := by
        rw [BitVec.toNat_ofNat, Nat.mod_eq_of_lt (by omega)]
      refine ⟨BitVec.ofNat 32 k, (l.mem_clusters _).2 ((l.cluster_iff _).2 ?_), value⟩
      rw [value]
      exact ⟨low, high⟩
  rw [← Nat.card_Ico, ← numbers, Finset.card_image_of_injOn fun _ _ _ _ => BitVec.eq_of_toNat_eq]

theorem Layout.frees_le (l : Layout) (L : Disk) : (l.frees L).card ≤ l.nFatent.toNat - 2 := by
  rw [← l.card_clusters]
  exact Finset.card_filter_le ..

/-- Where nothing is lost, what a chain gives up is free and what it takes is not. -/
theorem Layout.Lossless.card (h : l.Lossless L L' old new) (used : ∀ c ∈ old, l.table L c ≠ 0)
    (taken : ∀ c ∈ new, c ∈ old ∨ l.table L c = 0) (inside : ∀ c ∈ old, l.Cluster c)
    (inside' : ∀ c ∈ new, l.Cluster c) (once : old.Nodup) (once' : new.Nodup) :
    (l.frees L').card + new.length = (l.frees L).card + old.length := by
  have all : l.frees L' = (l.frees L ∪ old.toFinset) \ new.toFinset := by
    ext c
    simp only [Finset.mem_sdiff, Finset.mem_union, List.mem_toFinset, mem_frees]
    have zero := h c
    have cluster := inside c
    tauto
  have sub : new.toFinset ⊆ l.frees L ∪ old.toFinset := by
    intro c mem
    rw [List.mem_toFinset] at mem
    rw [Finset.mem_union, List.mem_toFinset, mem_frees]
    exact (taken c mem).symm.imp (fun free => ⟨inside' c mem, free⟩) id
  have apart : Disjoint (l.frees L) old.toFinset := by
    rw [Finset.disjoint_left]
    intro c free mem
    exact used c (List.mem_toFinset.1 mem) ((l.mem_frees L c).1 free).2
  have count := Finset.card_sdiff_add_card_eq_card sub
  rw [← all, Finset.card_union_of_disjoint apart, List.toFinset_card_of_nodup once,
    List.toFinset_card_of_nodup once'] at count
  exact count

/-- What `create_chain` makes of the number of free clusters, and of what is known of it. -/
theorem Created.counted {r : DWORD} (created : Created faulty fs c L r fs' L') (sound : ¬faulty) :
    (fs'.freeClst = fs.freeClst ∧ (fs.frees L').card = (fs.frees L).card) ∨
      (fs'.freeClst = fs.drop fs.freeClst ∧ (fs.frees L').card + 1 = (fs.frees L).card) := by
  cases created with
  | full moved => exact .inl ⟨moved.freeClst, rfl⟩
  | followed moved => exact .inl ⟨moved.freeClst, rfl⟩
  | odd moved => exact .inl ⟨moved.freeClst, rfl⟩
  | @made _ L₁ _ _ layout lastClst freeClst fat last found put joined =>
    obtain ⟨cluster, free⟩ := found.free_ok (fs.start_origin fun old => (last old).1)
    have taken : fs.Lossless L L₁ [] [r] := put.lossless_new
    have all : fs.Lossless L L' [] [r] := by
      unfold Layout.Joined at joined
      split at joined
      case isTrue => exact joined ▸ taken
      case isFalse old =>
        intro x inside
        by_cases here : x = c
        · obtain ⟨outer, ends⟩ := last old
          have some_ : fs.table L' c ≠ 0 := by
            rw [joined.same, cluster.and_mask]
            exact cluster.ne_zero
          have some' := Layout.Last.ne_zero ends
          rw [here]
          exact ⟨fun zero => absurd zero some_, fun both => absurd (both.2.resolve_right (by simp)) some'⟩
        · rw [joined.ne here]
          exact taken x inside
    have count := all.card (by simp) (by simpa using free) (by simp) (by simpa using cluster)
      List.nodup_nil (List.nodup_singleton _)
    exact .inr ⟨freeClst, count⟩
  | failed bad => exact absurd bad sound
  | lost bad => exact absurd bad sound

end

end FatFsParticle.Fat
