import FatFsParticle.Dirs.Entries
import FatFsParticle.Fat.Runs

/-!
# A directory is a map

What a directory has is a map from names to entries. Over any run of lookups, creations,
removals and changes of entries, and whatever reads and writes of the drive fail, the map
changes at the name of the call only and as the call reports, and every lookup that comes
to its end answers from the map. A creation must not fail on the disk: a new cluster is
linked before it is filled with zeros, so what was in it may stay behind as entries.
-/

namespace FatFsParticle.Dirs
open Interact Program Fat Links Slots
open Files (FRESULT)
open Drives (FatType)
open Usage (Sector)

abbrev Entry := Fin 32 → BYTE

/-- A mounted volume with a directory, which begins at `sclust`. -/
structure Home where
  fs : FATFS
  disk : Disk
  sclust : DWORD

/-- A directory object for the name `k`. -/
def Home.object (v : Home) (dp : DIR) (k : Proper) : DIR := { dp with sclust := v.sclust, fn := k.name }

/-- The map of names to entries. -/
abbrev Names := Proper → Option Entry

instance : DecidableEq Proper := fun k k' =>
  decidable_of_iff (k.name = k'.name) ⟨Proper.ext, fun same => same ▸ rfl⟩

/-- The directory has the entries of `M`, each name once and nothing behind its end. -/
def Home.Has (v : Home) (M : Names) : Prop :=
  ∃ L m, Shown v.fs.toLayout v.fs v.disk L ∧ Laid v.fs.toLayout L v.sclust m ∧
    kinds.Tidy (slots v.fs.toLayout L m) ∧ M = kinds.get (slots v.fs.toLayout L m)

/-- The table has no entries, free or not: a static root of size 0, which `find_volume` turns
away. -/
def Home.Void (v : Home) : Prop :=
  ∃ L m, Shown v.fs.toLayout v.fs v.disk L ∧ Laid v.fs.toLayout L v.sclust m ∧ size v.fs.toLayout m = 0

/-- No entry of the table is free, and it cannot grow: no cluster is free, the table is the
static root, or it is as long as a table may be. -/
def Home.Full (v : Home) : Prop :=
  ∃ L m, Shown v.fs.toLayout v.fs v.disk L ∧ Laid v.fs.toLayout L v.sclust m ∧
    kinds.room (slots v.fs.toLayout L m) = none ∧
    ((∀ c, v.fs.Cluster c → v.fs.table L c ≠ 0) ∨ m = [] ∨ size v.fs.toLayout m = entries)

/-- A cluster has the entry 1 in the FAT, which no allocation leaves there. -/
def Home.Odd (v : Home) : Prop :=
  ∃ L, Shown v.fs.toLayout v.fs v.disk L ∧ ∃ c, v.fs.Cluster c ∧ v.fs.table L c = 1

/-- What is done to a directory, and what was returned. -/
inductive Deed where
  | find (k : Proper) (res : FRESULT) (e : Entry)
  | create (k : Proper) (res : FRESULT)
  | remove (k : Proper) (res : FRESULT)
  | change (k : Proper) (e : Entry)
  | look (sect : DWORD)

/-- The steps, as `f_open`, `f_mkdir`, `f_rename`, `f_unlink`, `f_sync` and others take them:
an entry is created where its name was not found, and removed or changed where it was. -/
inductive Step (faulty : Prop) : Deed → Home → Home → Prop
  | find {v : Home} {k : Proper} {dp dp' : DIR} {res : FRESULT} {fs' : FATFS} {D' : Disk}
      (ends : Ends (rules faulty) (dirFind v.fs (v.object dp k)) v.disk (res, fs', dp') D') :
      Step faulty (.find k res (cell fs'.win dp'.dir)) v ⟨fs', D', v.sclust⟩
  | create {v : Home} {k : Proper} {dp dp₁ dp' : DIR} {res : FRESULT} {fs₁ fs' : FATFS} {D₁ D' : Disk}
      (missed : Ends (rules faulty) (dirFind v.fs (v.object dp k)) v.disk (.noFile, fs₁, dp₁) D₁)
      (ends : Ends (rules faulty) (dirRegister fs₁ (v.object dp₁ k)) D₁ (res, fs', dp') D')
      (whole : res ≠ .diskErr) : Step faulty (.create k res) v ⟨fs', D', v.sclust⟩
  | remove {v : Home} {k : Proper} {dp dp₁ : DIR} {res : FRESULT} {fs₁ fs' : FATFS} {D₁ D' : Disk}
      (found : Ends (rules faulty) (dirFind v.fs (v.object dp k)) v.disk (.ok, fs₁, dp₁) D₁)
      (ends : Ends (rules faulty) (dirRemove fs₁ dp₁) D₁ (res, fs') D') :
      Step faulty (.remove k res) v ⟨fs', D', v.sclust⟩
  | change {v : Home} {k : Proper} {e : Entry} {dp dp₁ : DIR} {fs₁ fs₂ : FATFS} {D₁ D₂ : Disk}
      (found : Ends (rules faulty) (dirFind v.fs (v.object dp k)) v.disk (.ok, fs₁, dp₁) D₁)
      (moved : Ends (rules faulty) (moveWindow fs₁ dp₁.sect) D₁ (.ok, fs₂) D₂)
      (same : kinds.is k e) :
      Step faulty (.change k e) v ⟨fs₂.modify (putCell fs₂.win dp₁.dir e), D₂, v.sclust⟩
  | look {v : Home} {sect : DWORD} {res : FRESULT} {fs' : FATFS} {D' : Disk} (own : v.fs.toLayout.Own sect)
      (ends : Ends (rules faulty) (moveWindow v.fs sect) v.disk (res, fs') D') :
      Step faulty (.look sect) v ⟨fs', D', v.sclust⟩

/-! ## The map -/

/-- What a step makes of the map. -/
def Deed.after (M : Names) : Deed → Names
  | .create k .ok => Function.update M k (some (newEntry k.name))
  | .remove k .ok => Function.update M k none
  | .change k e => Function.update M k (some e)
  | _ => M

/-- What `dir_find` answers for `k`, with the entry `e` in the window. -/
def Looks (faulty : Prop) (v : Home) (M : Names) (k : Proper) (e : Entry) : FRESULT → Prop
  | .ok => M k = some e
  | .noFile => M k = none
  | .intErr => v.Void
  | .diskErr => faulty
  | _ => False

/-- What `dir_register` answers where the disk does not fail. -/
def Registers (v : Home) : FRESULT → Prop
  | .ok => True
  | .denied => v.Full
  | .intErr => v.Void ∨ v.Odd
  | _ => False

/-- What a step from `v` reports is so, and an error has its reason. -/
def Deed.Answers (faulty : Prop) (v : Home) (M : Names) : Deed → Prop
  | .find k res e => Looks faulty v M k e res
  | .create k res => M k = none ∧ Registers v res
  | .remove k res => M k ≠ none ∧ (res = .ok ∨ res = .diskErr ∧ faulty)
  | .change k _ => M k ≠ none
  | .look _ => True

/-- Along a run, the answers are those of the map, and the directory has what they make
of it. -/
def Follows (faulty : Prop) : Home → Names → List (Deed × Home) → Prop
  | _, _, [] => True
  | v, M, (deed, v') :: l =>
    deed.Answers faulty v M ∧ v'.Has (deed.after M) ∧ Follows faulty v' (deed.after M) l

section
variable {faulty : Prop} {l : Layout} {v v' : Home} {M : Names} {k : Proper} {dp dp₁ dp' : DIR}
  {res : FRESULT} {fs₁ fs' : FATFS} {D₁ D' L : Disk} {m : List DWORD} {i : Nat} {e : Entry}

theorem newEntry_is (k : Proper) : kinds.is k (newEntry k.name) := by
  have attr : newEntry k.name 11 = 0 := rfl
  have name (j : Fin 11) : newEntry k.name (j.castLE (by decide)) = k.name j := dif_pos j.2
  simp only [kinds, attr, named_iff.2 name]
  decide

theorem removed_gone (e : Entry) : kinds.gone (Function.update e 0 ddem) ∧
    kinds.stop (Function.update e 0 ddem) = false := by
  simp [kinds]

/-- What a lookup has come to. -/
theorem find_ends (shown : Shown v.fs.toLayout v.fs v.disk L) (laid : Laid v.fs.toLayout L v.sclust m)
    (ends : Ends (rules faulty) (dirFind v.fs (v.object dp k)) v.disk (res, fs₁, dp₁) D₁) :
    Shown v.fs.toLayout fs₁ D₁ L ∧
      ((res = .ok ∧ ∃ i, kinds.find k (slots v.fs.toLayout L m) = some i ∧
          Found v.fs.toLayout L m fs₁ (v.object dp k) dp₁ i) ∨
        (res = .noFile ∧ kinds.get (slots v.fs.toLayout L m) k = none) ∨
        (res = .intErr ∧ size v.fs.toLayout m = 0) ∨ (res = .diskErr ∧ faulty)) := by
  obtain ⟨shown', result⟩ := ends.of_twp (twp_dirFind shown laid rfl)
  refine ⟨shown', result.imp_right (.imp_left ?_)⟩
  exact fun ⟨missed, none_⟩ => ⟨missed, Kinds.find_none.1 none_⟩

theorem Shown.home (shown : Shown v.fs.toLayout fs' D' L) {M : Names}
    (laid : Laid v.fs.toLayout L v.sclust m) (tidy : kinds.Tidy (slots v.fs.toLayout L m))
    (names : M = kinds.get (slots v.fs.toLayout L m)) : Home.Has ⟨fs', D', v.sclust⟩ M := by
  refine ⟨L, m, ?_⟩
  dsimp only
  rw [shown.layout]
  exact ⟨shown, laid, tidy, names⟩

theorem Home.Has.find (has : v.Has M)
    (ends : Ends (rules faulty) (dirFind v.fs (v.object dp k)) v.disk (res, fs', dp') D') :
    (Deed.find k res (cell fs'.win dp'.dir)).Answers faulty v M ∧ Home.Has ⟨fs', D', v.sclust⟩ M := by
  obtain ⟨L, m, shown, laid, tidy, rfl⟩ := has
  obtain ⟨shown', result⟩ := find_ends shown laid ends
  refine ⟨?_, shown'.home laid tidy rfl⟩
  rcases result with ⟨rfl, i, found, there⟩ | ⟨rfl, none_⟩ | ⟨rfl, empty⟩ | ⟨rfl, bad⟩
  · obtain ⟨a, at_, -, is⟩ := Kinds.get_of_find found
    rw [there.at_.slot there.looked] at at_
    exact is.trans at_.symm
  · exact none_
  · exact ⟨L, m, shown, laid, empty⟩
  · exact bad

theorem Home.Has.create (has : v.Has M)
    (missed : Ends (rules faulty) (dirFind v.fs (v.object dp k)) v.disk (.noFile, fs₁, dp₁) D₁)
    (ends : Ends (rules faulty) (dirRegister fs₁ (v.object dp₁ k)) D₁ (res, fs', dp') D')
    (whole : res ≠ .diskErr) :
    (Deed.create k res).Answers faulty v M ∧ Home.Has ⟨fs', D', v.sclust⟩ ((Deed.create k res).after M) := by
  obtain ⟨L, m, shown, laid, tidy, rfl⟩ := has
  obtain ⟨shown₁, result⟩ := find_ends shown laid missed
  have none_ : kinds.get (slots v.fs.toLayout L m) k = none := by simpa using result
  obtain ⟨L', shown', -, registering⟩ := ends.of_twp (twp_dirRegister shown₁ laid)
  dsimp only at shown' registering
  refine ⟨⟨none_, ?_⟩, ?_⟩
  · cases registering with
    | put registered => trivial
    | denied full why => exact ⟨L, m, shown, laid, full, why⟩
    | odd why => exact why.imp (fun empty => ⟨L, m, shown, laid, empty⟩) fun odd => ⟨L, shown, odd⟩
    | failed bad => exact absurd rfl whole
  cases registering with
  | @put _ _ _ m' i z registered =>
    have more : kinds.get (slots v.fs.toLayout L m ++ z) = kinds.get (slots v.fs.toLayout L m) :=
      Kinds.get_append registered.stops
    have tidy' := tidy.append registered.stops
    have slots' : slots v.fs.toLayout L' m' = (slots v.fs.toLayout L m ++ z).set i (newEntry k.name) :=
      registered.slots
    refine shown'.home registered.laid ?_ ?_
    · rw [slots']
      exact tidy'.insert registered.room (newEntry_is k) (more ▸ none_)
    · rw [slots', Kinds.get_insert tidy' registered.room (newEntry_is k) (more ▸ none_), more]
      rfl
  | denied full why => exact shown'.home laid tidy rfl
  | odd why => exact shown'.home laid tidy rfl
  | failed bad => exact absurd rfl whole

/-- An entry that was found, changed or taken out. -/
theorem Home.Has.replace {L' : Disk} (tidy : kinds.Tidy (slots v.fs.toLayout L m))
    (found : kinds.find k (slots v.fs.toLayout L m) = some i) (shown : Shown v.fs.toLayout fs' D' L')
    (laid : Laid v.fs.toLayout L' v.sclust m)
    (slots' : slots v.fs.toLayout L' m = (slots v.fs.toLayout L m).set i e) (go : kinds.stop e = false)
    (only : ∀ k', kinds.is k' e → k' = k) :
    Home.Has ⟨fs', D', v.sclust⟩
      (Function.update (kinds.get (slots v.fs.toLayout L m)) k (if kinds.is k e then some e else none)) := by
  refine shown.home laid ?_ ?_
  · rw [slots']
    exact tidy.replace found go only
  · rw [slots', Kinds.get_replace found go only tidy]

theorem Home.Has.remove (has : v.Has M)
    (found : Ends (rules faulty) (dirFind v.fs (v.object dp k)) v.disk (.ok, fs₁, dp₁) D₁)
    (ends : Ends (rules faulty) (dirRemove fs₁ dp₁) D₁ (res, fs') D') :
    (Deed.remove k res).Answers faulty v M ∧ Home.Has ⟨fs', D', v.sclust⟩ ((Deed.remove k res).after M) := by
  obtain ⟨L, m, shown, laid, tidy, rfl⟩ := has
  obtain ⟨shown₁, result⟩ := find_ends shown laid found
  obtain ⟨i, at_, there⟩ : ∃ i, kinds.find k (slots v.fs.toLayout L m) = some i ∧ _ := by simpa using result
  obtain ⟨a, -, -, is⟩ := Kinds.get_of_find at_
  have some_ : kinds.get (slots v.fs.toLayout L m) k ≠ none := by simp [is]
  obtain ⟨L', shown', laid', ⟨rfl, e, -, slots'⟩ | ⟨rfl, bad, rfl⟩⟩ :=
    ends.of_twp (twp_dirRemove shown₁ laid there.at_)
  · dsimp only at shown'
    obtain ⟨gone, go⟩ := removed_gone e
    have not_is (k' : Proper) : kinds.is k' (Function.update e 0 ddem) = false := by
      rw [Bool.eq_false_iff]
      intro is
      rw [(kinds.live is).2] at gone
      cases gone
    refine ⟨⟨some_, .inl rfl⟩, ?_⟩
    have has' := Home.Has.replace tidy at_ shown' laid' slots' go fun k' is' => by
      rw [not_is] at is'
      cases is'
    rw [not_is] at has'
    exact has'
  · exact ⟨⟨some_, .inr ⟨rfl, bad⟩⟩, shown'.home laid tidy rfl⟩

theorem Home.Has.change (has : v.Has M)
    (found : Ends (rules faulty) (dirFind v.fs (v.object dp k)) v.disk (.ok, fs₁, dp₁) D₁)
    (moved : Ends (rules faulty) (moveWindow fs₁ dp₁.sect) D₁ (.ok, fs') D') (same : kinds.is k e) :
    (Deed.change k e).Answers faulty v M ∧
      Home.Has ⟨fs'.modify (putCell fs'.win dp₁.dir e), D', v.sclust⟩ ((Deed.change k e).after M) := by
  obtain ⟨L, m, shown, laid, tidy, rfl⟩ := has
  obtain ⟨shown₁, result⟩ := find_ends shown laid found
  obtain ⟨i, at_, there⟩ : ∃ i, kinds.find k (slots v.fs.toLayout L m) = some i ∧ _ := by simpa using result
  obtain ⟨a, -, -, is⟩ := Kinds.get_of_find at_
  obtain ⟨shown₂, result₂⟩ := moved.of_twp (twp_look shown₁ laid there.at_)
  have looked : Looked v.fs.toLayout L m fs' i := by simpa using result₂
  have written (j : Nat) : cell (putCell fs'.win dp₁.dir e) (j * 32) =
      if j = i % 16 then e else cell fs'.win (j * 32) := by
    rw [there.at_.dir, cell_putCell]
  obtain ⟨L', shown', laid', slots', -⟩ := shown₂.write laid looked there.at_.inside written
  refine ⟨by show kinds.get _ k ≠ none; simp [is], ?_⟩
  have has' := Home.Has.replace tidy at_ shown' laid' slots' (kinds.live same).1 fun k' is' => kinds.unique is' same
  rw [if_pos same] at has'
  exact has'

theorem Home.Has.look {sect : DWORD} (has : v.Has M) (own : v.fs.toLayout.Own sect)
    (ends : Ends (rules faulty) (moveWindow v.fs sect) v.disk (res, fs') D') : Home.Has ⟨fs', D', v.sclust⟩ M := by
  obtain ⟨L, m, shown, laid, tidy, rfl⟩ := has
  obtain ⟨shown', -⟩ := ends.of_twp (twp_window shown own)
  exact shown'.home laid tidy rfl

/-! ## Steps and runs -/

theorem Step.follows {deed : Deed} (step : Step faulty deed v v') (has : v.Has M) :
    deed.Answers faulty v M ∧ v'.Has (deed.after M) := by
  cases step with
  | find ends => exact has.find ends
  | create missed ends whole => exact has.create missed ends whole
  | remove found ends => exact has.remove found ends
  | change found moved same => exact has.change found moved same
  | look own ends => exact ⟨trivial, has.look own ends⟩

end

/-! ## A small root -/

/-- A static root without entries. -/
def sampleHome : Home := ⟨sample.fs, sample.disk, 0⟩

theorem laid_sample : Laid sample.fs.toLayout (fun _ _ => 0) 0 [] where
  root := ⟨by decide, fun _ => by decide, fun _ => by decide⟩
  start := rfl
  static _ := by decide
  linked := trivial
  inside := by simp

theorem slots_sample : slots sample.fs.toLayout (fun _ _ => 0) [] = List.replicate 16 fun _ => 0 := rfl

theorem shown_sample : Shown sample.fs.toLayout sample.fs sample.disk fun _ _ => 0 :=
  ⟨rfl, fun _ => id, fun _ => .inl, fun _ _ _ => rfl, fun _ => rfl⟩

theorem stops_sample : ∀ e ∈ slots sample.fs.toLayout (fun _ _ => 0) [], kinds.stop e := by
  intro e mem
  rw [slots_sample] at mem
  rw [List.eq_of_mem_replicate mem]
  rfl

theorem has_sample : sampleHome.Has fun _ => none :=
  ⟨_, _, shown_sample, laid_sample, Kinds.Tidy.nil.append stops_sample, (funext (Kinds.get_stops stops_sample)).symm⟩

theorem found_of_has (faulty : Prop) {v : Home} {M : Names} (has : v.Has M) (dp : DIR) (k : Proper) :
    ∃ res fs' dp' D', Ends (rules faulty) (dirFind v.fs (v.object dp k)) v.disk (res, fs', dp') D' := by
  obtain ⟨L, m, shown, laid, -⟩ := has
  obtain ⟨⟨res, fs', dp'⟩, D', ends⟩ := exists_ends faulty (p := dirFind v.fs (v.object dp k))
    (twp_dirFind shown laid (k := k) rfl)
  exact ⟨res, fs', dp', D', ends⟩

end FatFsParticle.Dirs
