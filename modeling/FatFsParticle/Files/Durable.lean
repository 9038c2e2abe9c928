import FatFsParticle.Files.Closing

/-!
# What is on the disk

A directory entry that is new, or that an `f_sync` could not write, is in the window of
the volume until the window goes to the disk: for another sector on the way of some later
call, or for `f_sync`. What the disk has of the entry after a call is what it had before,
or all of it if one of these writes went well.
-/

namespace FatFsParticle.Files
open Interact Program Cells Volume

variable {Name : Type} {n m : Name} {v v' : Volume Name} {f : Node}

/-! ## Contents -/

theorem covered_le {k : Nat} (h : v.covered n = some k) : k ≤ v.size n := by
  obtain ⟨f, at_, covers⟩ := Option.bind_eq_some_iff.1 h
  rw [size_some at_]
  exact Node.covered_le covers

theorem entered_iff : v.entered n = true ↔ v.covered n = some (v.size n) := by
  unfold entered
  cases at_ : v.node n with
  | none =>
    rw [covered_none at_]
    exact iff_of_false Bool.false_ne_true nofun
  | some f =>
    rw [covered_some at_, size_some at_]
    exact Node.entered_iff

/-- Where a file has the bytes it had, the disk has what it had if and only if its entry
there covers as many of them. -/
theorem stored_eq_iff (same : v'.contents n = v.contents n) :
    v'.stored n = v.stored n ↔ v'.covered n = v.covered n := by
  have longer (d : Nat → BYTE) : Function.Injective (slice d 0) := by
    intro a b eq
    have length := congrArg List.length eq
    rwa [length_slice, length_slice] at length
  unfold Volume.contents at same
  cases at_ : v.node n with
  | none =>
    rw [at_] at same
    have none_ : v'.node n = none := Option.map_eq_none_iff.1 same
    unfold Volume.stored
    rw [covered_none at_, covered_none none_]
    exact iff_of_true rfl rfl
  | some f =>
    rw [at_] at same
    obtain ⟨f', at', eq⟩ := Option.map_eq_some_iff.1 same
    obtain ⟨size, bytes⟩ := slice_zero_eq_iff.1 eq
    have stored : v'.stored n = (v'.covered n).map (slice (v.data n) 0) := by
      apply Option.map_congr
      intro k covers
      have le := covered_le covers
      rw [size_some at'] at le
      rw [data_some at', data_some at_]
      exact slice_congr fun i _ lt => bytes i (by omega)
    rw [stored]
    exact (Option.map_injective (longer _)).eq_iff

/-! ## Events -/

/-- The event brings the entry of `n` to the disk if it was in the window. -/
def Event.Puts (n : Name) : Event Name → Prop
  | .answered (.window m) written => m = n ∧ written = true
  | .answered (.createChain m) c => m = n ∧ ∀ f, c ≠ .fault f
  | .answered (.syncFs m) a => m = n ∧ a ≠ some false
  | _ => False

def Put (n : Name) (log : List (Event Name)) : Prop := ∃ e ∈ log, e.Puts n

theorem put_append {new old : List (Event Name)} : Put n (new ++ old) ↔ Put n old ∨ Put n new := by
  unfold Put
  constructor
  · rintro ⟨e, mem, puts⟩
    rcases List.mem_append.1 mem with mem | mem
    · exact .inr ⟨e, mem, puts⟩
    · exact .inl ⟨e, mem, puts⟩
  · rintro (⟨e, mem, puts⟩ | ⟨e, mem, puts⟩)
    · exact ⟨e, List.mem_append_right _ mem, puts⟩
    · exact ⟨e, List.mem_append_left _ mem, puts⟩

theorem put_returned {c : Call} {res : FRESULT} {count : Nat} {log : List (Event Name)} :
    Put n (.returned c m res count :: log) ↔ Put n log := by
  unfold Put
  simp [Event.Puts]

theorem Outside.Finds.silent {o : Outside Name} (h : o.Finds n) (a : o.Ans) (m : Name) :
    ¬(Event.answered o a).Puts m := by
  cases o with
  | window | createChain | syncFs => exact h.elim
  | _ => exact id

theorem Outside.Stores.silent {o : Outside Name} (h : o.Stores n) (a : o.Ans) (m : Name) :
    ¬(Event.answered o a).Puts m := by
  cases o with
  | window | createChain | syncFs => exact h.elim
  | _ => exact id

/-- Only what is asked for the open file `n` brings its entry to the disk. -/
theorem Event.Puts.own {o : Outside Name} {a : o.Ans} (h : (Event.answered o a).Puts n) :
    o.Moves n ∨ o.Enters n := by
  cases o with
  | window | createChain => exact .inl h.1
  | syncFs => exact .inr h.1
  | _ => exact h.elim

variable {s t u : Snap Name}

/-- From `s` to `t`, the file `n` kept its length; if an event put its entry on the disk, the
disk has all of it, and otherwise what it had. -/
def Follows (n : Name) (s t : Snap Name) : Prop :=
  ∃ new, t.log = new ++ s.log ∧ t.vol.size n = s.vol.size n ∧
    (Put n new → t.vol.covered n = some (s.vol.size n)) ∧ (¬Put n new → t.vol.covered n = s.vol.covered n)

/-- From `s` to `t`, an entry of `n` came to the disk if and only if an event put it there. -/
def Places (n : Name) (s t : Snap Name) : Prop :=
  ∃ new, t.log = new ++ s.log ∧
    ((t.vol.covered n).isSome ↔ (s.vol.covered n).isSome ∨ Put n new)

theorem not_put_nil : ¬Put n ([] : List (Event Name)) := by
  rintro ⟨e, no, -⟩
  cases no

theorem put_singleton {e : Event Name} : Put n [e] ↔ e.Puts n := by
  unfold Put
  simp

namespace Follows

theorem of_adds {E : Event Name → Prop} (adds : Adds E s.log t.log) (silent : ∀ e, E e → ¬e.Puts n)
    (size : t.vol.size n = s.vol.size n) (same : t.vol.covered n = s.vol.covered n) : Follows n s t := by
  obtain ⟨new, log, only⟩ := adds
  refine ⟨new, log, size, ?_, fun _ => same⟩
  rintro ⟨e, mem, puts⟩
  exact absurd puts (silent e (only e mem))

theorem refl (n : Name) (s : Snap Name) : Follows n s s :=
  ⟨[], rfl, rfl, fun puts => absurd puts not_put_nil, fun _ => rfl⟩

theorem trans (h : Follows n s t) (h' : Follows n t u) : Follows n s u := by
  obtain ⟨new, log, size, puts, keeps⟩ := h
  obtain ⟨new', log', size', puts', keeps'⟩ := h'
  refine ⟨new' ++ new, by rw [log', log, List.append_assoc], size'.trans size, ?_, ?_⟩
  · rw [put_append]
    intro put
    by_cases late : Put n new'
    · rw [puts' late, size]
    · rw [keeps' late]
      exact puts (put.resolve_right late)
  · rw [put_append, not_or]
    rintro ⟨first, late⟩
    rw [keeps' late, keeps first]

/-- One event, and what the code made of it. -/
theorem step {e : Event Name} (size : v.size n = s.vol.size n)
    (puts : e.Puts n → v.covered n = some (s.vol.size n))
    (keeps : ¬e.Puts n → v.covered n = s.vol.covered n) : Follows n s ((s.logged e).withVol v) :=
  ⟨[e], rfl, size, fun put => puts (put_singleton.1 put), fun put => keeps fun is => put (put_singleton.2 is)⟩

theorem silent {e : Event Name} (quiet : ¬e.Puts n) (size : v.size n = s.vol.size n)
    (same : v.covered n = s.vol.covered n) : Follows n s ((s.logged e).withVol v) :=
  step size (fun puts => absurd puts quiet) fun _ => same

theorem logged {e : Event Name} (quiet : ¬e.Puts n) : Follows n s (s.logged e) :=
  silent (v := s.vol) quiet rfl rfl

theorem withVol (size : v.size n = s.vol.size n) (same : v.covered n = s.vol.covered n) :
    Follows n s (s.withVol v) :=
  ⟨[], rfl, size, fun puts => absurd puts not_put_nil, fun _ => same⟩

theorem places (h : Follows n s t) : Places n s t := by
  obtain ⟨new, log, -, puts, keeps⟩ := h
  refine ⟨new, log, ?_⟩
  by_cases put : Put n new
  · rw [puts put]
    exact iff_of_true rfl (.inr put)
  · rw [keeps put, or_iff_left put]

/-- Where the file has the bytes it had, the disk is as it was if and only if nothing was put
there or all was there before. -/
theorem stored_iff (h : Follows n s t) (same : t.vol.contents n = s.vol.contents n) :
    ∃ new, t.log = new ++ s.log ∧
      (t.vol.stored n = s.vol.stored n ↔ s.vol.entered n = true ∨ ¬Put n new) := by
  obtain ⟨new, log, -, puts, keeps⟩ := h
  refine ⟨new, log, (stored_eq_iff same).trans ?_⟩
  by_cases put : Put n new
  · rw [puts put, or_iff_left (not_not_intro put), entered_iff, eq_comm]
  · rw [keeps put]
    exact iff_of_true rfl (.inr put)

end Follows

namespace Places

theorem trans (h : Places n s t) (h' : Places n t u) : Places n s u := by
  obtain ⟨new, log, covers⟩ := h
  obtain ⟨new', log', covers'⟩ := h'
  refine ⟨new' ++ new, by rw [log', log, List.append_assoc], ?_⟩
  rw [covers', covers, put_append, or_assoc]

/-- One event, and what the code made of it. -/
theorem step {e : Event Name} (h : (v.covered n).isSome ↔ (s.vol.covered n).isSome ∨ e.Puts n) :
    Places n s ((s.logged e).withVol v) := by
  refine ⟨[e], rfl, ?_⟩
  rw [put_singleton]
  exact h

theorem withVol (same : (v.covered n).isSome = (s.vol.covered n).isSome) : Places n s (s.withVol v) := by
  refine ⟨[], rfl, ?_⟩
  rw [or_iff_left not_put_nil, Snap.withVol_vol, same]

end Places

/-- What the disk has of the file `n` if it was `g` when the log began. -/
def Tells (n : Name) (g : Node) (s : Snap Name) : Prop :=
  (Put n s.log → s.vol.covered n = some g.size.toNat) ∧ (¬Put n s.log → s.vol.covered n = g.covered)

theorem Follows.tells {g : Node} (h : Follows n s t) (size : s.vol.size n = g.size.toNat)
    (before : Tells n g s) : Tells n g t := by
  obtain ⟨new, log, -, puts, keeps⟩ := h
  unfold Tells
  rw [log, put_append]
  by_cases late : Put n new
  · exact ⟨fun _ => (puts late).trans (congrArg some size), fun none_ => absurd (.inr late) none_⟩
  · rw [or_iff_left late, keeps late]
    exact before

/-! ## Programs -/

variable {α β : Type} {G : Answers Name} {R : α → Prop} {R' : β → Prop} {fp : FIL Name}

/-- From any state with the file `n`, `p` leaves the file there, as often open as before and
with what the log says of its entry, and ends with a result of `R`. -/
def Tracks (G : Answers Name) (n : Name) (R : α → Prop) (p : Prog Name α) : Prop :=
  ∀ s : Snap Name, (s.vol.node n).isSome →
    p.wp (rules G) (fun a t => R a ∧ (t.vol.node n).isSome ∧ t.vol.ctr n = s.vol.ctr n ∧ Follows n s t) s

theorem tracks_pure {a : α} (h : R a) : Tracks G n R (pure a) :=
  fun s there => ⟨h, there, rfl, .refl n s⟩

theorem tracks_bind {p : Prog Name α} {g : α → Prog Name β} (hp : Tracks G n R p)
    (hg : ∀ a, R a → Tracks G n R' (g a)) : Tracks G n R' (p >>= g) := by
  intro s there
  rw [wp_bind]
  apply wp_mono (hp s there)
  rintro a t ⟨holds, there', ctr, before⟩
  apply wp_mono (hg a holds t there')
  rintro b u ⟨holds', there'', ctr', after⟩
  exact ⟨holds', there'', ctr'.trans ctr, before.trans after⟩

theorem tracks_load : Tracks G n (fun _ => True) load :=
  fun s there => (wp_load _ _ _).2 ⟨trivial, there, rfl, .refl n s⟩

theorem tracks_ask {o : Outside Name} (quiet : ∀ a, ¬(Event.answered o a).Puts n) :
    Tracks G n (fun _ => True) (ask o) :=
  fun _ there => (wp_ask _ _ _ _).2 fun a _ => ⟨trivial, there, rfl, .logged (quiet a)⟩

theorem tracks_noted {c : Call} {k : Name} {out : α → FRESULT × Nat} {p : Prog Name α}
    (hp : Tracks G n R p) : Tracks G n R (noted c k out p) := by
  intro s there
  rw [wp_noted]
  apply wp_mono (hp s there)
  rintro a t ⟨holds, there', ctr, follows⟩
  exact ⟨holds, there', ctr, follows.trans (.logged id)⟩

theorem validate_tracks : Tracks G n (fun _ => True) (validate fp) := by
  unfold validate
  split
  · exact tracks_ask fun _ => id
  · exact tracks_pure trivial

theorem check_tracks : Tracks G n (fun _ => True) (check fp) :=
  tracks_bind validate_tracks fun _ _ => tracks_pure trivial

theorem fill_tracks (name : fp.name = n) (i : Nat) : Tracks G n (fun r => r.2.name = n) (fill fp i) := by
  unfold fill
  apply tracks_bind (tracks_ask fun _ => id)
  intro ok _
  apply tracks_bind tracks_load
  intro v _
  cases ok <;> exact tracks_pure name

/-! ## Changes of a file -/

variable [DecidableEq Name]

theorem covered_stretch (there : (v.node n).isSome) : (v.stretch n).covered n = some (v.size n) := by
  obtain ⟨f, at_⟩ := Option.isSome_iff_exists.1 there
  unfold stretch
  simp only [at_]
  rw [covered_some (node_setNode v n _), Node.enter_covered, size_some at_]

omit [DecidableEq Name] in
theorem isSome_pending (h : v.pending n = true) : (v.node n).isSome := by
  unfold pending at h
  cases at_ : v.node n with
  | none =>
    rw [at_] at h
    cases h
  | some f => rfl

theorem MovedOn.follows (h : MovedOn n s t) : Follows n s t := by
  cases h with
  | idle => exact .refl n s
  | kept => exact .logged fun puts => nomatch puts.2
  | written pending =>
    have there := isSome_pending pending
    exact .step ((touches_enter _ _).same_size there) (fun _ => covered_enter there)
      fun quiet => absurd ⟨rfl, rfl⟩ quiet

/-! ## Writing -/

theorem moveOn_tracks : Tracks G n (fun _ => True) (moveOn n) := by
  intro s there
  apply wp_mono (wp_moveOn n s)
  intro _ t moved
  have touches := moved.touches.1
  exact ⟨trivial, touches.isSome there, touches.ctr, moved.follows⟩

theorem diskWrite_tracks (off : Nat) (bytes : List BYTE) (count : Nat) :
    Tracks G n (fun _ => True) (diskWrite n off bytes count) := by
  intro s there
  rw [wp_diskWrite]
  intro a _
  have touches := touches_writeData s.vol n off (a.elim bytes fun k => bytes.take (k * ss))
  exact ⟨trivial, touches.isSome there, touches.ctr,
    .silent id (touches.same_size there) (covered_writeData _ _ _ _)⟩

theorem writeBack_tracks (name : fp.name = n) : Tracks G n (fun r => r.2.name = n) (writeBack fp) := by
  unfold writeBack
  split
  · subst name
    apply tracks_bind (diskWrite_tracks _ _ _)
    intro ok _
    cases ok <;> exact tracks_pure rfl
  · exact tracks_pure name

theorem stretchCluster_tracks (name : fp.name = n) :
    Tracks G n (fun r => r.2.name = n) (stretchCluster fp) := by
  unfold stretchCluster
  split
  · split
    · exact tracks_pure name
    · subst name
      apply tracks_bind (tracks_ask fun _ => id)
      intro f _
      exact tracks_bind moveOn_tracks fun _ _ => tracks_pure rfl
  subst name
  intro s there
  rw [wp_bind]
  apply (wp_ask _ _ _ _).2
  intro c _
  have came {v : Volume Name} (fine : ∀ f, c ≠ .fault f) (touches : Touches fp.name s.vol v)
      (covers : v.covered fp.name = some (s.vol.size fp.name)) :
      Follows fp.name s ((s.logged (.answered (.createChain fp.name) c)).withVol v) :=
    .step (touches.same_size there) (fun _ => covers) fun quiet => absurd ⟨rfl, fine⟩ quiet
  cases c with
  | done =>
    have touches := touches_stretch s.vol fp.name
    rw [wp_bind, wp_store, wp_pure]
    exact ⟨rfl, touches.isSome there, touches.ctr, came (fun _ => nofun) touches (covered_stretch there)⟩
  | full =>
    have touches := touches_enter s.vol fp.name
    rw [wp_bind, wp_store, wp_pure]
    exact ⟨rfl, touches.isSome there, touches.ctr, came (fun _ => nofun) touches (covered_enter there)⟩
  | fault f =>
    rw [wp_bind]
    apply wp_mono (moveOn_tracks (s.logged _) there)
    rintro _ t ⟨-, there', ctr, follows⟩
    have asked : Follows fp.name s (s.logged (.answered (.createChain fp.name) (.fault f))) :=
      .logged fun puts => puts.2 f rfl
    exact ⟨rfl, there', ctr, asked.trans follows⟩

theorem writeSectors_tracks (name : fp.name = n) (bytes : List BYTE) :
    Tracks G n (fun r => r.2.1.name = n) (writeSectors fp bytes) := by
  unfold writeSectors
  subst name
  apply tracks_bind (diskWrite_tracks _ _ _)
  intro ok _
  cases ok with
  | true => exact tracks_pure (refill_name _ _ _)
  | false => exact tracks_pure rfl

theorem writeTurn_tracks (name : fp.name = n) (bytes : List BYTE) :
    Tracks G n (fun r => r.2.1.name = n) (writeTurn fp bytes) := by
  unfold writeTurn
  split
  · exact tracks_pure name
  have stretch : Tracks G n (fun r => r.2.name = n)
      (if fp.fptr / ss % fp.csize = 0 then stretchCluster fp else pure (some .ok, fp)) := by
    split
    · exact stretchCluster_tracks name
    · exact tracks_pure name
  apply tracks_bind stretch
  rintro ⟨res, fp₁⟩ name₁
  dsimp only
  split
  · exact tracks_pure name₁
  apply tracks_bind (writeBack_tracks name₁)
  rintro ⟨res, fp₂⟩ name₂
  dsimp only
  split
  · exact tracks_pure name₂
  split
  · exact writeSectors_tracks name₂ bytes
  have fill : Tracks G n (fun r => r.2.name = n)
      (if fp₂.sect ≠ some (fp₂.fptr / ss) ∧ fp₂.fptr < fp₂.objsize then fill fp₂ (fp₂.fptr / ss)
      else pure (.ok, fp₂)) := by
    split
    · exact fill_tracks name₂ _
    · exact tracks_pure name₂
  apply tracks_bind fill
  rintro ⟨res, fp₃⟩ name₃
  dsimp only
  split
  · exact tracks_pure name₃
  · exact tracks_pure name₃

theorem writeLoop_tracks (turns : Nat) (name : fp.name = n) (bytes : List BYTE) (bw : Nat) :
    Tracks G n (fun r => r.2.1.name = n) (writeLoop turns fp bytes bw) := by
  induction turns generalizing fp bytes bw with
  | zero => exact tracks_pure name
  | succ turns ih =>
    unfold writeLoop
    split
    · exact tracks_pure name
    apply tracks_bind (writeTurn_tracks name bytes)
    rintro ⟨res, fp₁, k⟩ name₁
    dsimp only
    split
    · exact tracks_pure name₁
    · have name₂ : ({ fp₁ with fptr := fp₁.fptr + k, objsize := max (fp₁.fptr + k) fp₁.objsize } :
          FIL Name).name = n := name₁
      exact ih name₂ _ _
    · exact tracks_pure name₁

theorem fWrite_tracks (name : fp.name = n) (bytes : List BYTE) :
    Tracks G n (fun r => r.2.1.name = n) (fWrite fp bytes) := by
  apply tracks_noted
  apply tracks_bind check_tracks
  intro res _
  split
  · exact tracks_pure name
  split
  · exact tracks_pure name
  · exact writeLoop_tracks _ name _ _

/-! ## Closing -/

theorem syncEntry_places (name : fp.name = n) (there : (s.vol.node n).isSome) :
    (syncEntry fp).wp (rules G) (fun r t => r.2.name = n ∧ (t.vol.node n).isSome ∧
      t.vol.ctr n = s.vol.ctr n ∧ Places n s t ∧ (r.1 = .ok → t.vol.entered n = true)) s := by
  subst name
  unfold syncEntry
  rw [wp_bind]
  apply (wp_ask _ _ _ _).2
  intro ok _
  have moved : Places fp.name s (s.logged (.answered (.moveWindow fp.name) ok)) :=
    (Follows.logged id).places
  split
  · exact ⟨rfl, there, rfl, moved, nofun⟩
  have noted := isSome_record there fp.objsize fp.clusters
  have same : ((s.vol.record fp.name fp.objsize fp.clusters).covered fp.name).isSome =
      (s.vol.covered fp.name).isSome := by
    rw [covered_record, Option.isSome_map]
  have before := moved.trans (.withVol same)
  have ctr := ctr_record s.vol fp.name fp.objsize fp.clusters
  rw [wp_bind, wp_store, wp_bind]
  apply (wp_ask _ _ _ _).2
  intro failed _
  rw [wp_bind, wp_store, wp_pure]
  by_cases lost : failed = some false
  · rw [if_pos lost]
    refine ⟨rfl, noted, ctr, before.trans (.step ?_), ?_⟩
    · rw [or_iff_left fun puts => puts.2 lost]
      exact Iff.rfl
    · rw [lost]
      exact nofun
  · rw [if_neg lost]
    have covers := covered_enter noted
    have touches := touches_enter (s.vol.record fp.name fp.objsize fp.clusters) fp.name
    refine ⟨rfl, touches.isSome noted, touches.ctr.trans ctr, before.trans (.step ?_), fun _ => ?_⟩
    · exact iff_of_true (congrArg Option.isSome covers) (.inr ⟨rfl, lost⟩)
    · exact entered_iff.2 (covers.trans (congrArg some (touches.same_size noted).symm))

theorem fSync_places (name : fp.name = n) (there : (s.vol.node n).isSome) : (fSync fp).wp (rules G)
    (fun r t => r.2.name = n ∧ (t.vol.node n).isSome ∧ t.vol.ctr n = s.vol.ctr n ∧ Places n s t ∧
      (r.1 = .ok → fp.has faModified = true → t.vol.entered n = true)) s := by
  have noted {res : FRESULT} {t : Snap Name} (h : Places n s t) :
      Places n s (t.logged (.returned .sync fp.name res 0)) :=
    h.trans (Follows.logged id).places
  unfold fSync
  rw [wp_noted, wp_bind]
  apply wp_mono (validate_tracks s there)
  rintro res t ⟨-, there', ctr, valid⟩
  split
  · rename_i bad
    exact ⟨name, there', ctr, noted valid.places, fun ok => absurd ok bad⟩
  split
  · rename_i clean
    refine ⟨name, there', ctr, noted valid.places, fun _ modified => ?_⟩
    rw [modified] at clean
    cases clean
  rw [wp_bind]
  apply wp_mono (writeBack_tracks name t there')
  rintro ⟨res, fp₁⟩ u ⟨name₁, there'', ctr₁, back⟩
  have before : Places n s u := (valid.trans back).places
  dsimp only at name₁ ⊢
  split
  · rename_i bad
    exact ⟨name₁, there'', ctr₁.trans ctr, noted before, fun ok => absurd ok bad⟩
  apply wp_mono (syncEntry_places name₁ there'')
  rintro r u' ⟨name₂, there₃, ctr₂, places, entered⟩
  exact ⟨name₂, there₃, ctr₂.trans (ctr₁.trans ctr), noted (before.trans places), fun ok _ => entered ok⟩

/-- Closing puts the entry on the disk where it succeeds and there was something to record;
where it fails, the file stays open. -/
theorem fClose_places (name : fp.name = n) (there : (s.vol.node n).isSome) : (fClose fp).wp (rules G)
    (fun r t => Places n s t ∧ (r.1 = .ok → fp.has faModified = true → t.vol.entered n = true) ∧
      (r.1 ≠ .ok → t.vol.ctr n = s.vol.ctr n)) s := by
  have noted {res : FRESULT} {t : Snap Name} (h : Places n s t) :
      Places n s (t.logged (.returned .close fp.name res 0)) :=
    h.trans (Follows.logged id).places
  unfold fClose
  rw [wp_noted, wp_bind]
  apply wp_mono (fSync_places name there)
  rintro ⟨res, fp₁⟩ t ⟨name₁, there', ctr, synced, entered⟩
  dsimp only at name₁ entered ⊢
  split
  · rename_i bad
    exact ⟨noted synced, fun ok => absurd ok bad, fun _ => ctr⟩
  rename_i fine
  have entered := entered (by simpa using fine)
  have valid (r : FRESULT) : Places n s (t.logged (.answered (.validate fp₁.name) r)) :=
    synced.trans (Follows.logged id).places
  rw [wp_bind]
  apply wp_validate
  · exact fun _ => ⟨noted synced, (fun no => nomatch no), fun _ => ctr⟩
  intro _ r _
  split
  · rename_i bad
    exact ⟨noted (valid r), fun ok => absurd ok bad, fun _ => ctr⟩
  subst name₁
  rw [wp_bind, wp_store, wp_pure]
  have same := covered_decLock t.vol fp₁.name
  refine ⟨noted ((valid r).trans (.withVol (congrArg Option.isSome same))), fun _ modified => ?_,
    fun bad => absurd rfl bad⟩
  exact entered_iff.2 (same.trans ((entered_iff.1 (entered modified)).trans
    (congrArg some (locks_decLock t.vol fp₁.name).size.symm)))

/-- Where nothing is to be recorded, closing changes no file. -/
theorem wp_fClose_unmodified (clean : fp.has faModified = false) :
    (fClose fp).wp (rules G) (fun _ t => Locks fp.name s.vol t.vol ∧ Follows fp.name s t) s := by
  have told {c : Call} {res : FRESULT} {t : Snap Name} (h : Follows fp.name s t) :
      Follows fp.name s (t.logged (.returned c fp.name res 0)) :=
    h.trans (.logged id)
  unfold fClose fSync
  rw [wp_noted, wp_bind, wp_noted, wp_bind]
  apply wp_validate
  · intro _
    exact ⟨.refl _ _, told (told (.refl _ _))⟩
  intro _ r _
  have valid : Follows fp.name s (s.logged (.answered (.validate fp.name) r)) := .logged id
  split
  · rename_i bad
    rw [wp_pure]
    dsimp only
    rw [if_pos bad]
    exact ⟨.refl _ _, told (told valid)⟩
  rename_i fine
  have ok : r = .ok := by simpa using fine
  subst ok
  rw [clean]
  simp only [Bool.not_false, if_true, wp_pure, ne_eq, not_true_eq_false, if_false]
  rw [wp_bind]
  apply wp_validate
  · intro _
    exact ⟨.refl _ _, told (told valid)⟩
  intro _ r _
  have synced : Follows fp.name s ((s.logged (.answered (.validate fp.name) .ok)).logged
      (.returned .sync fp.name .ok 0)) := told valid
  have valid' := synced.trans (.logged (e := .answered (.validate fp.name) r) id)
  split
  · exact ⟨.refl _ _, told valid'⟩
  · rw [wp_bind, wp_store]
    have locks := locks_decLock s.vol fp.name
    have released : Follows fp.name s _ :=
      valid'.trans (.withVol (v := decLock s.vol fp.name) locks.size (covered_decLock _ _))
    exact ⟨locks, told released⟩

/-! ## Opening -/

variable {mode : BYTE}

theorem OpenEnd.size {res : FRESULT} (h : OpenEnd n mode s res fp t) : t.vol.size n = s.vol.size n := by
  cases h with
  | failed _ locks => exact locks.size
  | opened o => exact o.locks.size.trans ((size_some (node_setNode _ _ _)).trans o.size.symm)

theorem wp_fOpen_follows (keeping : Keeping mode) :
    (fOpen n mode).wp (rules G) (fun _ t => Follows n s t) s := by
  have found (path : FRESULT) :
      Emits (fun e => ¬e.Puts n) (fun r => r.2.name = n) (openFound n mode path) :=
    openFound_emits (fun o a finds => finds.silent a n) mode path
  unfold fOpen
  rw [wp_noted, keeping.plain, wp_bind]
  apply (wp_ask _ _ _ _).2
  intro r _
  have volume : Follows n s (s.logged (.answered (.findVolume n) r)) := .logged id
  split
  · exact volume.trans (.logged id)
  rw [wp_bind]
  apply (wp_ask _ _ _ _).2
  intro path _
  rw [wp_bind]
  apply wp_mono (wp_moveOn n _)
  intro _ t moved
  have before : Follows n s t := (volume.trans (.logged id)).trans moved.follows
  apply wp_mono (wp_and (wp_openFound keeping path.2) ((found path.1).wp t))
  rintro r u ⟨⟨end_, same⟩, -, adds⟩
  exact (before.trans (.of_adds adds (fun _ => id) end_.size same)).trans (.logged id)

end FatFsParticle.Files
