import FatFsParticle.Globs.Matching
import FatFsParticle.Paths.Segments

/-!
# Patterns of names

`pattern_matching` walks along the pattern and the name, calls itself behind wildcards, and
tries again one character later where a `*` was before. It gives up where the name was used
up, as no shorter rest can match then either.
-/

namespace FatFsParticle.Paths
open Globs
open Drives (TCHAR)

abbrev question : TCHAR := 0x3F
abbrev star : TCHAR := 0x2A

/-- `get_achar` of a string without its terminating zero. -/
def getAchar (s : List TCHAR) : BYTE := upper (s.headD 0)

/-- The loop over the wildcards: how many `?`, whether there is a `*`, and what follows. -/
def wildLoop : Nat → Bool → List TCHAR → Nat × Bool × List TCHAR
  | nm, nx, [] => (nm, nx, [])
  | nm, nx, c :: pp =>
    if c = question then wildLoop (nm + 1) nx pp
    else if c = star then wildLoop nm true pp
    else (nm, nx, c :: pp)

/-- The inner loop: whether the branch matched, and `nc` where it did not. `match_` is the
call of the function itself. -/
def compareLoop (match_ : List TCHAR → List TCHAR → Nat → Bool → Option Bool) :
    List TCHAR → List TCHAR → Option (Bool × BYTE)
  | [], np => some (getAchar np = 0, getAchar np)
  | c :: pp, np =>
    if c = question ∨ c = star then
      let (nm, nx, pp) := wildLoop 0 false (c :: pp)
      (match_ pp np nm nx).map fun matched => if matched then (true, 0) else (false, np.headD 0)
    else if upper c ≠ getAchar np then some (false, getAchar np)
    else if upper c = 0 then some (true, 0)
    else compareLoop match_ pp np.tail

/-- The outer loop, which begins again one character later. -/
def searchLoop (compare : List TCHAR → Option (Bool × BYTE)) (inf : Bool) : List TCHAR → Option Bool
  | [] => (compare []).map Prod.fst
  | c :: nam => do
    let (matched, nc) ← compare (c :: nam)
    if matched then some true
    else if inf ∧ nc ≠ 0 then searchLoop compare inf nam
    else some false

/-- `pattern_matching`, cut off where it would be within itself for the time `calls`. -/
def patternMatching : Nat → List TCHAR → List TCHAR → Nat → Bool → Option Bool
  | 0, _, _, _, _ => none
  | calls + 1, pat, nam, skip, inf =>
    if nam.length < skip then some false
    else if pat = [] ∧ inf then some true
    else searchLoop (compareLoop (patternMatching calls) pat) inf (nam.drop skip)

/-! ## What is matched -/

def token (c : TCHAR) : Token TCHAR := if c = question then .one else if c = star then .many else .lit c

def tokens (pat : List TCHAR) : List (Token TCHAR) := pat.map token

/-- Case does not matter. -/
def Alike (a b : TCHAR) : Prop := upper a = upper b

/-- The blocks of wildcards in a pattern; `inside` tells that one has begun before. -/
def blocks (inside : Bool) : List TCHAR → Nat
  | [] => 0
  | c :: pp =>
    if c = question ∨ c = star then (if inside then 0 else 1) + blocks true pp else blocks false pp

/-- No zero ends the string before its end. -/
def Whole (s : List TCHAR) : Prop := ∀ c ∈ s, c ≠ 0

section
variable {pat nam : List TCHAR} {skip nm : Nat} {inf nx : Bool} {c : TCHAR}

theorem upper_ne (some_ : c ≠ 0) : upper c ≠ 0 := by
  revert c
  decide +kernel

theorem tokens_lit (plain : ¬(c = question ∨ c = star)) : tokens (c :: pat) = .lit c :: tokens pat := by
  have first : token c = .lit c := by
    unfold token
    rw [if_neg (not_or.1 plain).1, if_neg (not_or.1 plain).2]
  rw [tokens, List.map_cons, first]
  rfl

theorem blocks_le (inside : Bool) : blocks inside pat ≤ pat.length := by
  induction pat generalizing inside with
  | nil => exact Nat.le_refl 0
  | cons c pat ih =>
    have rest := ih true
    have rest' := ih false
    unfold blocks
    rw [List.length_cons]
    split_ifs <;> omega

theorem blocks_lit (inside : Bool) (plain : ¬(c = question ∨ c = star)) :
    blocks inside (c :: pat) = blocks false pat := by
  rw [blocks, if_neg plain]

/-- A block is one, however many wildcards it has. -/
theorem blocks_wildLoop : blocks false (wildLoop nm nx pat).2.2 = blocks true pat := by
  induction pat generalizing nm nx with
  | nil => rfl
  | cons c pat ih =>
    unfold wildLoop
    split_ifs with one many
    · rw [ih, blocks.eq_def true (c :: pat)]
      simp [one]
    · rw [ih, blocks.eq_def true (c :: pat)]
      simp [many]
    · have plain : ¬(c = question ∨ c = star) := not_or.2 ⟨one, many⟩
      rw [blocks_lit false plain, blocks_lit true plain]

theorem after_wildLoop : After Alike nm nx (tokens pat) nam ↔
    After Alike (wildLoop nm nx pat).1 (wildLoop nm nx pat).2.1 (tokens (wildLoop nm nx pat).2.2) nam := by
  induction pat generalizing nm nx with
  | nil => rfl
  | cons c pat ih =>
    unfold wildLoop
    split_ifs with one many
    · have first : tokens (c :: pat) = .one :: tokens pat := by simp [tokens, token, one]
      rw [first, after_one, ih]
    · have first : tokens (c :: pat) = .many :: tokens pat := by simp [tokens, token, many]
      rw [first, after_many, ih]
    · rfl

theorem Whole.tail {s : List TCHAR} (whole : Whole (c :: s)) : Whole s :=
  fun x mem => whole x (List.mem_cons_of_mem c mem)

theorem blocks_wild (wild : c = question ∨ c = star) :
    blocks false (c :: pat) = blocks false (wildLoop 0 false (c :: pat)).2.2 + 1 := by
  rw [blocks_wildLoop, blocks, blocks, if_pos wild, if_pos wild]
  simp [Nat.add_comm]

theorem whole_wildLoop (whole : Whole pat) : Whole (wildLoop nm nx pat).2.2 := by
  induction pat generalizing nm nx with
  | nil => exact whole
  | cons c pat ih =>
    unfold wildLoop
    split_ifs
    · exact ih whole.tail
    · exact ih whole.tail
    · exact whole

/-- What `pattern_matching` is to tell of patterns with fewer blocks than some number. -/
def Tells (n : Nat) (match_ : List TCHAR → List TCHAR → Nat → Bool → Option Bool) : Prop :=
  ∀ pat nam skip inf, blocks false pat < n → Whole pat → Whole nam →
    ∃ told, match_ pat nam skip inf = some told ∧ (told ↔ After Alike skip inf (tokens pat) nam)

variable {match_ : List TCHAR → List TCHAR → Nat → Bool → Option Bool} {n : Nat}

theorem compareLoop_iff (tells : Tells n match_) (few : blocks false pat ≤ n) (whole : Whole pat)
    (whole' : Whole nam) :
    ∃ matched nc, compareLoop match_ pat nam = some (matched, nc) ∧ (matched ↔ Matches Alike (tokens pat) nam) := by
  induction pat generalizing nam with
  | nil =>
    refine ⟨_, _, rfl, ?_⟩
    cases nam with
    | nil => simp [getAchar, upper, tokens, matches_nil]
    | cons x nam =>
      have some_ : getAchar (x :: nam) ≠ 0 := upper_ne (whole' x List.mem_cons_self)
      rw [tokens, List.map_nil, matches_nil, decide_eq_false some_]
      simp
  | cons c pat ih =>
    unfold compareLoop
    by_cases wild : c = question ∨ c = star
    · rw [blocks_wild wild] at few
      obtain ⟨told, is, iff_⟩ := tells _ nam (wildLoop 0 false (c :: pat)).1 (wildLoop 0 false (c :: pat)).2.1
        few (whole_wildLoop whole) whole'
      rw [if_pos wild, ← after_zero, after_wildLoop, ← iff_]
      dsimp only
      rw [is]
      cases told
      · exact ⟨false, _, rfl, Iff.rfl⟩
      · exact ⟨true, _, rfl, Iff.rfl⟩
    · rw [blocks_lit false wild] at few
      rw [if_neg wild, tokens_lit wild, matches_lit]
      have some_ := upper_ne (whole c List.mem_cons_self)
      cases nam with
      | nil =>
        have other : upper c ≠ getAchar [] := some_
        rw [if_pos other]
        exact ⟨_, _, rfl, by simp⟩
      | cons x nam =>
        by_cases same : upper c = getAchar (x :: nam)
        · obtain ⟨matched, nc, is, rest⟩ := ih few whole.tail whole'.tail
          have alike : Alike c x := same
          rw [if_neg (not_not.2 same), if_neg some_, List.tail_cons]
          refine ⟨matched, nc, is, ?_⟩
          rw [rest]
          simp [alike]
        · have other : ¬Alike c x := same
          rw [if_pos same]
          exact ⟨_, _, rfl, by simp [other]⟩

/-- Where the name is used up, no shorter name matches. -/
theorem compareLoop_zero (whole' : Whole nam) (used : compareLoop match_ pat nam = some (false, 0)) {m : List TCHAR}
    (shorter : m.length < nam.length) : ¬Matches Alike (tokens pat) m := by
  obtain ⟨x, nam, rfl⟩ : ∃ x l, nam = x :: l := by
    cases nam with
    | nil => cases shorter
    | cons x nam => exact ⟨x, nam, rfl⟩
  induction pat generalizing nam x m with
  | nil =>
    have some_ : getAchar (x :: nam) ≠ 0 := upper_ne (whole' x List.mem_cons_self)
    exact absurd (congrArg Prod.snd (Option.some.inj used)) some_
  | cons c pat ih =>
    unfold compareLoop at used
    by_cases wild : c = question ∨ c = star
    · have first : (x :: nam).headD 0 ≠ 0 := whole' x List.mem_cons_self
      rw [if_pos wild] at used
      obtain ⟨told, -, used⟩ := Option.map_eq_some_iff.1 used
      cases told
      · exact absurd (congrArg Prod.snd used) first
      · cases used
    · rw [if_neg wild] at used
      split_ifs at used with other zero
      · have some_ : getAchar (x :: nam) ≠ 0 := upper_ne (whole' x List.mem_cons_self)
        exact absurd (congrArg Prod.snd (Option.some.inj used)) some_
      · cases used
      · rw [tokens_lit wild, matches_lit]
        rintro ⟨b, m, rfl, -, rest⟩
        rw [List.length_cons, List.length_cons] at shorter
        cases nam with
        | nil => exact absurd shorter (by simp)
        | cons y nam => exact ih y nam whole'.tail used (Nat.lt_of_succ_lt_succ shorter) rest

theorem after_true_cons {P : List (Token TCHAR)} {x : TCHAR} :
    After Alike 0 true P (x :: nam) ↔ Matches Alike P (x :: nam) ∨ After Alike 0 true P nam := by
  constructor
  · rintro ⟨k, inside, -, rest⟩
    cases k with
    | zero => exact .inl rest
    | succ k => exact .inr ⟨k, Nat.le_of_succ_le_succ inside, by simp, rest⟩
  · rintro (rest | ⟨k, inside, -, rest⟩)
    · exact ⟨0, Nat.zero_le _, by simp, rest⟩
    · exact ⟨k + 1, Nat.succ_le_succ inside, by simp, rest⟩

/-- The outer loop tries every rest of the name. -/
theorem searchLoop_iff (tells : Tells n match_) (few : blocks false pat ≤ n) (whole : Whole pat) (whole' : Whole nam) :
    ∃ told, searchLoop (compareLoop match_ pat) inf nam = some told ∧
      (told ↔ After Alike 0 inf (tokens pat) nam) := by
  induction nam with
  | nil =>
    obtain ⟨matched, nc, compared, here⟩ := compareLoop_iff tells few whole whole'
    unfold searchLoop After
    rw [compared]
    exact ⟨matched, rfl, by simp [here]⟩
  | cons x nam ih =>
    obtain ⟨matched, nc, compared, here⟩ := compareLoop_iff tells few whole whole'
    unfold searchLoop
    rw [compared]
    show ∃ told, (if matched then some true
      else if inf ∧ nc ≠ 0 then searchLoop (compareLoop match_ pat) inf nam else some false) = some told ∧ _
    cases matched with
    | true =>
      have rest := here.1 rfl
      refine ⟨true, rfl, iff_of_true rfl ?_⟩
      cases inf
      · exact after_zero.2 rest
      · exact after_true_cons.2 (.inl rest)
    | false =>
      have away : ¬Matches Alike (tokens pat) (x :: nam) := fun rest => Bool.false_ne_true (here.2 rest)
      rw [if_neg Bool.false_ne_true]
      cases inf with
      | false => exact ⟨false, by simp, by simp [after_zero, away]⟩
      | true =>
        rw [after_true_cons]
        by_cases zero : nc = 0
        · have none_ : ¬After Alike 0 true (tokens pat) nam := by
            rintro ⟨k, -, -, rest⟩
            rw [zero] at compared
            exact compareLoop_zero whole' compared (by rw [List.length_drop, List.length_cons]; omega) rest
          exact ⟨false, by simp [zero], by simp [away, none_]⟩
        · rw [if_pos ⟨rfl, zero⟩]
          obtain ⟨told, is, rest⟩ := ih whole'.tail
          exact ⟨told, is, by simp [away, rest]⟩

theorem patternMatching_tells (calls : Nat) : Tells calls (patternMatching calls) := by
  induction calls with
  | zero => exact fun pat nam skip inf few => absurd few (Nat.not_lt_zero _)
  | succ calls ih =>
    intro pat nam skip inf few whole whole'
    unfold patternMatching
    split_ifs with less all
    · refine ⟨false, rfl, iff_of_false (by simp) ?_⟩
      rintro ⟨k, inside, enough, -⟩
      cases inf <;> simp at enough <;> omega
    · obtain ⟨rfl, rfl⟩ := all
      refine ⟨true, rfl, iff_of_true rfl ⟨nam.length, Nat.le_refl _, by simpa using less, ?_⟩⟩
      rw [List.drop_length]
      exact .nil
    · rw [← after_drop (Nat.not_lt.1 less)]
      exact searchLoop_iff ih (Nat.le_of_lt_succ few) whole fun c mem => whole' c (List.mem_of_mem_drop mem)

end

/-- `*.t?t` -/
def textPattern : List TCHAR := [0x2A, 0x2E, 0x74, 0x3F, 0x74]

/-- `A.b.txT` -/
def textName : List TCHAR := [0x41, 0x2E, 0x62, 0x2E, 0x74, 0x78, 0x54]

end FatFsParticle.Paths
