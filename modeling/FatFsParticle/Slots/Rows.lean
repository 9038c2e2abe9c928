import Mathlib.Data.List.Basic
import Mathlib.Logic.Function.Basic

/-!
# Rows of slots

A row keeps things under keys: a slot holds one thing, is one that a thing was taken out of,
or says that nothing follows. Something new goes into the first slot that is free. Where
everything behind the end is an end, too, and no key has two slots, a row is a finite map,
and putting in and taking out change it at one key.
-/

namespace Slots

variable {α κ : Type}

/-- The kinds of slots, and which one has which key. -/
structure Kinds (α κ : Type) where
  stop : α → Bool
  gone : α → Bool
  is : κ → α → Bool
  live : ∀ {k a}, is k a = true → stop a = false ∧ gone a = false
  unique : ∀ {k k' a}, is k a = true → is k' a = true → k = k'

/-- The first slot that is `p`, as far as none is `stop`. -/
def seek (stop p : α → Bool) : List α → Option Nat
  | [] => none
  | a :: l => if stop a then none else if p a then some 0 else (seek stop p l).map (· + 1)

namespace Kinds

variable (K : Kinds α κ)

/-- The first slot of a key. -/
def find (k : κ) (l : List α) : Option Nat := seek K.stop (K.is k) l

/-- The first slot that is free. -/
def room : List α → Option Nat
  | [] => none
  | a :: l => if K.stop a || K.gone a then some 0 else (room l).map (· + 1)

/-- What the row has under a key. -/
def get : List α → κ → Option α
  | [], _ => none
  | a :: l, k => if K.stop a then none else if K.is k a then some a else get l k

/-- Nothing is behind the end, and no key has two slots. -/
structure Tidy (l : List α) : Prop where
  closed : l.Pairwise fun a b => K.stop a → K.stop b
  sole : l.Pairwise fun a b => ∀ k, K.is k a → K.is k b = false

variable {K} {k k' : κ} {a x : α} {l m : List α} {i : Nat}

theorem Tidy.nil : K.Tidy [] := ⟨.nil, .nil⟩

theorem Tidy.tail (h : K.Tidy (a :: l)) : K.Tidy l :=
  ⟨(List.pairwise_cons.1 h.closed).2, (List.pairwise_cons.1 h.sole).2⟩

theorem not_is_of_stop (stop : K.stop a) : K.is k a = false := by
  rw [Bool.eq_false_iff]
  intro is
  rw [(K.live is).1] at stop
  cases stop

theorem not_is_of_ne (is : K.is k x) (other : k' ≠ k) : K.is k' x = false := by
  rw [Bool.eq_false_iff]
  exact fun is' => other (K.unique is' is)

/-- Nothing is found behind the end. -/
theorem get_stops (stops : ∀ b ∈ l, K.stop b) (k : κ) : K.get l k = none := by
  cases l with
  | nil => rfl
  | cons a l => exact if_pos (stops a List.mem_cons_self)

theorem get_of_find (found : K.find k l = some i) : ∃ a, l[i]? = some a ∧ K.is k a ∧ K.get l k = some a := by
  induction l generalizing i with
  | nil => cases found
  | cons b l ih =>
    unfold find seek at found
    unfold get
    split at found
    case isTrue => cases found
    case isFalse go =>
      rw [if_neg go]
      split at found
      case isTrue here =>
        obtain rfl : 0 = i := Option.some.inj found
        rw [if_pos here]
        exact ⟨b, rfl, here, rfl⟩
      case isFalse other =>
        obtain ⟨j, found', rfl⟩ := Option.map_eq_some_iff.1 found
        rw [if_neg other]
        exact ih found'

theorem find_none : K.find k l = none ↔ K.get l k = none := by
  induction l with
  | nil => simp [find, seek, get]
  | cons b l ih =>
    unfold find seek get
    split
    · simp
    · split
      · simp
      · rw [Option.map_eq_none_iff]
        exact ih

/-- In a tidy row a key that is not found is nowhere. -/
theorem Tidy.absent (h : K.Tidy l) (none_ : K.get l k = none) : ∀ b ∈ l, K.is k b = false := by
  induction l with
  | nil => simp
  | cons a l ih =>
    unfold get at none_
    intro b mem
    split at none_
    case isTrue stop =>
      rcases List.mem_cons.1 mem with rfl | mem
      · exact not_is_of_stop stop
      · exact not_is_of_stop ((List.pairwise_cons.1 h.closed).1 b mem stop)
    case isFalse =>
      split at none_
      case isTrue => cases none_
      case isFalse other =>
        rcases List.mem_cons.1 mem with rfl | mem
        · simpa using other
        · exact ih h.tail none_ b mem

/-! ## Putting in -/

section
variable [DecidableEq κ]

/-- Something new in a free slot. -/
theorem get_insert (h : K.Tidy l) (free : K.room l = some i) (is : K.is k x) (none_ : K.get l k = none) :
    K.get (l.set i x) = Function.update (K.get l) k (some x) := by
  have new : K.stop x = false := (K.live is).1
  funext k'
  rw [Function.update_apply]
  induction l generalizing i with
  | nil => cases free
  | cons a l ih =>
    unfold room at free
    unfold get at none_
    split at free
    case isTrue blank =>
      obtain rfl : 0 = i := Option.some.inj free
      rw [List.set_cons_zero, get, new, if_neg Bool.false_ne_true]
      by_cases other : k' = k
      · rw [if_pos other, other, is, if_pos rfl]
      · rw [if_neg other, not_is_of_ne is other, if_neg Bool.false_ne_true, get]
        split
        case isTrue stop => exact get_stops (fun b mem => (List.pairwise_cons.1 h.closed).1 b mem stop) k'
        case isFalse go =>
          split
          case isTrue there =>
            simp [go, (K.live there).2] at blank
          case isFalse => rfl
    case isFalse used =>
      obtain ⟨j, free', rfl⟩ := Option.map_eq_some_iff.1 free
      rw [Bool.or_eq_true, not_or] at used
      rw [if_neg used.1] at none_
      split at none_
      case isTrue => cases none_
      case isFalse away =>
        rw [List.set_cons_succ, get, if_neg used.1, get, if_neg used.1, ih h.tail free' none_]
        by_cases same : k' = k
        · subst same
          rw [if_neg away, if_pos rfl, if_pos rfl]
        · rw [if_neg same, if_neg same]

omit [DecidableEq κ] in
theorem Tidy.insert (h : K.Tidy l) (free : K.room l = some i) (is : K.is k x) (none_ : K.get l k = none) :
    K.Tidy (l.set i x) := by
  have new : K.stop x = false := (K.live is).1
  have out := h.absent none_
  clear none_
  induction l generalizing i with
  | nil => cases free
  | cons a l ih =>
    obtain ⟨closed, -⟩ := List.pairwise_cons.1 h.closed
    obtain ⟨sole, -⟩ := List.pairwise_cons.1 h.sole
    have only {b : α} (away : K.is k b = false) (k' : κ) (is' : K.is k' x) : K.is k' b = false := by
      obtain rfl : k' = k := K.unique is' is
      exact away
    unfold room at free
    split at free
    case isTrue =>
      obtain rfl : 0 = i := Option.some.inj free
      rw [List.set_cons_zero]
      constructor
      · refine List.pairwise_cons.2 ⟨fun b _ stop => ?_, h.tail.closed⟩
        rw [new] at stop
        cases stop
      · exact List.pairwise_cons.2 ⟨fun b mem => only (out b (List.mem_cons_of_mem a mem)), h.tail.sole⟩
    case isFalse used =>
      obtain ⟨j, free', rfl⟩ := Option.map_eq_some_iff.1 free
      rw [Bool.or_eq_true, not_or] at used
      have rest := ih h.tail free' fun b mem => out b (List.mem_cons_of_mem a mem)
      rw [List.set_cons_succ]
      constructor
      · exact List.pairwise_cons.2 ⟨fun b _ stop => absurd stop used.1, rest.closed⟩
      · refine List.pairwise_cons.2 ⟨fun b mem k' is' => ?_, rest.sole⟩
        rcases List.mem_or_eq_of_mem_set mem with mem | rfl
        · exact sole b mem k' is'
        · rw [Bool.eq_false_iff]
          intro is''
          rw [only (out a List.mem_cons_self) k' is''] at is'
          cases is'

/-! ## Changing and taking out -/

/-- The slot of `k` becomes `x`, which is nobody else's. -/
theorem get_replace (found : K.find k l = some i) (new : K.stop x = false)
    (only : ∀ k', K.is k' x → k' = k) (sole : K.Tidy l) :
    K.get (l.set i x) = Function.update (K.get l) k (if K.is k x then some x else none) := by
  funext k'
  rw [Function.update_apply]
  induction l generalizing i with
  | nil => cases found
  | cons a l ih =>
    unfold find seek at found
    split at found
    case isTrue => cases found
    case isFalse go =>
      split at found
      case isTrue here =>
        obtain rfl : 0 = i := Option.some.inj found
        rw [List.set_cons_zero, get, new, if_neg Bool.false_ne_true]
        by_cases same : k' = k
        · subst same
          rw [if_pos rfl]
          split
          case isTrue => rfl
          case isFalse =>
            by_contra some_
            cases found' : K.find k' l with
            | none => exact some_ (find_none.1 found')
            | some j =>
              obtain ⟨b, at_, is, -⟩ := get_of_find found'
              rw [(List.pairwise_cons.1 sole.sole).1 b (List.mem_of_getElem? at_) k' here] at is
              cases is
        · have away : K.is k' x = false := by
            rw [Bool.eq_false_iff]
            exact fun is => same (only k' is)
          rw [if_neg same, away, if_neg Bool.false_ne_true, get, if_neg go, not_is_of_ne here same,
            if_neg Bool.false_ne_true]
      case isFalse away =>
        obtain ⟨j, found', rfl⟩ := Option.map_eq_some_iff.1 found
        rw [List.set_cons_succ, get, if_neg go, get, if_neg go, ih found' sole.tail]
        by_cases same : k' = k
        · subst same
          rw [if_neg away, if_pos rfl, if_pos rfl]
        · rw [if_neg same, if_neg same]

omit [DecidableEq κ] in
theorem Tidy.replace (h : K.Tidy l) (found : K.find k l = some i) (new : K.stop x = false)
    (only : ∀ k', K.is k' x → k' = k) : K.Tidy (l.set i x) := by
  induction l generalizing i with
  | nil => cases found
  | cons a l ih =>
    obtain ⟨sole, -⟩ := List.pairwise_cons.1 h.sole
    unfold find seek at found
    split at found
    case isTrue => cases found
    case isFalse go =>
      split at found
      case isTrue here =>
        obtain rfl : 0 = i := Option.some.inj found
        rw [List.set_cons_zero]
        constructor
        · refine List.pairwise_cons.2 ⟨fun b _ stop => ?_, h.tail.closed⟩
          rw [new] at stop
          cases stop
        · refine List.pairwise_cons.2 ⟨fun b mem k' is => ?_, h.tail.sole⟩
          obtain rfl := only k' is
          exact sole b mem k' here
      case isFalse away =>
        obtain ⟨j, found', rfl⟩ := Option.map_eq_some_iff.1 found
        have rest := ih h.tail found'
        rw [List.set_cons_succ]
        constructor
        · exact List.pairwise_cons.2 ⟨fun b _ stop => absurd stop go, rest.closed⟩
        · refine List.pairwise_cons.2 ⟨fun b mem k' is => ?_, rest.sole⟩
          rcases List.mem_or_eq_of_mem_set mem with mem | rfl
          · exact sole b mem k' is
          · rw [Bool.eq_false_iff]
            intro is'
            obtain rfl := only k' is'
            exact away is

end

/-! ## More slots -/

/-- Ends put to the end. -/
theorem get_append (stops : ∀ b ∈ m, K.stop b) : K.get (l ++ m) = K.get l := by
  funext k
  induction l with
  | nil => exact get_stops stops k
  | cons a l ih =>
    rw [List.cons_append, get, get, ih]

theorem Tidy.append (h : K.Tidy l) (stops : ∀ b ∈ m, K.stop b) : K.Tidy (l ++ m) where
  closed := by
    refine List.pairwise_append.2 ⟨h.closed, ?_, fun a _ b mem _ => stops b mem⟩
    exact List.pairwise_of_forall_mem_list fun a _ b mem _ => stops b mem
  sole := by
    refine List.pairwise_append.2 ⟨h.sole, ?_, fun a _ b mem k _ => not_is_of_stop (stops b mem)⟩
    exact List.pairwise_of_forall_mem_list fun a _ b mem k _ => not_is_of_stop (stops b mem)

/-- Where every slot is used, the first one behind them is free. -/
theorem room_append (full : K.room l = none) (stop : K.stop a) : K.room (l ++ a :: m) = some l.length := by
  induction l with
  | nil => simp [room, stop]
  | cons b l ih =>
    unfold room at full
    split at full
    case isTrue => cases full
    case isFalse used =>
      rw [Option.map_eq_none_iff] at full
      rw [List.cons_append, room, if_neg used, ih full]
      rfl

end Kinds

end Slots
