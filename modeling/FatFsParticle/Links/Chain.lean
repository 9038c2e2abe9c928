import Mathlib.Data.List.Basic
import Mathlib.Data.List.Nodup
import Mathlib.Logic.Function.Basic

/-!
# Chains of links

A table gives every node a link, to another node or to a stop. A chain is a list of nodes,
each linked to the one after it and the last one to a stop. Owners with chains that have
no node in common keep them so when the chain of one of them is replaced and the links of
the others are left alone.
-/

namespace Links

variable {α ι : Type} {next next' : α → α} {stop : α → Prop} {a b e : α} {l m : List α}

/-- Every node of the list is linked to the one after it, the last one to a stop. -/
def Linked (next : α → α) (stop : α → Prop) : List α → Prop
  | [] => True
  | [a] => stop (next a)
  | a :: b :: l => next a = b ∧ Linked next stop (b :: l)

@[simp] theorem linked_nil : Linked next stop [] := trivial

@[simp] theorem linked_singleton : Linked next stop [a] ↔ stop (next a) := Iff.rfl

@[simp] theorem linked_cons_cons :
    Linked next stop (a :: b :: l) ↔ next a = b ∧ Linked next stop (b :: l) := Iff.rfl

theorem Linked.tail (h : Linked next stop (a :: l)) : Linked next stop l := by
  cases l with
  | nil => trivial
  | cons b l => exact h.2

theorem Linked.of_append (h : Linked next stop (l ++ m)) : Linked next stop m := by
  induction l with
  | nil => exact h
  | cons a l ih => exact ih (Linked.tail h)

theorem Linked.congr (h : Linked next stop l) (same : ∀ a ∈ l, next' a = next a) :
    Linked next' stop l := by
  induction l with
  | nil => trivial
  | cons a l ih =>
    have first := same a List.mem_cons_self
    have rest := ih h.tail fun x mem => same x (List.mem_cons_of_mem a mem)
    cases l with
    | nil =>
      rw [linked_singleton, first]
      exact h
    | cons b l => exact ⟨first.trans h.1, rest⟩

/-- Inside a chain the link of a node is the node after it. -/
theorem Linked.next_of_append (h : Linked next stop (l ++ a :: b :: m)) : next a = b :=
  (Linked.of_append h).1

theorem Linked.last (h : Linked next stop (l ++ [a])) : stop (next a) := Linked.of_append h

theorem Linked.next_getElem (h : Linked next stop l) {i : Nat} (less : i + 1 < l.length) :
    next l[i] = l[i + 1] := by
  induction l generalizing i with
  | nil => cases less
  | cons a l ih =>
    cases l with
    | nil => simp at less
    | cons b l =>
      cases i with
      | zero => exact h.1
      | succ i => exact ih h.2 (Nat.lt_of_succ_lt_succ less)

theorem Linked.last_getElem (h : Linked next stop l) {i : Nat} (last : i + 1 = l.length) :
    stop (next l[i]) := by
  have split_ := List.take_append_drop i l
  rw [List.drop_eq_getElem_cons (by omega), List.drop_eq_nil_of_le (by omega)] at split_
  rw [← split_] at h
  exact h.last

/-- Chains from the same node are the same. -/
theorem Linked.unique (h : Linked next stop (a :: l)) (h' : Linked next stop (a :: m))
    (live : ∀ x ∈ l, ¬stop x) (live' : ∀ x ∈ m, ¬stop x) : l = m := by
  induction l generalizing a m with
  | nil =>
    cases m with
    | nil => rfl
    | cons b m => exact absurd (h'.1 ▸ h) (live' b List.mem_cons_self)
  | cons b l ih =>
    cases m with
    | nil => exact absurd (h.1 ▸ h') (live b List.mem_cons_self)
    | cons c m =>
      obtain rfl : b = c := h.1.symm.trans h'.1
      rw [ih h.2 h'.2 (fun x mem => live x (List.mem_cons_of_mem b mem))
        fun x mem => live' x (List.mem_cons_of_mem b mem)]

/-- A chain comes to an end, so it never meets a node twice. -/
theorem Linked.nodup (h : Linked next stop l) (live : ∀ x ∈ l, ¬stop x) : l.Nodup := by
  induction l with
  | nil => exact List.nodup_nil
  | cons a l ih =>
    refine List.nodup_cons.2 ⟨?_, ih h.tail fun x mem => live x (List.mem_cons_of_mem a mem)⟩
    intro again
    obtain ⟨s, t, rfl⟩ := List.append_of_mem again
    have later : Linked next stop (a :: t) := Linked.of_append h.tail
    have same := Linked.unique h later (fun x mem => live x (List.mem_cons_of_mem a mem))
      fun x mem => live x (by simp [mem])
    have lengths := congrArg List.length same
    simp at lengths
    omega

section
variable [DecidableEq α]

/-- A link changed elsewhere. -/
theorem Linked.update (h : Linked next stop l) (out : a ∉ l) :
    Linked (Function.update next a e) stop l := by
  apply h.congr
  intro x mem
  apply Function.update_of_ne
  rintro rfl
  exact out mem

/-- A chain made longer by a node. -/
theorem Linked.stretch (h : Linked next stop (l ++ [a])) (once : (l ++ [a]).Nodup) (ends : stop e)
    (new : b ∉ l ++ [a]) :
    Linked (Function.update (Function.update next b e) a b) stop (l ++ [a, b]) := by
  induction l with
  | nil =>
    have other : b ≠ a := fun same => new (by simp [same])
    refine ⟨Function.update_self .., ?_⟩
    rw [linked_singleton, Function.update_of_ne other, Function.update_self]
    exact ends
  | cons x l ih =>
    have outside : b ∉ l ++ [a] := fun mem => new (List.mem_cons_of_mem x mem)
    have rest := ih (Linked.tail h) (List.nodup_cons.1 once).2 outside
    have kept : Function.update (Function.update next b e) a b x = next x := by
      have apart : x ≠ a := fun same => (List.nodup_cons.1 once).1 (by simp [same])
      have away : x ≠ b := fun same => new (by simp [same])
      rw [Function.update_of_ne apart, Function.update_of_ne away]
    cases l with
    | nil => exact ⟨kept.trans h.1, rest⟩
    | cons y l => exact ⟨kept.trans h.1, rest⟩

/-- A chain cut off behind a node. -/
theorem Linked.cut (h : Linked next stop (l ++ a :: m)) (once : (l ++ a :: m).Nodup)
    (ends : stop e) : Linked (Function.update next a e) stop (l ++ [a]) := by
  induction l with
  | nil =>
    rw [List.nil_append, linked_singleton, Function.update_self]
    exact ends
  | cons x l ih =>
    have rest := ih (Linked.tail h) (List.nodup_cons.1 once).2
    have kept : Function.update next a e x = next x :=
      Function.update_of_ne (fun same => (List.nodup_cons.1 once).1 (by simp [same])) _ _
    cases l with
    | nil => exact ⟨kept.trans h.1, rest⟩
    | cons y l => exact ⟨kept.trans h.1, rest⟩

end

/-! ## Owners -/

/-- The chains of the owners: nodes of `node`, and none in two of them. -/
structure Owned (next : α → α) (stop node : α → Prop) (chain : ι → List α) : Prop where
  linked : ∀ i, Linked next stop (chain i)
  inside : ∀ i, ∀ a ∈ chain i, node a
  apart : ∀ i j, i ≠ j → ∀ a ∈ chain i, a ∉ chain j

variable {node : α → Prop} {chain : ι → List α} {i : ι}

/-- One owner's chain replaced, the links of the others left alone. -/
theorem Owned.replace [DecidableEq ι] (h : Owned next stop node chain)
    (others : ∀ j, j ≠ i → ∀ a ∈ chain j, next' a = next a) (linked : Linked next' stop l)
    (inside : ∀ a ∈ l, node a) (apart : ∀ j, j ≠ i → ∀ a ∈ l, a ∉ chain j) :
    Owned next' stop node (Function.update chain i l) := by
  have cases_ (j : ι) : Function.update chain i l j = if j = i then l else chain j :=
    Function.update_apply ..
  constructor
  · intro j
    rw [cases_]
    split
    case isTrue => exact linked
    case isFalse other => exact (h.linked j).congr (others j other)
  · intro j
    rw [cases_]
    split
    case isTrue => exact inside
    case isFalse => exact h.inside j
  · intro j k different
    rw [cases_, cases_]
    split
    case isTrue here =>
      subst here
      rw [if_neg (Ne.symm different)]
      exact apart k (Ne.symm different)
    case isFalse other =>
      split
      case isTrue => exact fun a mem mine => apart j other a mine mem
      case isFalse => exact h.apart j k different

end Links
