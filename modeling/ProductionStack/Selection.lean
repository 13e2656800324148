import Mathlib.Data.List.Sort
import Mathlib.Data.List.TakeWhile

namespace ProductionStack.Selection

variable {α κ : Type} [LinearOrder κ]

/-- A correct sort by a key. Elements of one key may come out in any order. -/
structure Sorting (key : α → κ) where
  sort : List α → List α
  perm : ∀ l, (sort l).Perm l
  sorted : ∀ l, (sort l).Pairwise (fun a b => key a ≤ key b)

variable (key : α → κ)

def stable : Sorting key where
  sort l := l.insertionSort (fun a b => key a ≤ key b)
  perm l := List.perm_insertionSort _ l
  sorted l := List.pairwise_insertionSort _ l

def below (l : List α) (a : α) : Nat := l.countP (fun b => key b < key a)

def upTo (l : List α) (a : α) : Nat := l.countP (fun b => key b ≤ key a)

variable {key} {a : α} {n : Nat}

theorem below_perm {l l' : List α} (h : l.Perm l') : below key l a = below key l' a := h.countP_eq _

theorem upTo_perm {l l' : List α} (h : l.Perm l') : upTo key l a = upTo key l' a := h.countP_eq _

theorem below_cons_self (a : α) (l : List α) : below key (a :: l) a = below key l a := by simp [below]

theorem upTo_cons_self (a : α) (l : List α) : upTo key (a :: l) a = upTo key l a + 1 := by simp [upTo]

theorem below_lt_upTo {l : List α} (h : a ∈ l) : below key l a < upTo key l a := by
  obtain ⟨front, back, rfl⟩ := List.append_of_mem h
  have hle : below key (front ++ back) a ≤ upTo key (front ++ back) a :=
    List.countP_mono_left (fun b _ hb => by simpa using (of_decide_eq_true hb).le)
  rw [below_perm List.perm_middle, upTo_perm List.perm_middle, below_cons_self, upTo_cons_self]
  omega

theorem mem_take_of_length_lt (front back : List α) (h : front.length < n) : a ∈ (front ++ a :: back).take n := by
  rw [List.take_append, List.mem_append]
  refine .inr ?_
  obtain ⟨k, hk⟩ := Nat.exists_eq_add_of_lt h
  rw [show n - front.length = k + 1 by omega, List.take_succ_cons]
  exact List.mem_cons_self

theorem exists_of_mem_take {l : List α} (h : a ∈ l.take n) : ∃ front back, l = front ++ a :: back ∧ front.length < n := by
  obtain ⟨front, back, hsplit⟩ := List.append_of_mem h
  refine ⟨front, back ++ l.drop n, ?_, ?_⟩
  · rw [← List.cons_append, ← List.append_assoc, ← hsplit, List.take_append_drop]
  · have hlength := congrArg List.length hsplit
    simp only [List.length_take, List.length_append, List.length_cons] at hlength
    omega

section Sorted

variable {s : List α} (hsorted : s.Pairwise (fun a b => key a ≤ key b))

include hsorted

theorem mem_take_of_upTo_le (ha : a ∈ s) (h : upTo key s a ≤ n) : a ∈ s.take n := by
  obtain ⟨front, back, rfl⟩ := List.append_of_mem ha
  have hfront : upTo key front a = front.length := by
    rw [upTo, List.countP_eq_length]
    intro b hb
    simpa using (List.pairwise_append.mp hsorted).2.2 b hb a List.mem_cons_self
  have hcount : upTo key (front ++ a :: back) a = front.length + (upTo key back a + 1) := by
    rw [← hfront]
    simp [upTo]
  exact mem_take_of_length_lt front back (by omega)

theorem not_mem_take_of_le_below (h : n ≤ below key s a) : a ∉ s.take n := by
  intro ha
  obtain ⟨front, back, rfl, hlength⟩ := exists_of_mem_take ha
  have hback : below key (a :: back) a = 0 := by
    rw [below, List.countP_eq_zero]
    intro b hb
    rcases List.mem_cons.mp hb with rfl | hb
    · simp
    · simpa using (List.pairwise_cons.mp (List.pairwise_append.mp hsorted).2.1).1 b hb
  have hcount : below key (front ++ a :: back) a = below key front a + below key (a :: back) a := List.countP_append
  have hfront : below key front a ≤ front.length := List.countP_le_length
  omega

end Sorted

theorem Sorting.mem_take_iff (lib lib' : Sorting key) {l l' : List α} (hperm : l.Perm l')
    (hcut : ∀ a ∈ l, n ≤ below key l a ∨ upTo key l a ≤ n) (a : α) : a ∈ (lib.sort l).take n ↔ a ∈ (lib'.sort l').take n := by
  have hleft := lib.perm l
  have hright := (lib'.perm l').trans hperm.symm
  by_cases ha : a ∈ l
  · rcases hcut a ha with hbelow | hupTo
    · exact iff_of_false (not_mem_take_of_le_below (lib.sorted l) (by rwa [below_perm hleft]))
        (not_mem_take_of_le_below (lib'.sorted l') (by rwa [below_perm hright]))
    · exact iff_of_true (mem_take_of_upTo_le (lib.sorted l) (hleft.mem_iff.mpr ha) (by rwa [upTo_perm hleft]))
        (mem_take_of_upTo_le (lib'.sorted l') (hright.mem_iff.mpr ha) (by rwa [upTo_perm hright]))
  · exact iff_of_false (fun h => ha (hleft.mem_iff.mp (List.mem_of_mem_take h)))
      (fun h => ha (hright.mem_iff.mp (List.mem_of_mem_take h)))

theorem stable_mem_take_of_first {l : List α} (h : below key l a < n) : a ∈ ((stable key).sort (a :: l)).take n := by
  have hsplit := List.insertionSort_cons_eq_take_drop (fun a b => key a ≤ key b) a l
  have hfront : below key ((l.insertionSort (fun a b => key a ≤ key b)).takeWhile (fun b => ¬ key a ≤ key b)) a =
      ((l.insertionSort (fun a b => key a ≤ key b)).takeWhile (fun b => ¬ key a ≤ key b)).length := by
    rw [below, List.countP_eq_length]
    intro b hb
    simpa using List.mem_takeWhile_imp hb
  have hle : below key ((l.insertionSort (fun a b => key a ≤ key b)).takeWhile (fun b => ¬ key a ≤ key b)) a ≤
      below key (l.insertionSort (fun a b => key a ≤ key b)) a :=
    (List.takeWhile_sublist _).countP_le
  rw [below_perm (List.perm_insertionSort _ l)] at hle
  rw [show (stable key).sort (a :: l) = _ from hsplit]
  exact mem_take_of_length_lt _ _ (by omega)

theorem stable_not_mem_take_of_last {l : List α} (hnodup : l.Nodup) (ha : a ∉ l) (h : n ≤ upTo key l a) :
    a ∉ ((stable key).sort (l ++ [a])).take n := by
  intro htake
  obtain ⟨front, back, hback, hlength⟩ := exists_of_mem_take htake
  have hperm : (front ++ back).Perm l := by
    have hall := (stable key).perm (l ++ [a])
    rw [hback] at hall
    exact (List.perm_cons a).mp (List.perm_middle.symm.trans (hall.trans List.perm_append_comm))
  have hdistinct : (front ++ back).Nodup := hperm.nodup_iff.mpr hnodup
  have hapart : a ∉ front ++ back := fun hmem => ha (hperm.mem_iff.mp hmem)
  -- an element up to it that came after it would have kept its place before it
  have hnone : upTo key back a = 0 := by
    rw [upTo, List.countP_eq_zero]
    intro b hb hle
    have hbl : b ∈ l := hperm.mem_iff.mp (List.mem_append_right _ hb)
    have hpair : List.Sublist [b, a] (front ++ a :: back) := by
      rw [← hback]
      exact List.pair_sublist_insertionSort (of_decide_eq_true hle)
        ((List.singleton_sublist.mpr hbl).append (List.Sublist.refl [a]))
    obtain ⟨front', back', hpieces, hfront', hback'⟩ := List.sublist_append_iff.mp hpair
    cases front' with
    | nil =>
      rw [List.nil_append] at hpieces
      subst hpieces
      cases hback' with
      | cons _ h => exact hapart (List.mem_append_right _ (h.subset (by simp)))
      | cons_cons _ h => exact hapart (List.mem_append_right _ hb)
    | cons x front' =>
      have hx : b = x := (List.cons.inj hpieces).1
      have hmem : b ∈ front := hfront'.subset (hx ▸ List.mem_cons_self)
      exact (List.nodup_append.mp hdistinct).2.2 b hmem b hb rfl
  have hcount : upTo key l a = upTo key front a + upTo key back a := by
    rw [← upTo_perm hperm]
    exact List.countP_append
  have hfront : upTo key front a ≤ front.length := List.countP_le_length
  omega

end ProductionStack.Selection
