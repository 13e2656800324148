import Mathlib.Data.List.Basic

namespace ProductionStack.Changes

variable {α : Type} {p : α → Bool} {last : Option α}

/-- Those of the elements that are meant are all the same, and no other one stands between them. -/
structure OneRun (p : α → Bool) (l : List α) : Prop where
  some : ∃ x ∈ l, p x = true
  same : ∀ x ∈ l, ∀ y ∈ l, p x = true → p y = true → x = y
  between : ∀ x y z, [x, y, z].Sublist l → p x = true → p z = true → p y = true

theorem oneRun_cons_of_neg {x : α} (hx : p x = false) (l : List α) : OneRun p (x :: l) ↔ OneRun p l := by
  have hne : ∀ y, p y = true → y ≠ x := by
    rintro y hy rfl
    rw [hx] at hy
    cases hy
  constructor
  · rintro ⟨⟨y, hy, hpy⟩, hsame, hbetween⟩
    exact ⟨⟨y, (List.mem_cons.mp hy).resolve_left (hne y hpy), hpy⟩,
      fun a ha b hb => hsame a (.tail _ ha) b (.tail _ hb), fun a b c h => hbetween a b c (h.cons x)⟩
  · rintro ⟨⟨y, hy, hpy⟩, hsame, hbetween⟩
    refine ⟨⟨y, .tail _ hy, hpy⟩, fun a ha b hb hpa hpb => ?_, fun a b c h hpa => ?_⟩
    · exact hsame a ((List.mem_cons.mp ha).resolve_left (hne a hpa)) b ((List.mem_cons.mp hb).resolve_left (hne b hpb)) hpa hpb
    · exact hbetween a b c ((List.cons_sublist_cons'.mp h).resolve_right fun h => hne a hpa h.1) hpa

/-- What follows an element that is meant has no other one, and none of it behind one that is not meant. -/
def Continues (p : α → Bool) (x : α) (l : List α) : Prop :=
  (∀ y ∈ l, p y = true → y = x) ∧ ∀ y z, [y, z].Sublist l → p z = true → p y = true

theorem oneRun_cons_of_pos {x : α} (hx : p x = true) (l : List α) : OneRun p (x :: l) ↔ Continues p x l := by
  constructor
  · intro h
    exact ⟨fun y hy hpy => h.same y (.tail _ hy) x (.head _) hpy hx,
      fun y z hyz => h.between x y z (List.cons_sublist_cons.mpr hyz) hx⟩
  · rintro ⟨hsame, hbetween⟩
    have heq : ∀ y ∈ x :: l, p y = true → y = x := List.forall_mem_cons.mpr ⟨fun _ => rfl, hsame⟩
    refine ⟨⟨x, .head _, hx⟩, fun a ha b hb hpa hpb => (heq a ha hpa).trans (heq b hb hpb).symm, fun a b c h _ => ?_⟩
    rcases List.cons_sublist_cons'.mp h with h | h
    · exact hbetween b c (List.sublist_of_cons_sublist h)
    · exact hbetween b c h.2

theorem some_not_meant {x : α} (hx : p x = false) : ∀ y, some x = some y → p y = false := by
  rintro y ⟨⟩
  exact hx

variable [DecidableEq α]

/-- The elements that differ from the one before them, the first of them from the last one known. -/
def changes (last : Option α) : List α → List α
  | [] => []
  | x :: l => if last = some x then changes last l else x :: changes (some x) l

theorem changes_self (x : α) (l : List α) : changes (some x) (x :: l) = changes (some x) l := if_pos rfl

theorem changes_of_ne {x : α} (h : last ≠ some x) (l : List α) : changes last (x :: l) = x :: changes (some x) l := if_neg h

theorem changes_append (l l' : List α) : changes last (l ++ l') = changes last l ++ changes (l.getLast?.or last) l' := by
  induction l generalizing last with
  | nil => rfl
  | cons x l ih =>
    rw [List.cons_append, List.getLast?_cons]
    by_cases hlast : last = some x
    · subst hlast
      rw [changes_self, changes_self, ih]
      cases l.getLast? <;> rfl
    · rw [changes_of_ne hlast, changes_of_ne hlast, ih, List.cons_append]
      cases l.getLast? <;> rfl

theorem countP_changes_cons {x : α} (hx : p x = false) (l : List α) :
    (changes last (x :: l)).countP p = (changes (some x) l).countP p := by
  by_cases hlast : last = some x
  · rw [hlast, changes_self]
  · rw [changes_of_ne hlast, List.countP_cons_of_neg (by simp [hx])]

theorem countP_changes_cons_of_pos (hlast : ∀ y, last = some y → p y = false) {x : α} (hx : p x = true) (l : List α) :
    (changes last (x :: l)).countP p = (changes (some x) l).countP p + 1 := by
  have hne : last ≠ some x := by
    intro heq
    rw [hlast x heq] at hx
    cases hx
  rw [changes_of_ne hne, List.countP_cons_of_pos hx]

theorem countP_changes_eq_zero_iff (hlast : ∀ y, last = some y → p y = false) (l : List α) :
    (changes last l).countP p = 0 ↔ ∀ y ∈ l, p y = false := by
  induction l generalizing last with
  | nil => simp [changes]
  | cons x l ih =>
    rw [List.forall_mem_cons]
    cases hx : p x with
    | false => rw [countP_changes_cons hx, ih (some_not_meant hx), eq_self_iff_true, true_and]
    | true => simp [countP_changes_cons_of_pos hlast hx]

theorem countP_changes_after_eq_zero_iff {x : α} (hx : p x = true) (l : List α) :
    (changes (some x) l).countP p = 0 ↔ Continues p x l := by
  induction l with
  | nil => exact iff_of_true rfl ⟨List.forall_mem_nil _, fun _ _ h => nomatch h⟩
  | cons y l ih =>
    by_cases hyx : y = x
    · subst hyx
      rw [changes_self, ih]
      constructor
      · rintro ⟨hsame, hbetween⟩
        refine ⟨List.forall_mem_cons.mpr ⟨fun _ => rfl, hsame⟩, fun a b h hb => ?_⟩
        rcases List.cons_sublist_cons'.mp h with h | ⟨rfl, -⟩
        · exact hbetween a b h hb
        · exact hx
      · rintro ⟨hsame, hbetween⟩
        exact ⟨(List.forall_mem_cons.mp hsame).2, fun a b h => hbetween a b (h.cons y)⟩
    · rw [changes_of_ne (fun heq => hyx (Option.some.inj heq).symm)]
      cases hy : p y with
      | false =>
        rw [List.countP_cons_of_neg (by simp [hy]), countP_changes_eq_zero_iff (some_not_meant hy)]
        constructor
        · intro hnone
          have hall : ∀ z ∈ y :: l, p z = false := List.forall_mem_cons.mpr ⟨hy, hnone⟩
          refine ⟨fun z hz hpz => ?_, fun a b h hpb => ?_⟩
          · cases (hall z hz).symm.trans hpz
          · cases (hall b (h.subset (by simp))).symm.trans hpb
        · rintro ⟨-, hbetween⟩ z hz
          by_contra hpz
          cases hy.symm.trans (hbetween y z (List.cons_sublist_cons.mpr (List.singleton_sublist.mpr hz)) (by simpa using hpz))
      | true => simp [List.countP_cons_of_pos hy, Continues, hy, hyx]

theorem countP_changes_eq_one_iff (hlast : ∀ y, last = some y → p y = false) (l : List α) :
    (changes last l).countP p = 1 ↔ OneRun p l := by
  induction l generalizing last with
  | nil =>
    refine iff_of_false (by simp [changes]) ?_
    rintro ⟨⟨x, hx, -⟩, -⟩
    cases hx
  | cons x l ih =>
    cases hx : p x with
    | false => rw [countP_changes_cons hx, ih (some_not_meant hx), oneRun_cons_of_neg hx]
    | true =>
      rw [countP_changes_cons_of_pos hlast hx, Nat.add_eq_right, countP_changes_after_eq_zero_iff hx, oneRun_cons_of_pos hx]

end ProductionStack.Changes
