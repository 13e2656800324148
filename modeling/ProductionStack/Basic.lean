import Mathlib.Data.Nat.Basic

namespace ProductionStack

section Except

variable {ε α β : Type}

theorem bind_eq_ok {x : Except ε α} {f : α → Except ε β} {b : β} : x >>= f = .ok b ↔ ∃ a, x = .ok a ∧ f a = .ok b := by
  cases x with
  | error e => simp [bind, Except.bind]
  | ok a => simp [bind, Except.bind]

theorem map_eq_ok {x : Except ε α} {f : α → β} {b : β} : x.map f = .ok b ↔ ∃ a, x = .ok a ∧ f a = b := by
  cases x with
  | error e => simp [Except.map]
  | ok a => simp [Except.map]

theorem mapM_eq_ok {f : α → Except ε β} {xs : List α} {ys : List β} : xs.mapM f = .ok ys ↔ xs.map f = ys.map .ok := by
  induction xs generalizing ys with
  | nil => cases ys <;> simp [pure, Except.pure]
  | cons x xs ih =>
    simp only [List.mapM_cons, bind_eq_ok, ih, List.map_cons]
    constructor
    · rintro ⟨y, hy, rest, hrest, hys⟩
      cases hys
      rw [hy, hrest, List.map_cons]
    · intro h
      cases ys with
      | nil => cases h
      | cons y ys =>
        obtain ⟨hy, hrest⟩ := List.cons.inj h
        exact ⟨y, hy, ys, hrest, rfl⟩

theorem exists_mapM_eq_ok {f : α → Except ε β} {xs : List α} (h : ∀ x ∈ xs, ∃ y, f x = .ok y) : ∃ ys, xs.mapM f = .ok ys := by
  induction xs with
  | nil => exact ⟨[], rfl⟩
  | cons x xs ih =>
    obtain ⟨y, hy⟩ := h x List.mem_cons_self
    obtain ⟨ys, hys⟩ := ih (fun z hz => h z (List.mem_cons_of_mem x hz))
    refine ⟨y :: ys, ?_⟩
    rw [List.mapM_cons, hy, hys]
    rfl

/-- What a computation that may stop with an error comes to. -/
def Meets (x : Except ε α) (Q : α → Prop) (E : ε → Prop) : Prop :=
  match x with
  | .ok a => Q a
  | .error e => E e

variable {Q : α → Prop} {E : ε → Prop}

theorem Meets.bind {x : Except ε α} {f : α → Except ε β} {R : β → Prop} (h : Meets x Q E) (hf : ∀ a, Q a → Meets (f a) R E) :
    Meets (x >>= f) R E := by
  cases x with
  | error e => exact h
  | ok a => exact hf a h

theorem Meets.map {x : Except ε α} {f : α → β} {R : β → Prop} (h : Meets x Q E) (hf : ∀ a, Q a → R (f a)) :
    Meets (x.map f) R E := by
  cases x with
  | error e => exact h
  | ok a => exact hf a h

theorem Meets.mono {x : Except ε α} {Q' : α → Prop} (h : Meets x Q E) (hQ : ∀ a, Q a → Q' a) : Meets x Q' E := by
  cases x with
  | error e => exact h
  | ok a => exact hQ a h

theorem Meets.result {x : Except ε α} (h : Meets x Q E) : Meets x (fun a => x = .ok a ∧ Q a) E := by
  cases x with
  | error e => exact h
  | ok a => exact ⟨rfl, h⟩

end Except

section Lists

theorem append_cons_inj {α : Type} {a : α} {xs ys zs ws : List α} (hxs : a ∉ xs) (hys : a ∉ ys)
    (h : xs ++ a :: zs = ys ++ a :: ws) : xs = ys ∧ zs = ws := by
  induction xs generalizing ys with
  | nil =>
    cases ys with
    | nil => exact ⟨rfl, (List.cons.inj h).2⟩
    | cons y ys => exact absurd (List.cons.inj h).1 (fun heq => hys (heq ▸ List.mem_cons_self))
  | cons x xs ih =>
    cases ys with
    | nil => exact absurd (List.cons.inj h).1 (fun heq => hxs (heq ▸ List.mem_cons_self))
    | cons y ys =>
      obtain ⟨rfl, hrest⟩ := List.cons.inj h
      obtain ⟨rfl, rfl⟩ := ih (fun hmem => hxs (List.mem_cons_of_mem x hmem))
        (fun hmem => hys (List.mem_cons_of_mem x hmem)) hrest
      exact ⟨rfl, rfl⟩

end Lists

section Decimal

theorem head_toDigits_ne_zero {n : Nat} (h : 0 < n) : (Nat.toDigits 10 n).head? ≠ some '0' := by
  induction n using Nat.strongRecOn with
  | ind n ih =>
    by_cases hlt : n < 10
    · rw [Nat.toDigits_of_lt_base hlt]
      simpa using Nat.ne_of_gt h
    · have hle : 10 ≤ n := Nat.le_of_not_lt hlt
      have hhead := ih (n / 10) (Nat.div_lt_self h (by decide)) (Nat.div_pos hle (by decide))
      rw [Nat.toDigits_of_base_le (by decide) hle]
      cases hd : Nat.toDigits 10 (n / 10) with
      | nil => exact absurd hd Nat.toDigits_ne_nil
      | cons c cs =>
        rw [hd] at hhead
        simpa using hhead

theorem toDigits_all (n : Nat) : (Nat.toDigits 10 n).all Char.isDigit = true :=
  List.all_eq_true.mpr (fun _ hc => Nat.isDigit_of_mem_toDigits (by decide) (by decide) hc)

theorem toDigits_inj {m n : Nat} (h : Nat.toDigits 10 m = Nat.toDigits 10 n) : m = n := by
  rw [← Nat.ofDigitChars_ten_toDigits (n := m), h, Nat.ofDigitChars_ten_toDigits]

end Decimal

end ProductionStack
