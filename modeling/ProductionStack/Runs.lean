import Mathlib.Data.List.Forall2

namespace ProductionStack.Runs

variable {σ ι ο : Type}

/-- A component keeps a state and answers one input at a time. -/
abbrev Component (σ ι ο : Type) := σ → ι → ο × σ

def final (step : Component σ ι ο) : σ → List ι → σ
  | s, [] => s
  | s, x :: xs => final step (step s x).2 xs

def outputs (step : Component σ ι ο) : σ → List ι → List ο
  | _, [] => []
  | s, x :: xs => (step s x).1 :: outputs step (step s x).2 xs

/-- Every input of the run meets the condition in the state in which it arrives. -/
def Along (step : Component σ ι ο) (C : σ → ι → Prop) : σ → List ι → Prop
  | _, [] => True
  | s, x :: xs => C s x ∧ Along step C (step s x).2 xs

instance decidableAlong (step : Component σ ι ο) (C : σ → ι → Prop) [∀ s x, Decidable (C s x)] :
    ∀ s xs, Decidable (Along step C s xs)
  | _, [] => .isTrue trivial
  | s, x :: xs => @instDecidableAnd _ _ _ (decidableAlong step C (step s x).2 xs)

variable (step : Component σ ι ο)

@[simp] theorem final_nil (s : σ) : final step s [] = s := rfl

@[simp] theorem final_cons (s : σ) (x : ι) (xs : List ι) :
    final step s (x :: xs) = final step (step s x).2 xs := rfl

@[simp] theorem outputs_nil (s : σ) : outputs step s [] = [] := rfl

@[simp] theorem outputs_cons (s : σ) (x : ι) (xs : List ι) :
    outputs step s (x :: xs) = (step s x).1 :: outputs step (step s x).2 xs := rfl

@[simp] theorem along_nil (C : σ → ι → Prop) (s : σ) : Along step C s [] := trivial

@[simp] theorem along_cons (C : σ → ι → Prop) (s : σ) (x : ι) (xs : List ι) :
    Along step C s (x :: xs) ↔ C s x ∧ Along step C (step s x).2 xs := Iff.rfl

theorem final_append (s : σ) (xs ys : List ι) : final step s (xs ++ ys) = final step (final step s xs) ys := by
  induction xs generalizing s with
  | nil => rfl
  | cons x xs ih => exact ih _

theorem outputs_append (s : σ) (xs ys : List ι) :
    outputs step s (xs ++ ys) = outputs step s xs ++ outputs step (final step s xs) ys := by
  induction xs generalizing s with
  | nil => rfl
  | cons x xs ih => simp [ih]

theorem outputs_length (s : σ) (xs : List ι) : (outputs step s xs).length = xs.length := by
  induction xs generalizing s with
  | nil => rfl
  | cons x xs ih => simp [ih]

theorem zip_outputs_concat (s : σ) (xs : List ι) (x : ι) :
    (xs ++ [x]).zip (outputs step s (xs ++ [x])) = xs.zip (outputs step s xs) ++ [(x, (step (final step s xs) x).1)] := by
  rw [outputs_append, List.zip_append (outputs_length step s xs).symm]
  rfl

theorem outputs_getElem (s : σ) (xs ys : List ι) (x : ι) :
    (outputs step s (xs ++ x :: ys))[xs.length]? = some (step (final step s xs) x).1 := by
  rw [outputs_append, ← outputs_length step s xs, List.getElem?_append_right (Nat.le_refl _)]
  simp

theorem outputs_drop (s : σ) (xs ys : List ι) (x : ι) :
    (outputs step s (xs ++ x :: ys)).drop (xs.length + 1) =
      outputs step (step (final step s xs) x).2 ys := by
  rw [outputs_append, ← outputs_length step s xs, List.drop_length_add_append]
  rfl

theorem along_append (C : σ → ι → Prop) (s : σ) (xs ys : List ι) :
    Along step C s (xs ++ ys) ↔ Along step C s xs ∧ Along step C (final step s xs) ys := by
  induction xs generalizing s with
  | nil => simp
  | cons x xs ih => simp [ih, and_assoc]

variable {s : σ} {xs : List ι} {C : σ → ι → Prop}

theorem mem_outputs {y : ο} (h : y ∈ outputs step s xs) :
    ∃ pre x post, xs = pre ++ x :: post ∧ y = (step (final step s pre) x).1 := by
  induction xs generalizing s with
  | nil => cases h
  | cons x xs ih =>
    rcases List.mem_cons.mp h with rfl | hrest
    · exact ⟨[], x, xs, rfl, rfl⟩
    · obtain ⟨pre, z, post, rfl, hy⟩ := ih hrest
      exact ⟨x :: pre, z, post, rfl, hy⟩

theorem output_mem (s : σ) (pre post : List ι) (x : ι) :
    (step (final step s pre) x).1 ∈ outputs step s (pre ++ x :: post) := by
  rw [outputs_append, outputs_cons]
  exact List.mem_append_right _ (List.mem_cons_self ..)

theorem along_of_forall (h : ∀ pre x post, xs = pre ++ x :: post → C (final step s pre) x) : Along step C s xs := by
  induction xs generalizing s with
  | nil => trivial
  | cons x xs ih =>
    refine ⟨h [] x xs rfl, ih ?_⟩
    rintro pre y post rfl
    exact h (x :: pre) y post rfl

variable {step}

theorem final_invariant {I : σ → Prop} (hstep : ∀ s x, I s → C s x → I (step s x).2) (hs : I s) (hC : Along step C s xs)
    : I (final step s xs) := by
  induction xs generalizing s with
  | nil => exact hs
  | cons x xs ih => exact ih (hstep s x hs hC.1) hC.2

theorem final_preserves {I : σ → Prop} (hstep : ∀ s x, I s → I (step s x).2) (hs : I s) (xs : List ι) :
    I (final step s xs) := by
  induction xs generalizing s with
  | nil => exact hs
  | cons x xs ih => exact ih (hstep s x hs)

/-- A property that a step keeps exactly when its input meets the condition holds at every point of
exactly those runs all of whose inputs meet it. -/
theorem forall_prefix_iff_along {I P : σ → Prop} (hinv : ∀ s x, I s → I (step s x).2)
    (hstep : ∀ s, ∀ x ∈ xs, I s → P s → (P (step s x).2 ↔ C s x)) (hI : I s) (hP : P s) :
    (∀ pre, pre <+: xs → P (final step s pre)) ↔ Along step C s xs := by
  induction xs generalizing s with
  | nil =>
    refine iff_of_true ?_ trivial
    intro pre hpre
    rw [List.prefix_nil.mp hpre]
    exact hP
  | cons x xs ih =>
    have hx := hstep s x List.mem_cons_self hI hP
    have hxs : ∀ s, ∀ y ∈ xs, I s → P s → (P (step s y).2 ↔ C s y) := fun s y hy => hstep s y (List.mem_cons_of_mem x hy)
    constructor
    · intro h
      have hnext : P (step s x).2 := h [x] (by simp)
      refine ⟨hx.mp hnext, (ih hxs (hinv s x hI) hnext).mp ?_⟩
      intro pre hpre
      exact h (x :: pre) (List.cons_prefix_cons.mpr ⟨rfl, hpre⟩)
    · rintro ⟨hC, hrest⟩ pre hpre
      cases pre with
      | nil => exact hP
      | cons y pre =>
        obtain ⟨rfl, htail⟩ := List.cons_prefix_cons.mp hpre
        exact (ih hxs (hinv s y hI) (hx.mpr hC)).mpr hrest pre htail

theorem outputs_forall₂ {I : σ → Prop} {P : ι → ο → Prop} (hstep : ∀ s x, I s → C s x → P x (step s x).1 ∧ I (step s x).2)
    (hs : I s) (hC : Along step C s xs) : List.Forall₂ P xs (outputs step s xs) := by
  induction xs generalizing s with
  | nil => exact .nil
  | cons x xs ih =>
    obtain ⟨hp, hi⟩ := hstep s x hs hC.1
    exact .cons hp (ih hi hC.2)

theorem outputs_forall₂_iff {P : ι → ο → Prop} (hstep : ∀ s, ∀ x ∈ xs, P x (step s x).1 ↔ C s x) (s : σ) :
    List.Forall₂ P xs (outputs step s xs) ↔ Along step C s xs := by
  induction xs generalizing s with
  | nil => simp
  | cons x xs ih =>
    have hrest := ih (fun s y hy => hstep s y (List.mem_cons_of_mem x hy))
    rw [outputs_cons, List.forall₂_cons, hstep s x List.mem_cons_self, hrest, along_cons]

theorem along_of_forall_mem {C : ι → Prop} (h : ∀ x ∈ xs, C x) (s : σ) : Along step (fun _ x => C x) s xs := by
  induction xs generalizing s with
  | nil => trivial
  | cons x xs ih =>
    exact ⟨h x (by simp), ih (fun y hy => h y (by simp [hy])) _⟩

theorem along_congr {C D : σ → ι → Prop} {I : σ → Prop} (hiff : ∀ s, ∀ x ∈ xs, I s → (C s x ↔ D s x))
    (hstep : ∀ s, ∀ x ∈ xs, I s → D s x → I (step s x).2) (hs : I s) : Along step C s xs ↔ Along step D s xs := by
  induction xs generalizing s with
  | nil => exact Iff.rfl
  | cons x xs ih =>
    have hx : x ∈ x :: xs := List.mem_cons_self
    rw [along_cons, along_cons, hiff s x hx hs]
    refine and_congr_right (fun hD => ih ?_ ?_ (hstep s x hx hs hD))
    · exact fun s y hy => hiff s y (List.mem_cons_of_mem x hy)
    · exact fun s y hy => hstep s y (List.mem_cons_of_mem x hy)

theorem along_mono {C D : σ → ι → Prop} (h : ∀ s x, C s x → D s x) (hC : Along step C s xs) : Along step D s xs := by
  induction xs generalizing s with
  | nil => trivial
  | cons x xs ih => exact ⟨h s x hC.1, ih hC.2⟩

theorem along_and {C D : σ → ι → Prop} (hC : Along step C s xs) (hD : Along step D s xs) :
    Along step (fun s x => C s x ∧ D s x) s xs := by
  induction xs generalizing s with
  | nil => trivial
  | cons x xs ih => exact ⟨⟨hC.1, hD.1⟩, ih hC.2 hD.2⟩

end ProductionStack.Runs
