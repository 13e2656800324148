import Mathlib.Data.List.Basic
import Mathlib.Order.Lattice

namespace ProductionStack.SlidingWindow

variable {T V : Type} [LinearOrder T] {horizon horizon' : T} {points more : List (T × V)}

/-- The oldest points go as long as they are before the horizon. -/
def expire (horizon : T) (points : List (T × V)) : List (T × V) := points.dropWhile (fun p => p.1 < horizon)

def window (horizon : T) (points : List (T × V)) : List (T × V) := points.filter (fun p => horizon ≤ p.1)

def Ordered (points : List (T × V)) : Prop := points.Pairwise (fun p q => p.1 ≤ q.1)

theorem window_append : window horizon (points ++ more) = window horizon points ++ window horizon more :=
  List.filter_append ..

theorem window_eq_self (h : ∀ p ∈ points, horizon ≤ p.1) : window horizon points = points := by
  rw [window, List.filter_eq_self]
  intro p hp
  exact decide_eq_true (h p hp)

theorem window_window (h : horizon ≤ horizon') : window horizon' (window horizon points) = window horizon' points := by
  rw [window, window, List.filter_filter]
  apply List.filter_congr
  intro p _
  have himp : horizon' ≤ p.1 → horizon ≤ p.1 := fun hp => le_trans h hp
  by_cases hp : horizon' ≤ p.1 <;> simp [hp, himp]

theorem Ordered.window (h : Ordered points) (horizon : T) : Ordered (window horizon points) :=
  List.Pairwise.sublist List.filter_sublist h

theorem Ordered.le_of_head {p : T × V} (h : Ordered (p :: points)) (hp : horizon ≤ p.1) :
    ∀ q ∈ p :: points, horizon ≤ q.1 := by
  intro q hq
  rcases List.mem_cons.mp hq with rfl | hq
  · exact hp
  · exact le_trans hp ((List.pairwise_cons.mp h).1 q hq)

/-- In an ordered list nothing that is before the horizon comes after the first point that is not. -/
theorem expire_eq_window (h : Ordered points) : expire horizon points = window horizon points := by
  induction points with
  | nil => rfl
  | cons p points ih =>
    have hrest : Ordered points := (List.pairwise_cons.mp h).2
    by_cases hp : p.1 < horizon
    · rw [expire, window, List.dropWhile_cons_of_pos (by simpa using hp), List.filter_cons_of_neg (by simpa using hp)]
      exact ih hrest
    · rw [expire, List.dropWhile_cons_of_neg (by simpa using hp), window_eq_self]
      exact h.le_of_head (not_lt.mp hp)

theorem before_append_window (h : Ordered points) (horizon : T) :
    points.filter (fun p => p.1 < horizon) ++ window horizon points = points := by
  induction points with
  | nil => rfl
  | cons p points ih =>
    have hrest : Ordered points := (List.pairwise_cons.mp h).2
    by_cases hp : p.1 < horizon
    · rw [window, List.filter_cons_of_pos (by simpa using hp), List.filter_cons_of_neg (by simpa using hp),
        List.cons_append]
      exact congrArg (p :: ·) (ih hrest)
    · have hall := h.le_of_head (not_lt.mp hp)
      rw [window_eq_self hall, List.filter_eq_nil_iff.mpr, List.nil_append]
      intro q hq
      simpa using hall q hq

theorem expire_window_append (h : Ordered (points ++ more)) (hle : horizon ≤ horizon') :
    expire horizon' (window horizon points ++ more) = window horizon' (points ++ more) := by
  have hsub : (window horizon points ++ more).Sublist (points ++ more) :=
    List.Sublist.append List.filter_sublist (List.Sublist.refl more)
  rw [expire_eq_window (List.Pairwise.sublist hsub h), window_append, window_window hle, window_append]

theorem expire_window (h : Ordered points) (hle : horizon ≤ horizon') :
    expire horizon' (window horizon points) = window horizon' points := by
  rw [expire_eq_window (h.window horizon), window_window hle]

end ProductionStack.SlidingWindow
