import Mathlib.Logic.Basic

namespace ProductionStack.Quiescence

variable {σ τ ε α : Type}

/-- A pass fails, finds nothing to write, or writes once and is then run again. -/
abbrev Pass (σ ε : Type) := σ → Except ε (Option σ)

inductive Quiesces (pass : Pass σ ε) : σ → Prop
  | quiet {s : σ} (h : pass s = .ok none) : Quiesces pass s
  | step {s s' : σ} (h : pass s = .ok (some s')) (hrest : Quiesces pass s') : Quiesces pass s

def skip : Pass σ ε := fun _ => .ok none

theorem quiesces_skip (s : σ) : Quiesces (skip : Pass σ ε) s := .quiet rfl

/-- The second part is looked at when the first has nothing to write. -/
def both (p : Pass σ ε) (q : Pass τ ε) : Pass (σ × τ) ε := fun s =>
  match p s.1 with
  | .error e => .error e
  | .ok (some left) => .ok (some (left, s.2))
  | .ok none =>
    match q s.2 with
    | .error e => .error e
    | .ok (some right) => .ok (some (s.1, right))
    | .ok none => .ok none

theorem both_eq_none_iff {p : Pass σ ε} {q : Pass τ ε} {s : σ × τ} :
    both p q s = .ok none ↔ p s.1 = .ok none ∧ q s.2 = .ok none := by
  rw [both]
  rcases p s.1 with e | _ | left
  · simp
  · rcases q s.2 with e | _ | right <;> simp
  · simp

theorem both_eq_some_iff {p : Pass σ ε} {q : Pass τ ε} {s s' : σ × τ} :
    both p q s = .ok (some s') ↔ (p s.1 = .ok (some s'.1) ∧ s'.2 = s.2) ∨
      (p s.1 = .ok none ∧ s'.1 = s.1 ∧ q s.2 = .ok (some s'.2)) := by
  obtain ⟨left', right'⟩ := s'
  rw [both]
  rcases p s.1 with e | _ | left
  · simp
  · rcases q s.2 with e | _ | right
    · simp
    · simp
    · simp [eq_comm]
  · simp [eq_comm]

theorem quiesces_both_iff {p : Pass σ ε} {q : Pass τ ε} {s : σ × τ} :
    Quiesces (both p q) s ↔ Quiesces p s.1 ∧ Quiesces q s.2 := by
  constructor
  · intro h
    induction h with
    | quiet hquiet =>
      obtain ⟨hp, hq⟩ := both_eq_none_iff.mp hquiet
      exact ⟨.quiet hp, .quiet hq⟩
    | step hstep _ ih =>
      rcases both_eq_some_iff.mp hstep with ⟨hp, hsame⟩ | ⟨hp, -, hq⟩
      · exact ⟨.step hp ih.1, hsame ▸ ih.2⟩
      · exact ⟨.quiet hp, .step hq ih.2⟩
  · obtain ⟨left, right⟩ := s
    rintro ⟨hp, hq⟩
    dsimp only at hp hq
    -- First the left part comes to rest, then the right one.
    induction hp with
    | @quiet left hquiet =>
      induction hq with
      | quiet hquiet' => exact .quiet (both_eq_none_iff.mpr ⟨hquiet, hquiet'⟩)
      | @step right right' hstep _ ih =>
        have hboth : both p q (left, right) = .ok (some (left, right')) :=
          both_eq_some_iff.mpr (.inr ⟨hquiet, rfl, hstep⟩)
        exact .step hboth ih
    | @step left left' hstep _ ih =>
      have hboth : both p q (left, right) = .ok (some (left', right)) := both_eq_some_iff.mpr (.inl ⟨hstep, rfl⟩)
      exact .step hboth ih

/-- An object that is made when it is missing and made anew when it is found stale. -/
structure Slot (α ε : Type) where
  make : Except ε α
  stale : α → Except ε Bool

def Slot.pass (slot : Slot α ε) : Pass (Option α) ε
  | none => do
      let made ← slot.make
      return some (some made)
  | some found => do
      if ← slot.stale found then
        let made ← slot.make
        return some (some made)
      else return none

theorem Slot.pass_fresh {slot : Slot α ε} {found : α} (h : slot.stale found = .ok false) :
    slot.pass (some found) = .ok none := by
  simp only [Slot.pass, h, bind, Except.bind]
  rfl

theorem Slot.pass_makes {slot : Slot α ε} {o : Option α} {made : α}
    (hstale : ∀ found, o = some found → slot.stale found = .ok true) (hmake : slot.make = .ok made) :
    slot.pass o = .ok (some (some made)) := by
  cases o with
  | none =>
    simp only [Slot.pass, hmake, bind, Except.bind]
    rfl
  | some found =>
    simp only [Slot.pass, hstale found rfl, hmake, bind, Except.bind]
    rfl

theorem Slot.pass_cases {slot : Slot α ε} {o : Option α} {o' : Option (Option α)} (h : slot.pass o = .ok o') :
    (o' = none ∧ ∃ found, o = some found ∧ slot.stale found = .ok false) ∨
      ((∀ found, o = some found → slot.stale found = .ok true) ∧
        ∃ made, slot.make = .ok made ∧ o' = some (some made)) := by
  cases o with
  | none =>
    cases hmake : slot.make with
    | error e => simp [Slot.pass, hmake, bind, Except.bind] at h
    | ok made =>
      rw [Slot.pass_makes (by simp) hmake] at h
      cases h
      exact .inr ⟨by simp, made, rfl, rfl⟩
  | some found =>
    rcases hstale : slot.stale found with e | _ | _
    · simp [Slot.pass, hstale, bind, Except.bind] at h
    · rw [Slot.pass_fresh hstale] at h
      cases h
      exact .inl ⟨rfl, found, rfl, hstale⟩
    · have hall : ∀ found', some found = some found' → slot.stale found' = .ok true :=
        fun found' hfound => Option.some.inj hfound ▸ hstale
      cases hmake : slot.make with
      | error e => simp [Slot.pass, hstale, hmake, bind, Except.bind] at h
      | ok made =>
        rw [Slot.pass_makes hall hmake] at h
        cases h
        exact .inr ⟨hall, made, rfl, rfl⟩

theorem Slot.quiesces_iff {slot : Slot α ε} {o : Option α} :
    Quiesces slot.pass o ↔ (∀ found, o = some found → ∃ stale, slot.stale found = .ok stale) ∧
      ((∃ found, o = some found ∧ slot.stale found = .ok false) ∨
        ∃ made, slot.make = .ok made ∧ slot.stale made = .ok false) := by
  constructor
  · intro h
    induction h with
    | quiet hquiet =>
      obtain ⟨-, found, rfl, hfresh⟩ | ⟨-, made, -, hnone⟩ := Slot.pass_cases hquiet
      · exact ⟨fun found' hfound => ⟨false, Option.some.inj hfound ▸ hfresh⟩, .inl ⟨found, rfl, hfresh⟩⟩
      · cases hnone
    | step hstep _ ih =>
      obtain ⟨hnone, -⟩ | ⟨hstale, made, hmake, hs'⟩ := Slot.pass_cases hstep
      · cases hnone
      -- What is made stays as it is in the next pass, or the pass after it makes the same again.
      · refine ⟨fun found hfound => ⟨true, hstale found hfound⟩, .inr ?_⟩
        rcases ih.2 with ⟨found, hfound, hfresh⟩ | hmade
        · cases (Option.some.inj hs').symm.trans hfound
          exact ⟨made, hmake, hfresh⟩
        · exact hmade
  · rintro ⟨hcompared, hfresh⟩
    by_cases hthere : ∃ found, o = some found ∧ slot.stale found = .ok false
    · obtain ⟨found, rfl, hfound⟩ := hthere
      exact .quiet (Slot.pass_fresh hfound)
    · obtain ⟨made, hmake, hmade⟩ := hfresh.resolve_left hthere
      have hstale : ∀ found, o = some found → slot.stale found = .ok true := by
        intro found hfound
        obtain ⟨stale, hstale⟩ := hcompared found hfound
        cases stale with
        | true => exact hstale
        | false => exact absurd ⟨found, hfound, hstale⟩ hthere
      exact .step (Slot.pass_makes hstale hmake) (.quiet (Slot.pass_fresh hmade))

end ProductionStack.Quiescence
