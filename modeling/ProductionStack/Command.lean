import Mathlib.Data.List.Basic
import ProductionStack.Basic

namespace ProductionStack

/-- A command changes a state and may stop with an error. What it changed until then stays changed. -/
def Command (σ ε α : Type) := σ → Except ε α × σ

namespace Command

variable {σ ε α β : Type}

instance : Monad (Command σ ε) where
  pure a := fun s => (.ok a, s)
  bind c f := fun s =>
    match c s with
    | (.ok a, s') => f a s'
    | (.error e, s') => (.error e, s')

def fail (e : ε) : Command σ ε α := fun s => (.error e, s)

def state : Command σ ε σ := fun s => (.ok s, s)

def modify (f : σ → σ) : Command σ ε Unit := fun s => (.ok (), f s)

def ofExcept (x : Except ε α) : Command σ ε α := fun s => (x, s)

def focus {τ : Type} (part : σ → τ) (replace : τ → σ → σ) (c : Command τ ε α) : Command σ ε α :=
  fun s => ((c (part s)).1, replace (c (part s)).2 s)

def mapError (f : ε → ε) (c : Command σ ε α) : Command σ ε α := fun s => ((c s).1.mapError f, (c s).2)

def attempt (c : Command σ ε α) : Command σ ε (Except ε α) := fun s => (.ok (c s).1, (c s).2)

def forEach (f : α → Command σ ε Unit) : List α → Command σ ε Unit
  | [] => pure ()
  | a :: as => do
      f a
      forEach f as

def gather (f : α → Command σ ε (List β)) : List α → Command σ ε (List β)
  | [] => pure []
  | a :: as => do
      let bs ← f a
      let rest ← gather f as
      return bs ++ rest

theorem bind_apply (c : Command σ ε α) (f : α → Command σ ε β) (s : σ) :
    (c >>= f) s = match c s with
      | (.ok a, s') => f a s'
      | (.error e, s') => (.error e, s') := rfl

theorem bind_of_ok {c : Command σ ε α} {f : α → Command σ ε β} {a : α} {s s' : σ} (h : c s = (.ok a, s')) :
    (c >>= f) s = f a s' := by
  rw [bind_apply, h]

theorem exists_of_bind_ok {c : Command σ ε α} {f : α → Command σ ε β} {b : β} {s s' : σ} (h : (c >>= f) s = (.ok b, s')) :
    ∃ a t, c s = (.ok a, t) ∧ f a t = (.ok b, s') := by
  rw [bind_apply] at h
  rcases hrun : c s with ⟨e | a, t⟩
  · rw [hrun] at h
    cases h
  · rw [hrun] at h
    exact ⟨a, t, rfl, h⟩

theorem bind_bind {γ : Type} (c : Command σ ε α) (f : α → Command σ ε β) (g : β → Command σ ε γ) :
    c >>= f >>= g = c >>= fun a => f a >>= g := by
  funext s
  simp only [bind_apply]
  rcases c s with ⟨_ | _, _⟩ <;> rfl

theorem pure_bind (a : α) (f : α → Command σ ε β) : pure a >>= f = f a := rfl

theorem fail_bind (e : ε) (f : α → Command σ ε β) : fail e >>= f = fail e := rfl

/-- The weakest precondition: run from the state, the command ends with a result and a state in
the first relation or with an error and a state in the second. -/
def wp (c : Command σ ε α) (Q : α → σ → Prop) (E : ε → σ → Prop) (s : σ) : Prop :=
  match c s with
  | (.ok a, s') => Q a s'
  | (.error e, s') => E e s'

section Rules

variable {Q : α → σ → Prop} {E : ε → σ → Prop} {s : σ}

@[simp] theorem wp_pure {a : α} : wp (pure a) Q E s ↔ Q a s := Iff.rfl

@[simp] theorem wp_fail {e : ε} : wp (fail e) Q E s ↔ E e s := Iff.rfl

@[simp] theorem wp_state {Q : σ → σ → Prop} : wp state Q E s ↔ Q s s := Iff.rfl

@[simp] theorem wp_modify {f : σ → σ} {Q : Unit → σ → Prop} : wp (modify f) Q E s ↔ Q () (f s) := Iff.rfl

@[simp] theorem wp_ofExcept {x : Except ε α} : wp (ofExcept x) Q E s ↔ Meets x (fun a => Q a s) (fun e => E e s) := by
  cases x <;> rfl

@[simp] theorem wp_focus {τ : Type} {part : σ → τ} {replace : τ → σ → σ} {c : Command τ ε α} :
    wp (focus part replace c) Q E s ↔ wp c (fun a t => Q a (replace t s)) (fun e t => E e (replace t s)) (part s) := by
  simp only [wp, focus]
  rcases c (part s) with ⟨e | a, t⟩ <;> rfl

@[simp] theorem wp_bind {c : Command σ ε α} {f : α → Command σ ε β} {Q : β → σ → Prop} :
    wp (c >>= f) Q E s ↔ wp c (fun a s' => wp (f a) Q E s') E s := by
  rw [wp, bind_apply, wp]
  rcases c s with ⟨e | a, s'⟩ <;> rfl

@[simp] theorem wp_mapError {c : Command σ ε α} {f : ε → ε} :
    wp (mapError f c) Q E s ↔ wp c Q (fun e s' => E (f e) s') s := by
  simp only [wp, mapError]
  rcases c s with ⟨e | a, s'⟩ <;> rfl

@[simp] theorem wp_attempt {c : Command σ ε α} {Q : Except ε α → σ → Prop} :
    wp (attempt c) Q E s ↔ wp c (fun a s' => Q (.ok a) s') (fun e s' => Q (.error e) s') s := by
  simp only [wp, attempt]
  rcases c s with ⟨e | a, s'⟩ <;> rfl

theorem wp_mono {c : Command σ ε α} {Q' : α → σ → Prop} {E' : ε → σ → Prop} (h : wp c Q E s)
    (hQ : ∀ a s', Q a s' → Q' a s') (hE : ∀ e s', E e s' → E' e s') : wp c Q' E' s := by
  rw [wp] at h ⊢
  rcases hrun : c s with ⟨e | a, s'⟩
  · rw [hrun] at h
    exact hE e s' h
  · rw [hrun] at h
    exact hQ a s' h

theorem wp_run {c : Command σ ε α} (h : wp c Q E s) :
    wp c (fun a s' => c s = (.ok a, s') ∧ Q a s') (fun e s' => c s = (.error e, s') ∧ E e s') s := by
  rw [wp] at h ⊢
  rcases hrun : c s with ⟨e | a, s'⟩
  · rw [hrun] at h
    exact ⟨rfl, h⟩
  · rw [hrun] at h
    exact ⟨rfl, h⟩

theorem wp_bind_of_succeeds {c : Command σ ε α} {f : α → Command σ ε β} {P : β → σ → Prop}
    (h : wp c Q (fun _ _ => False) s) (hrest : ∀ a s', Q a s' → wp (f a) P E s') : wp (c >>= f) P E s :=
  wp_bind.mpr (wp_mono h hrest (fun _ _ hfalse => hfalse.elim))

theorem wp_cases {c : Command σ ε α} (h : wp c Q E s) :
    (∃ a, (c s).1 = .ok a ∧ Q a (c s).2) ∨ ∃ e, (c s).1 = .error e ∧ E e (c s).2 := by
  rw [wp] at h
  rcases hrun : c s with ⟨e | a, s'⟩
  · rw [hrun] at h
    exact .inr ⟨e, rfl, h⟩
  · rw [hrun] at h
    exact .inl ⟨a, rfl, h⟩

/-- The invariant is over the elements that are done. -/
theorem wp_forEach {f : α → Command σ ε Unit} (I : List α → σ → Prop) (l : List α)
    (hstep : ∀ done a rest s, l = done ++ a :: rest → I done s →
      wp (f a) (fun _ s' => I (done ++ [a]) s') E s)
    (h : I [] s) : wp (forEach f l) (fun _ s' => I l s') E s := by
  suffices hrest : ∀ rest done s, l = done ++ rest → I done s →
      wp (forEach f rest) (fun _ s' => I l s') E s from hrest l [] s rfl h
  intro rest
  induction rest with
  | nil =>
    intro done s hl hdone
    rw [List.append_nil] at hl
    exact hl ▸ hdone
  | cons a rest ih =>
    intro done s hl hdone
    rw [forEach, wp_bind]
    refine wp_mono (hstep done a rest s hl hdone) ?_ (fun _ _ herror => herror)
    intro _ s' hnext
    exact ih (done ++ [a]) s' (by rw [hl, List.append_assoc, List.singleton_append]) hnext

theorem wp_gather {f : α → Command σ ε (List β)} {g : α → List β} {I : σ → Prop} (l : List α)
    (hstep : ∀ a ∈ l, ∀ s, I s → wp (f a) (fun bs s' => bs = g a ∧ I s') E s) (h : I s) :
    wp (gather f l) (fun bs s' => bs = l.flatMap g ∧ I s') E s := by
  induction l generalizing s with
  | nil => exact ⟨rfl, h⟩
  | cons a l ih =>
    rw [gather, wp_bind]
    refine wp_mono (hstep a List.mem_cons_self s h) ?_ (fun _ _ herror => herror)
    rintro bs s' ⟨rfl, hs'⟩
    rw [wp_bind]
    refine wp_mono (ih (fun b hb => hstep b (List.mem_cons_of_mem a hb)) hs') ?_ (fun _ _ herror => herror)
    rintro rest s'' ⟨rfl, hs''⟩
    exact ⟨rfl, hs''⟩

end Rules

section TwoRuns

variable {σ' : Type} {R : σ → σ' → Prop} {s : σ} {s' : σ'}

/-- Run from the two states, the commands end alike and leave related states. -/
def AgreeAt (R : σ → σ' → Prop) (c : Command σ ε α) (c' : Command σ' ε α) (s : σ) (s' : σ') : Prop :=
  (c s).1 = (c' s').1 ∧ R (c s).2 (c' s').2

theorem agreeAt_ofExcept (h : R s s') (x : Except ε α) : AgreeAt R (ofExcept x) (ofExcept x) s s' := ⟨rfl, h⟩

theorem agreeAt_fail (h : R s s') (e : ε) : AgreeAt R (fail e : Command σ ε α) (fail e) s s' := ⟨rfl, h⟩

theorem agreeAt_pure (h : R s s') (a : α) : AgreeAt R (pure a : Command σ ε α) (pure a) s s' := ⟨rfl, h⟩

theorem agreeAt_modify {f : σ → σ} {f' : σ' → σ'} (h : R (f s) (f' s')) :
    AgreeAt R (modify f : Command σ ε Unit) (modify f') s s' := ⟨rfl, h⟩

theorem agreeAt_bind {c : Command σ ε α} {c' : Command σ' ε α} {f : α → Command σ ε β} {f' : α → Command σ' ε β}
    (h : AgreeAt R c c' s s') (hf : ∀ a t t', R t t' → AgreeAt R (f a) (f' a) t t') :
    AgreeAt R (c >>= f) (c' >>= f') s s' := by
  obtain ⟨hresult, hstates⟩ := h
  rw [AgreeAt, bind_apply, bind_apply]
  rcases hrun : c s with ⟨result, t⟩
  rcases hrun' : c' s' with ⟨result', t'⟩
  rw [hrun, hrun'] at hresult hstates
  obtain rfl : result = result' := hresult
  cases result with
  | error e => exact ⟨rfl, hstates⟩
  | ok a => exact hf a t t' hstates

theorem agreeAt_state_bind {f : σ → Command σ ε β} {f' : σ' → Command σ' ε β} (h : AgreeAt R (f s) (f' s') s s') :
    AgreeAt R (state >>= f) (state >>= f') s s' := h

theorem agreeAt_mapError {c : Command σ ε α} {c' : Command σ' ε α} (h : AgreeAt R c c' s s') (f : ε → ε) :
    AgreeAt R (mapError f c) (mapError f c') s s' := ⟨congrArg (Except.mapError f) h.1, h.2⟩

theorem agreeAt_attempt {c : Command σ ε α} {c' : Command σ' ε α} (h : AgreeAt R c c' s s') :
    AgreeAt R (attempt c) (attempt c') s s' := ⟨congrArg Except.ok h.1, h.2⟩

theorem agreeAt_focus {τ τ' : Type} {T : τ → τ' → Prop} {part : σ → τ} {part' : σ' → τ'} {replace : τ → σ → σ}
    {replace' : τ' → σ' → σ'} {c : Command τ ε α} {c' : Command τ' ε α} (h : AgreeAt T c c' (part s) (part' s'))
    (hreplace : ∀ t t', T t t' → R (replace t s) (replace' t' s')) :
    AgreeAt R (focus part replace c) (focus part' replace' c') s s' := ⟨h.1, hreplace _ _ h.2⟩

end TwoRuns

end Command

end ProductionStack
