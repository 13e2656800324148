import ProductionStack.Basic

namespace ProductionStack

/-- A thread shares a state with others and goes on by atomic actions: each changes the state, and what
comes after it may depend on the state it found. -/
inductive Thread (σ ε α : Type)
  | ret (a : α)
  | fail (e : ε)
  | act (update : σ → σ) (next : σ → Thread σ ε α)

namespace Thread

variable {σ ε α β : Type}

def bind : Thread σ ε α → (α → Thread σ ε β) → Thread σ ε β
  | ret a, k => k a
  | fail e, _ => fail e
  | act update next, k => act update (fun s => bind (next s) k)

instance : Monad (Thread σ ε) where
  pure := ret
  bind := bind

def ofExcept : Except ε α → Thread σ ε α
  | .ok a => ret a
  | .error e => fail e

def atomic (c : σ → Except ε α × σ) : Thread σ ε α := act (fun s => (c s).2) (fun s => ofExcept (c s).1)

/-- One action of the thread; one that has ended stays as it is. -/
def step : Thread σ ε α → σ → Thread σ ε α × σ
  | act update next, s => (next s, update s)
  | t, s => (t, s)

/-- The thread run to its end with no other thread between its actions. -/
def alone : Thread σ ε α → σ → Except ε α × σ
  | ret a, s => (.ok a, s)
  | fail e, s => (.error e, s)
  | act update next, s => alone (next s) (update s)

def returned : Thread σ ε α → Bool
  | ret _ => true
  | _ => false

def failed : Thread σ ε α → Bool
  | fail _ => true
  | _ => false

theorem alone_step (t : Thread σ ε α) (s : σ) : alone (t.step s).1 (t.step s).2 = alone t s := by
  cases t <;> rfl

@[simp] theorem alone_pure (a : α) (s : σ) : alone (pure a : Thread σ ε α) s = (.ok a, s) := rfl

@[simp] theorem alone_fail (e : ε) (s : σ) : alone (fail e : Thread σ ε α) s = (.error e, s) := rfl

@[simp] theorem alone_ofExcept (x : Except ε α) (s : σ) : alone (ofExcept x) s = (x, s) := by
  cases x <;> rfl

@[simp] theorem alone_atomic (c : σ → Except ε α × σ) (s : σ) : alone (atomic c) s = c s :=
  alone_ofExcept (c s).1 (c s).2

@[simp] theorem alone_bind (t : Thread σ ε α) (k : α → Thread σ ε β) (s : σ) :
    alone (t >>= k) s = match alone t s with
      | (.ok a, s') => alone (k a) s'
      | (.error e, s') => (.error e, s') := by
  induction t generalizing s with
  | ret a => rfl
  | fail e => rfl
  | act update next ih => exact ih s (update s)

theorem alone_bind_returns {t : Thread σ ε α} {k : α → Thread σ ε β} {s s' : σ} {b : β}
    (h : alone (t >>= k) s = (.ok b, s')) : ∃ a s₁, alone t s = (.ok a, s₁) ∧ alone (k a) s₁ = (.ok b, s') := by
  rw [alone_bind] at h
  rcases hrun : alone t s with ⟨e | a, s₁⟩
  · rw [hrun] at h
    cases h
  · rw [hrun] at h
    exact ⟨a, s₁, rfl, h⟩

theorem step_of_returned {t : Thread σ ε α} (h : t.returned = true) (s : σ) : t.step s = (t, s) := by
  cases t with
  | ret a => rfl
  | _ => cases h

theorem alone_of_returned {t : Thread σ ε Unit} (h : t.returned = true) (s : σ) : alone t s = (.ok (), s) := by
  cases t with
  | ret a => rfl
  | _ => cases h

end Thread

end ProductionStack
