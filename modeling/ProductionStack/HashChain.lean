import Mathlib.Data.List.Induction

namespace ProductionStack.HashChain

/-- An entry names the one before it by its digest, and has a digest of its own body. -/
structure Entry (B D : Type) where
  previous : D
  digest : D
  body : B

variable {B D : Type} (hash : B → D)

def ValidFrom : D → List (Entry B D) → Prop
  | _, [] => True
  | previous, e :: es => e.previous = previous ∧ e.digest = hash e.body ∧ ValidFrom e.digest es

def lastDigest (start : D) (es : List (Entry B D)) : D := (es.getLast?.map Entry.digest).getD start

variable {hash}

theorem validFrom_concat {start : D} {es : List (Entry B D)} {e : Entry B D} :
    ValidFrom hash start (es ++ [e]) ↔
      ValidFrom hash start es ∧ e.previous = lastDigest start es ∧ e.digest = hash e.body := by
  induction es generalizing start with
  | nil => simp [ValidFrom, lastDigest]
  | cons f es ih =>
    have hlast : lastDigest f.digest es = lastDigest start (f :: es) := by
      rw [lastDigest, lastDigest, List.getLast?_cons]
      cases es.getLast? <;> rfl
    rw [List.cons_append, ValidFrom, ValidFrom, ih, hlast, and_assoc, and_assoc]

theorem lastDigest_eq {start : D} {es : List (Entry B D)} (h : ValidFrom hash start es) :
    lastDigest start es = ((es.map Entry.body).getLast?.map hash).getD start := by
  cases es using List.reverseRecOn with
  | nil => rfl
  | append_singleton es e => simp [lastDigest, (validFrom_concat.mp h).2.2]

/-- Two bodies of one digest, or one whose digest is the mark of the start. -/
def Broken (hash : B → D) (start : D) (bs bs' : List B) : Prop :=
  (∃ b ∈ bs, ∃ b' ∈ bs', b ≠ b' ∧ hash b = hash b') ∨ ∃ b, (b ∈ bs ∨ b ∈ bs') ∧ hash b = start

theorem Broken.mono {start : D} {bs bs' cs cs' : List B} (h : Broken hash start bs bs') (hbs : bs ⊆ cs) (hbs' : bs' ⊆ cs') :
    Broken hash start cs cs' := by
  rcases h with ⟨b, hb, b', hb', hne, heq⟩ | ⟨b, hb, heq⟩
  · exact .inl ⟨b, hbs hb, b', hbs' hb', hne, heq⟩
  · exact .inr ⟨b, hb.imp (fun h => hbs h) (fun h => hbs' h), heq⟩

theorem broken_of_getLast?_ne {start : D} {bs bs' : List B} (hne : bs.getLast? ≠ bs'.getLast?)
    (hhash : (bs.getLast?.map hash).getD start = (bs'.getLast?.map hash).getD start) : Broken hash start bs bs' := by
  cases hb : bs.getLast? with
  | none =>
    cases hb' : bs'.getLast? with
    | none => exact absurd (hb.trans hb'.symm) hne
    | some b' =>
      rw [hb, hb'] at hhash
      exact .inr ⟨b', .inr (List.mem_of_getLast? hb'), hhash.symm⟩
  | some b =>
    cases hb' : bs'.getLast? with
    | none =>
      rw [hb, hb'] at hhash
      exact .inr ⟨b, .inl (List.mem_of_getLast? hb), hhash⟩
    | some b' =>
      rw [hb, hb'] at hne hhash
      refine .inl ⟨b, List.mem_of_getLast? hb, b', List.mem_of_getLast? hb', ?_, hhash⟩
      exact fun heq => hne (congrArg some heq)

theorem bodies_eq_or_broken {start : D} {es es' : List (Entry B D)}
    (hprevious : ∀ e ∈ es, ∀ e' ∈ es', e.body = e'.body → e.previous = e'.previous) (h : ValidFrom hash start es)
    (h' : ValidFrom hash start es') (hlast : (es.map Entry.body).getLast? = (es'.map Entry.body).getLast?) :
    es.map Entry.body = es'.map Entry.body ∨ Broken hash start (es.map Entry.body) (es'.map Entry.body) := by
  induction es using List.reverseRecOn generalizing es' with
  | nil =>
    cases es' using List.reverseRecOn with
    | nil => exact .inl rfl
    | append_singleton es' e' => simp at hlast
  | append_singleton es e ih =>
    cases es' using List.reverseRecOn with
    | nil => simp at hlast
    | append_singleton es' e' =>
      have hbody : e.body = e'.body := by simpa using hlast
      have hsame := hprevious e (by simp) e' (by simp) hbody
      obtain ⟨h, hprev, -⟩ := validFrom_concat.mp h
      obtain ⟨h', hprev', -⟩ := validFrom_concat.mp h'
      rw [hprev, hprev', lastDigest_eq h, lastDigest_eq h'] at hsame
      have hwiden : ∀ {es : List (Entry B D)} {e : Entry B D}, es.map Entry.body ⊆ (es ++ [e]).map Entry.body := by
        intro es e
        rw [List.map_append]
        exact List.subset_append_left _ _
      by_cases hbefore : (es.map Entry.body).getLast? = (es'.map Entry.body).getLast?
      · rcases ih (fun f hf f' hf' => hprevious f (List.mem_append_left _ hf) f' (List.mem_append_left _ hf')) h h' hbefore
          with hrest | hbroken
        · rw [List.map_append, List.map_append, hrest, List.map_singleton, List.map_singleton, hbody]
          exact .inl rfl
        · exact .inr (hbroken.mono hwiden hwiden)
      · exact .inr ((broken_of_getLast?_ne hbefore hsame).mono hwiden hwiden)

end ProductionStack.HashChain
