namespace ProductionStack

inductive Regex
  | empty
  | epsilon
  | chars (p : Char → Bool)
  | alt (r s : Regex)
  | seq (r s : Regex)
  | star (r : Regex)

namespace Regex

def nullable : Regex → Bool
  | empty => false
  | epsilon => true
  | chars _ => false
  | alt r s => r.nullable || s.nullable
  | seq r s => r.nullable && s.nullable
  | star _ => true

def union : Regex → Regex → Regex
  | empty, s => s
  | r, empty => r
  | r, s => alt r s

def concat : Regex → Regex → Regex
  | empty, _ => empty
  | epsilon, s => s
  | r, s => seq r s

def derivative (c : Char) : Regex → Regex
  | empty => empty
  | epsilon => empty
  | chars p => if p c then epsilon else empty
  | alt r s => union (r.derivative c) (s.derivative c)
  | seq r s =>
    if r.nullable then union (concat (r.derivative c) s) (s.derivative c)
    else concat (r.derivative c) s
  | star r => concat (r.derivative c) (star r)

def accepts (r : Regex) (text : String) : Bool :=
  (text.toList.foldl (fun r c => r.derivative c) r).nullable

def char (c : Char) : Regex := chars (· = c)

def literal (text : String) : Regex := text.toList.foldr (fun c r => seq (char c) r) epsilon

def plus (r : Regex) : Regex := seq r (star r)

def optional (r : Regex) : Regex := alt r epsilon

def exactly (r : Regex) : Nat → Regex
  | 0 => epsilon
  | n + 1 => seq r (exactly r n)

def upTo (r : Regex) : Nat → Regex
  | 0 => epsilon
  | n + 1 => optional (seq r (upTo r n))

inductive Matches : Regex → List Char → Prop
  | epsilon : Matches epsilon []
  | chars {p : Char → Bool} {c : Char} (h : p c = true) : Matches (chars p) [c]
  | left {r s : Regex} {t : List Char} (h : Matches r t) : Matches (alt r s) t
  | right {r s : Regex} {t : List Char} (h : Matches s t) : Matches (alt r s) t
  | seq {r s : Regex} {t u : List Char} (h : Matches r t) (h' : Matches s u) : Matches (seq r s) (t ++ u)
  | done {r : Regex} : Matches (star r) []
  | more {r : Regex} {t u : List Char} (h : Matches r t) (h' : Matches (star r) u) : Matches (star r) (t ++ u)

section Soundness

variable {r s : Regex} {c : Char} {t : List Char}

theorem matches_of_nullable (h : r.nullable = true) : Matches r [] := by
  induction r with
  | empty => cases h
  | epsilon => exact .epsilon
  | chars p => cases h
  | alt r s ihr ihs =>
    rw [nullable, Bool.or_eq_true] at h
    rcases h with h | h
    · exact .left (ihr h)
    · exact .right (ihs h)
  | seq r s ihr ihs =>
    rw [nullable, Bool.and_eq_true] at h
    exact .seq (ihr h.1) (ihs h.2)
  | star r _ => exact .done

theorem matches_of_union (h : Matches (union r s) t) : Matches r t ∨ Matches s t := by
  unfold union at h
  split at h
  · exact .inr h
  · exact .inl h
  · cases h with
    | left h => exact .inl h
    | right h => exact .inr h

theorem matches_of_concat (h : Matches (concat r s) t) : ∃ u v, t = u ++ v ∧ Matches r u ∧ Matches s v := by
  unfold concat at h
  split at h
  · cases h
  · exact ⟨[], t, rfl, .epsilon, h⟩
  · cases h with
    | seq h h' => exact ⟨_, _, rfl, h, h'⟩

theorem matches_of_derivative (h : Matches (r.derivative c) t) : Matches r (c :: t) := by
  induction r generalizing t with
  | empty => cases h
  | epsilon => cases h
  | chars p =>
    rw [derivative] at h
    split at h
    next hp =>
      cases h
      exact .chars hp
    · cases h
  | alt r s ihr ihs =>
    rcases matches_of_union h with h | h
    · exact .left (ihr h)
    · exact .right (ihs h)
  | seq r s ihr ihs =>
    have hconcat : Matches (concat (r.derivative c) s) t → Matches (.seq r s) (c :: t) := by
      intro h
      obtain ⟨u, v, rfl, hu, hv⟩ := matches_of_concat h
      exact .seq (ihr hu) hv
    rw [derivative] at h
    split at h
    next hnullable =>
      rcases matches_of_union h with h | h
      · exact hconcat h
      · exact .seq (matches_of_nullable hnullable) (ihs h)
    · exact hconcat h
  | star r ih =>
    obtain ⟨u, v, rfl, hu, hv⟩ := matches_of_concat h
    exact .more (ih hu) hv

theorem matches_of_accepts {text : String} (h : r.accepts text = true) : Matches r text.toList := by
  rw [accepts] at h
  generalize text.toList = t at h
  induction t generalizing r with
  | nil => exact matches_of_nullable h
  | cons c t ih => exact matches_of_derivative (ih h)

end Soundness

section Shapes

variable {r s : Regex} {t : List Char}

theorem matches_seq (h : Matches (seq r s) t) : ∃ u v, t = u ++ v ∧ Matches r u ∧ Matches s v := by
  cases h with
  | seq h h' => exact ⟨_, _, rfl, h, h'⟩

theorem matches_alt (h : Matches (alt r s) t) : Matches r t ∨ Matches s t := by
  cases h with
  | left h => exact .inl h
  | right h => exact .inr h

theorem matches_chars {p : Char → Bool} (h : Matches (chars p) t) : ∃ c, t = [c] ∧ p c = true := by
  cases h with
  | chars h => exact ⟨_, rfl, h⟩

theorem matches_optional (h : Matches (optional r) t) : Matches r t ∨ t = [] := by
  rcases matches_alt h with h | h
  · exact .inl h
  · cases h
    exact .inr rfl

theorem matches_char {c : Char} (h : Matches (char c) t) : t = [c] := by
  obtain ⟨d, rfl, hd⟩ := matches_chars h
  rw [of_decide_eq_true hd]

theorem matches_literal {text : String} (h : Matches (literal text) t) : t = text.toList := by
  rw [literal] at h
  generalize text.toList = cs at h ⊢
  induction cs generalizing t with
  | nil =>
    cases h
    rfl
  | cons c cs ih =>
    obtain ⟨u, v, rfl, hu, hv⟩ := matches_seq h
    rw [matches_char hu, ih hv, List.singleton_append]

/-- All the characters that an expression lets through. -/
def Over (A : Char → Prop) : Regex → Prop
  | empty | epsilon => True
  | chars p => ∀ c, p c = true → A c
  | alt r s | seq r s => r.Over A ∧ s.Over A
  | star r => r.Over A

theorem over_char {A : Char → Prop} {c : Char} (h : A c) : (char c).Over A := by
  intro d hd
  rwa [of_decide_eq_true hd]

theorem over_literal {A : Char → Prop} {text : String} (h : ∀ c ∈ text.toList, A c) : (literal text).Over A := by
  rw [literal]
  generalize text.toList = cs at h
  induction cs with
  | nil => trivial
  | cons c cs ih =>
    rw [List.forall_mem_cons] at h
    exact ⟨over_char h.1, ih h.2⟩

theorem over_exactly {A : Char → Prop} (h : r.Over A) (n : Nat) : (exactly r n).Over A := by
  induction n with
  | zero => trivial
  | succ n ih => exact ⟨h, ih⟩

theorem over_upTo {A : Char → Prop} (h : r.Over A) (n : Nat) : (upTo r n).Over A := by
  induction n with
  | zero => trivial
  | succ n ih => exact ⟨⟨h, ih⟩, trivial⟩

theorem Over.of_matches {A : Char → Prop} (hr : r.Over A) (h : Matches r t) : ∀ c ∈ t, A c := by
  induction h with
  | epsilon => exact List.forall_mem_nil _
  | chars h => exact List.forall_mem_singleton.mpr (hr _ h)
  | left _ ih => exact ih hr.1
  | right _ ih => exact ih hr.2
  | seq _ _ ih ih' => exact List.forall_mem_append.mpr ⟨ih hr.1, ih' hr.2⟩
  | done => exact List.forall_mem_nil _
  | more _ _ ih ih' => exact List.forall_mem_append.mpr ⟨ih hr, ih' hr⟩

end Shapes

end Regex

end ProductionStack
