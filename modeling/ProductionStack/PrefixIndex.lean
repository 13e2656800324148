import Mathlib.Data.Finset.Lattice.Fold
import Mathlib.Data.List.Infix
import Mathlib.Order.Lattice.Nat

namespace ProductionStack.PrefixIndex

variable {κ ε : Type} [DecidableEq κ] [DecidableEq ε]

abbrev History (κ ε : Type) := List (List κ × ε)

def commonPrefix : List κ → List κ → Nat
  | x :: xs, y :: ys => if x = y then commonPrefix xs ys + 1 else 0
  | _, _ => 0

def holders (hist : History κ ε) (path : List κ) : Finset ε :=
  ((hist.filter (fun r => path.isPrefixOf r.1)).map Prod.snd).toFinset

/-- The longest prefix a query shares with a key of one of the owners in A. -/
def longest (hist : History κ ε) (A : Finset ε) (query : List κ) : Nat :=
  (hist.toFinset.filter (fun r => r.2 ∈ A)).sup (fun r => commonPrefix r.1 query)

def selected (hist : History κ ε) (A : Finset ε) (path : List κ) : Finset ε :=
  if path = [] then A else holders hist path ∩ A

/-- Walk down a query while the owners below are still among those selected,
counting c for each level. -/
def descend (c : Nat) (owners : List κ → Finset ε) : List κ → List κ → Nat → Finset ε → Nat × Finset ε
  | _, [], m, s => (m, s)
  | path, k :: ks, m, s =>
    if owners (path ++ [k]) ∩ s = ∅ then (m, s)
    else descend c owners (path ++ [k]) ks (m + c) (owners (path ++ [k]) ∩ s)

omit [DecidableEq ε] in
theorem le_commonPrefix_iff (n : Nat) (key query : List κ) :
    n ≤ commonPrefix key query ↔ n ≤ query.length ∧ query.take n <+: key := by
  induction query generalizing n key with
  | nil =>
    have hz : commonPrefix key [] = 0 := by cases key <;> rfl
    rw [hz]
    simp
  | cons y ys ih =>
    cases n with
    | zero => simp
    | succ n =>
      cases key with
      | nil => simp [commonPrefix]
      | cons x xs =>
        by_cases hx : x = y
        · subst hx
          simp [commonPrefix, ih]
        · have hy : y ≠ x := fun h => hx h.symm
          simp [commonPrefix, hx, hy]

theorem mem_holders {hist : History κ ε} {path : List κ} {e : ε} :
    e ∈ holders hist path ↔ ∃ key, (key, e) ∈ hist ∧ path <+: key := by
  simp [holders]

theorem holders_append_subset (hist : History κ ε) (path more : List κ) :
    holders hist (path ++ more) ⊆ holders hist path := by
  intro e he
  obtain ⟨key, hmem, hpre⟩ := mem_holders.mp he
  exact mem_holders.mpr ⟨key, hmem, (List.prefix_append path more).trans hpre⟩

theorem holders_snoc (hist : History κ ε) (key path : List κ) (e : ε) :
    holders (hist ++ [(key, e)]) path =
      if path <+: key then insert e (holders hist path) else holders hist path := by
  ext a
  by_cases hp : path <+: key
  · simp only [mem_holders, List.mem_append, List.mem_singleton, Prod.mk.injEq, if_pos hp,
      Finset.mem_insert]
    constructor
    · rintro ⟨k, hk | ⟨rfl, rfl⟩, hpre⟩
      · exact .inr ⟨k, hk, hpre⟩
      · exact .inl rfl
    · rintro (rfl | ⟨k, hk, hpre⟩)
      · exact ⟨key, .inr ⟨rfl, rfl⟩, hp⟩
      · exact ⟨k, .inl hk, hpre⟩
  · simp only [mem_holders, List.mem_append, List.mem_singleton, Prod.mk.injEq, if_neg hp]
    constructor
    · rintro ⟨k, hk | ⟨rfl, rfl⟩, hpre⟩
      · exact ⟨k, hk, hpre⟩
      · exact absurd hpre hp
    · rintro ⟨k, hk, hpre⟩
      exact ⟨k, .inl hk, hpre⟩

theorem le_longest_iff {hist : History κ ε} {A : Finset ε} {query : List κ} {n : Nat} (hn : 0 < n) :
    n ≤ longest hist A query ↔ n ≤ query.length ∧ (holders hist (query.take n) ∩ A).Nonempty := by
  rw [longest, Finset.le_sup_iff hn]
  constructor
  · rintro ⟨⟨key, e⟩, hmem, hle⟩
    simp only [Finset.mem_filter, List.mem_toFinset] at hmem
    obtain ⟨hlen, hpre⟩ := (le_commonPrefix_iff n key query).mp hle
    exact ⟨hlen, e, Finset.mem_inter.mpr ⟨mem_holders.mpr ⟨key, hmem.1, hpre⟩, hmem.2⟩⟩
  · rintro ⟨hlen, e, he⟩
    obtain ⟨hh, hA⟩ := Finset.mem_inter.mp he
    obtain ⟨key, hmem, hpre⟩ := mem_holders.mp hh
    refine ⟨(key, e), ?_, (le_commonPrefix_iff n key query).mpr ⟨hlen, hpre⟩⟩
    simpa using ⟨hmem, hA⟩

theorem longest_le_length (hist : History κ ε) (A : Finset ε) (query : List κ) : longest hist A query ≤ query.length := by
  rcases Nat.eq_zero_or_pos (longest hist A query) with h | h
  · omega
  · exact ((le_longest_iff h).mp le_rfl).1

theorem holders_inter_selected (hist : History κ ε) (A : Finset ε) (path : List κ) (k : κ) :
    holders hist (path ++ [k]) ∩ selected hist A path = selected hist A (path ++ [k]) := by
  by_cases hp : path = []
  · simp [selected, hp]
  · simp only [selected, if_neg hp, List.append_eq_nil_iff, List.cons_ne_self, and_false, if_false,
      ← Finset.inter_assoc]
    rw [Finset.inter_eq_left.mpr (holders_append_subset hist path [k])]

theorem mem_selected_take {hist : History κ ε} {A : Finset ε} {query : List κ} {n : Nat} (hn : n ≠ 0)
    (hlen : n ≤ query.length) (e : ε) :
    e ∈ selected hist A (query.take n) ↔
      e ∈ A ∧ ∃ key, (key, e) ∈ hist ∧ key.take n = query.take n := by
  have hne : query.take n ≠ [] := by
    rw [← List.length_pos_iff, List.length_take]
    omega
  rw [selected, if_neg hne, Finset.mem_inter, and_comm, mem_holders]
  refine and_congr_right fun _ => exists_congr fun key => and_congr_right fun _ => ?_
  rw [List.prefix_iff_eq_take, List.length_take, Nat.min_eq_left hlen, eq_comm]

/-- The walk stops exactly at the longest prefix shared with an owner in A,
with the owners in A of that prefix. -/
theorem descend_eq (c : Nat) (hist : History κ ε) (A : Finset ε) (path rest : List κ)
    (hreach : path.length ≤ longest hist A (path ++ rest)) :
    descend c (holders hist) path rest (c * path.length) (selected hist A path) =
      (c * longest hist A (path ++ rest),
        selected hist A ((path ++ rest).take (longest hist A (path ++ rest)))) := by
  induction rest generalizing path with
  | nil =>
    have hle := longest_le_length hist A (path ++ [])
    rw [List.append_nil] at hreach hle ⊢
    have heq : longest hist A path = path.length := Nat.le_antisymm hle hreach
    rw [heq, List.take_length]
    rfl
  | cons k ks ih =>
    have happ : path ++ k :: ks = (path ++ [k]) ++ ks := by simp
    have hcount : (path ++ [k]).length ≤ longest hist A (path ++ k :: ks) ↔
        (selected hist A (path ++ [k])).Nonempty := by
      rw [le_longest_iff (by simp), happ, List.take_left]
      simp [selected]
    rw [descend, holders_inter_selected]
    by_cases hs : selected hist A (path ++ [k]) = ∅
    · have hlt : longest hist A (path ++ k :: ks) < (path ++ [k]).length := by
        rw [← not_le, hcount, hs]
        simp
      have heq : longest hist A (path ++ k :: ks) = path.length := by
        rw [List.length_append, List.length_singleton] at hlt
        omega
      rw [if_pos hs, heq, List.take_left]
    · have hnext := hcount.mpr (Finset.nonempty_iff_ne_empty.mpr hs)
      have hmul : c * path.length + c = c * (path ++ [k]).length := by
        rw [List.length_append, List.length_singleton, Nat.mul_succ]
      rw [if_neg hs, hmul, happ]
      rw [happ] at hnext
      exact ih (path ++ [k]) hnext

end ProductionStack.PrefixIndex
