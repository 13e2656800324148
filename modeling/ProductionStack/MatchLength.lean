import ProductionStack.Hashtrie
import ProductionStack.Slices

namespace ProductionStack.Hashtrie

open PrefixIndex Slices

section Lengths

variable {H : Type} [DecidableEq H]

/-- The length is that of a prefix which the query has in common with a prompt inserted for one of the endpoints. -/
def RealPrefix (calls : List (String × String)) (query : String) (result : Nat × Finset String) : Prop :=
  result.1 ≤ query.length ∧
    ∃ prompt endpoint, (prompt, endpoint) ∈ calls ∧ endpoint ∈ result.2 ∧
      prompt.toList.take result.1 = query.toList.take result.1

variable {chunkHash : String → H} {chunkSize : ℕ+} {calls : List (String × String)} {query : String} {A : Finset String}

omit [DecidableEq H] in
theorem chunkAndHash_eq (chunkHash : String → H) (chunkSize : ℕ+) (request : String) :
    chunkAndHash chunkHash chunkSize request =
      (slices chunkSize request.toList).map (fun slice => chunkHash (String.ofList slice)) := by
  rw [chunkAndHash, slices, List.map_map]
  rfl

omit [DecidableEq H] in
theorem length_chunkAndHash (request : String) :
    (chunkAndHash chunkHash chunkSize request).length = (slices chunkSize request.toList).length := by
  rw [chunkAndHash_eq, List.length_map]

omit [DecidableEq H] in
theorem chunk_injective (hinj : Function.Injective chunkHash) :
    Function.Injective (fun slice : List Char => chunkHash (String.ofList slice)) :=
  hinj.comp (fun _ _ h => String.ofList_injective h)

omit [DecidableEq H] in
theorem take_eq_of_take_chunkAndHash (hinj : Function.Injective chunkHash) {p q : String} {k : Nat}
    (h : (chunkAndHash chunkHash chunkSize p).take k = (chunkAndHash chunkHash chunkSize q).take k) :
    p.toList.take (chunkSize * k) = q.toList.take (chunkSize * k) := by
  rw [chunkAndHash_eq, chunkAndHash_eq, ← List.map_take, ← List.map_take] at h
  exact take_eq_of_take_slices ((chunk_injective hinj).list_map h)

omit [DecidableEq H] in
theorem query_eq_of_chunks_isPrefix (hinj : Function.Injective chunkHash) {prompt : String}
    (hpre : chunkAndHash chunkHash chunkSize query <+: chunkAndHash chunkHash chunkSize prompt)
    (hshort : ¬(chunkSize : Nat) ∣ query.length) : query = prompt := by
  rw [chunkAndHash_eq, chunkAndHash_eq, List.prefix_map_iff_of_injective (chunk_injective hinj)] at hpre
  rw [← String.length_toList] at hshort
  exact String.toList_injective (eq_of_slices_isPrefix hpre hshort)

theorem longest_lt_iff (hinj : Function.Injective chunkHash) (hshort : ¬(chunkSize : Nat) ∣ query.length) :
    longest (hashed chunkHash chunkSize calls) A (chunkAndHash chunkHash chunkSize query) <
        (chunkAndHash chunkHash chunkSize query).length ↔ ∀ e ∈ A, (query, e) ∉ calls := by
  have hpos : 0 < (chunkAndHash chunkHash chunkSize query).length := by
    rw [length_chunkAndHash, ← not_le, length_slices_le, Nat.mul_zero, Nat.le_zero, String.length_toList]
    intro hzero
    exact hshort (hzero ▸ dvd_zero _)
  rw [← not_le, le_longest_iff hpos, List.take_length]
  constructor
  · intro h e he hcall
    refine h ⟨le_rfl, e, Finset.mem_inter.mpr ⟨mem_holders.mpr ⟨_, mem_hashed.mpr ⟨query, hcall, rfl⟩, ?_⟩, he⟩⟩
    exact List.prefix_rfl
  · rintro h ⟨-, e, he⟩
    obtain ⟨hholder, hA⟩ := Finset.mem_inter.mp he
    obtain ⟨key, hkey, hpre⟩ := mem_holders.mp hholder
    obtain ⟨prompt, hcall, rfl⟩ := mem_hashed.mp hkey
    obtain rfl := query_eq_of_chunks_isPrefix hinj hpre hshort
    exact h e hA hcall

theorem reported_le_length_iff (hinj : Function.Injective chunkHash) :
    chunkSize * longest (hashed chunkHash chunkSize calls) A (chunkAndHash chunkHash chunkSize query) ≤ query.length ↔
      (chunkSize : Nat) ∣ query.length ∨ ∀ e ∈ A, (query, e) ∉ calls := by
  have hle := longest_le_length (hashed chunkHash chunkSize calls) A (chunkAndHash chunkHash chunkSize query)
  rw [length_chunkAndHash] at hle
  by_cases hdvd : (chunkSize : Nat) ∣ query.length
  · have hall : chunkSize * (slices chunkSize query.toList).length ≤ query.length := by
      rw [← String.length_toList] at hdvd ⊢
      exact mul_length_slices_le.mpr hdvd
    exact iff_of_true ((Nat.mul_le_mul_left _ hle).trans hall) (.inl hdvd)
  · rw [or_iff_right hdvd, ← longest_lt_iff hinj hdvd, length_chunkAndHash]
    constructor
    · intro h
      refine lt_of_le_of_ne hle (fun heq => hdvd ?_)
      rw [heq, ← String.length_toList] at h
      rw [← String.length_toList]
      exact mul_length_slices_le.mp h
    · intro h
      rw [← String.length_toList]
      exact mul_le_length h

/-- What is reported is a real prefix length exactly if some prompt was inserted for an available endpoint, and the
query fills its last chunk or was not itself inserted for an available endpoint. -/
theorem longestPrefixMatch_real_iff (hinj : Function.Injective chunkHash) (chunkSize : ℕ+) (calls : List (String × String))
    (query : String) (A : Finset String) :
    RealPrefix calls query ((insertAll chunkHash { chunkSize } calls).longestPrefixMatch chunkHash query A) ↔
      (∃ prompt, ∃ e ∈ A, (prompt, e) ∈ calls) ∧ ((chunkSize : Nat) ∣ query.length ∨ ∀ e ∈ A, (query, e) ∉ calls) := by
  obtain ⟨L, S, hL, hresult, hzero, hpos⟩ := longestPrefixMatch_refines chunkHash chunkSize calls query A
  rw [hresult, RealPrefix, ← reported_le_length_iff hinj, ← hL, and_comm]
  refine and_congr_left (fun _ => ⟨?_, ?_⟩)
  · rintro ⟨prompt, e, hcall, he, -⟩
    by_cases hLzero : L = 0
    · exact ⟨prompt, e, hzero hLzero ▸ he, hcall⟩
    · exact ⟨prompt, e, ((hpos hLzero e).mp he).1, hcall⟩
  · rintro ⟨prompt, e, he, hcall⟩
    by_cases hLzero : L = 0
    · exact ⟨prompt, e, hcall, (hzero hLzero).symm ▸ he, by simp [hLzero]⟩
    · -- every endpoint that is returned has a prompt with the first L chunks of the query
      have hsome : ((insertAll chunkHash { chunkSize } calls).longestPrefixMatch chunkHash query A).2.Nonempty :=
        matchNode_nonempty _ _ _ _ ⟨e, he⟩
      rw [hresult] at hsome
      obtain ⟨e', he'⟩ := hsome
      obtain ⟨-, prompt', hcall', htake⟩ := (hpos hLzero e').mp he'
      exact ⟨prompt', e', hcall', he', take_eq_of_take_chunkAndHash hinj htake⟩

end Lengths

section Demonstration

theorem longestPrefixMatch_real_two_chunks :
    RealPrefix [("abcd", "http://a:8000"), ("abxy", "http://b:8000")] "abcdef"
      ((insertAll id { chunkSize := 2 } [("abcd", "http://a:8000"), ("abxy", "http://b:8000")]).longestPrefixMatch id
        "abcdef" {"http://a:8000", "http://b:8000"}) := by
  refine (longestPrefixMatch_real_iff Function.injective_id 2 _ _ _).mpr ⟨⟨"abcd", "http://a:8000", ?_, ?_⟩, .inl ?_⟩
  · decide
  · decide
  · decide

/-- A prompt of two characters that comes a second time is reported with the length of a chunk. -/
theorem longestPrefixMatch_beyond_query :
    (insertAll id {} [("hi", "http://a:8000")]).longestPrefixMatch id "hi" {"http://a:8000"} = (128, {"http://a:8000"}) ∧
      ¬RealPrefix [("hi", "http://a:8000")] "hi"
        ((insertAll id {} [("hi", "http://a:8000")]).longestPrefixMatch id "hi" {"http://a:8000"}) := by
  have hresult : (insertAll id {} [("hi", "http://a:8000")]).longestPrefixMatch id "hi" {"http://a:8000"} =
      (128, {"http://a:8000"}) := by decide
  refine ⟨hresult, ?_⟩
  rw [hresult]
  rintro ⟨hle, -⟩
  exact absurd hle (by decide)

end Demonstration

end ProductionStack.Hashtrie
