import Mathlib.Data.List.Induction
import Mathlib.Data.List.MinMax
import ProductionStack.FaissAdapter

namespace ProductionStack.FaissAdapter

open Runs

variable {V S : Type}

structure StoreCall (V : Type) where
  embedding : V
  metadata : Metadata
  save : Save

def StoreCall.event (call : StoreCall V) : Event V := .store call.embedding call.metadata call.save

def storeAll (calls : List (StoreCall V)) : Memory V := (final step fresh (calls.map StoreCall.event)).memory

theorem storeAll_eq (calls : List (StoreCall V)) :
    storeAll calls = ⟨calls.map StoreCall.embedding, calls.map StoreCall.metadata⟩ := by
  induction calls using List.reverseRecOn with
  | nil => rfl
  | append_singleton calls call ih =>
    have hlast : storeAll (calls ++ [call]) =
        ⟨(storeAll calls).index ++ [call.embedding], (storeAll calls).metadata ++ [call.metadata]⟩ := by
      rw [storeAll, List.map_append, final_append]
      rfl
    rw [hlast, ih, List.map_append, List.map_append]
    rfl

section Completeness

variable [LinearOrder S] {product : V → V → S} {topOne : TopOne V S} {calls : List (StoreCall V)} {query : V}
  {model : String} {threshold : S}

/-- The index returns some vector with the largest product; among several it may be any. -/
def Exact (topOne : TopOne V S) (product : V → V → S) : Prop :=
  ∀ vectors query, vectors ≠ [] → ∃ i v, topOne vectors query = some (i, product v query) ∧ vectors[i]? = some v ∧
    ∀ w ∈ vectors, product w query ≤ product v query

def flatTopOne (product : V → V → S) : TopOne V S := fun vectors query =>
  (vectors.zipIdx.argmax (fun e => product e.1 query)).map (fun e => (e.2, product e.1 query))

theorem flatTopOne_exact (product : V → V → S) : Exact (flatTopOne product) product := by
  intro vectors query hne
  cases hmax : vectors.zipIdx.argmax (fun e => product e.1 query) with
  | none => simp [List.argmax_eq_none, hne] at hmax
  | some e =>
    obtain ⟨v, i⟩ := e
    refine ⟨i, v, by simp [flatTopOne, hmax], List.mk_mem_zipIdx_iff_getElem?.mp (List.argmax_mem hmax), ?_⟩
    intro w hw
    obtain ⟨j, hj⟩ := List.mem_iff_getElem?.mp hw
    exact List.le_of_mem_argmax (List.mk_mem_zipIdx_iff_getElem?.mpr hj) hmax

structure FindsBest (topOne : TopOne V S) (product : V → V → S) (calls : List (StoreCall V)) (query : V) (model : String)
    (threshold : S) : Prop where
  complete : (∃ call ∈ calls, call.metadata.model = model ∧ threshold ≤ product call.embedding query) →
    ∃ hit, search topOne (storeAll calls) query model threshold = .ok (some hit)
  best : ∀ hit, search topOne (storeAll calls) query model threshold = .ok (some hit) →
    ∃ call ∈ calls, call.metadata.model = model ∧
      hit = ⟨call.metadata.responseMessages, product call.embedding query, call.metadata.usage⟩ ∧
      ∀ other ∈ calls, other.metadata.model = model → product other.embedding query ≤ product call.embedding query

def Best (product : V → V → S) (calls : List (StoreCall V)) (query : V) (call : StoreCall V) : Prop :=
  call ∈ calls ∧ ∀ other ∈ calls, product other.embedding query ≤ product call.embedding query

theorem search_storeAll_iff {hit : Hit S} :
    search topOne (storeAll calls) query model threshold = .ok (some hit) ↔
      calls ≠ [] ∧ ∃ (i : Nat) (distance : S) (call : StoreCall V),
        topOne (calls.map StoreCall.embedding) query = some (i, distance) ∧ threshold ≤ distance ∧
        calls[i]? = some call ∧ call.metadata.model = model ∧
        hit = ⟨call.metadata.responseMessages, distance, call.metadata.usage⟩ := by
  rw [search_eq_some_iff, storeAll_eq]
  simp only [ne_eq, List.map_eq_nil_iff, List.getElem?_map, Option.map_eq_some_iff]
  refine and_congr_right (fun _ => ⟨?_, ?_⟩)
  · rintro ⟨i, distance, _, htop, hle, ⟨call, hcall, rfl⟩, hmodel, hhit⟩
    exact ⟨i, distance, call, htop, hle, hcall, hmodel, hhit⟩
  · rintro ⟨i, distance, call, htop, hle, hcall, hmodel, hhit⟩
    exact ⟨i, distance, call.metadata, htop, hle, ⟨call, hcall, rfl⟩, hmodel, hhit⟩

theorem Exact.best (h : Exact topOne product) (hne : calls ≠ []) (query : V) :
    ∃ i call, topOne (calls.map StoreCall.embedding) query = some (i, product call.embedding query) ∧
      calls[i]? = some call ∧ Best product calls query call := by
  obtain ⟨i, v, htop, hi, hmax⟩ := h (calls.map StoreCall.embedding) query (by simpa using hne)
  rw [List.getElem?_map, Option.map_eq_some_iff] at hi
  obtain ⟨call, hcall, rfl⟩ := hi
  exact ⟨i, call, htop, hcall, List.mem_of_getElem? hcall, fun other hother => hmax _ (List.mem_map_of_mem hother)⟩

theorem hit_best (h : Exact topOne product) {hit : Hit S}
    (hsearch : search topOne (storeAll calls) query model threshold = .ok (some hit)) :
    ∃ call ∈ calls, call.metadata.model = model ∧
      hit = ⟨call.metadata.responseMessages, product call.embedding query, call.metadata.usage⟩ ∧
      ∀ other ∈ calls, other.metadata.model = model → product other.embedding query ≤ product call.embedding query := by
  obtain ⟨hne, i, distance, call, htop, -, hcall, hmodel, hhit⟩ := search_storeAll_iff.mp hsearch
  obtain ⟨j, best, htop', hbest, -, hmax⟩ := h.best hne query
  cases htop.symm.trans htop'
  cases hcall.symm.trans hbest
  exact ⟨call, List.mem_of_getElem? hcall, hmodel, hhit, fun other hother _ => hmax other hother⟩

open Classical in
noncomputable def favouring (product : V → V → S) (vectors : List V) (query : V) (i : Nat) (v : V) : TopOne V S :=
  fun vectors' query' =>
    if vectors' = vectors ∧ query' = query then some (i, product v query) else flatTopOne product vectors' query'

theorem favouring_exact {vectors : List V} {i : Nat} {v : V} (hi : vectors[i]? = some v)
    (hmax : ∀ w ∈ vectors, product w query ≤ product v query) : Exact (favouring product vectors query i v) product := by
  intro vectors' query' hne
  by_cases h : vectors' = vectors ∧ query' = query
  · obtain ⟨rfl, rfl⟩ := h
    exact ⟨i, v, if_pos ⟨rfl, rfl⟩, hi, hmax⟩
  · obtain ⟨j, w, htop, hj, hbest⟩ := flatTopOne_exact product vectors' query' hne
    exact ⟨j, w, (if_neg h).trans htop, hj, hbest⟩

/-- Only the best entry of all models is looked at: the search finds what is there, however the index
breaks ties, exactly when an entry of the model that reaches the threshold means that all best entries
are of the model. -/
theorem search_finds_best_iff (product : V → V → S) (calls : List (StoreCall V)) (query : V) (model : String) (threshold : S) :
    (∀ topOne, Exact topOne product → FindsBest topOne product calls query model threshold) ↔
      ((∃ call ∈ calls, call.metadata.model = model ∧ threshold ≤ product call.embedding query) →
        ∀ call, Best product calls query call → call.metadata.model = model) := by
  constructor
  · intro h hreached best hbest
    obtain ⟨i, hi⟩ := List.mem_iff_getElem?.mp hbest.1
    have hi' : (calls.map StoreCall.embedding)[i]? = some best.embedding := by rw [List.getElem?_map, hi]; rfl
    have hmax : ∀ w ∈ calls.map StoreCall.embedding, product w query ≤ product best.embedding query := by
      intro w hw
      obtain ⟨other, hother, rfl⟩ := List.mem_map.mp hw
      exact hbest.2 other hother
    obtain ⟨hit, hhit⟩ := (h _ (favouring_exact hi' hmax)).complete hreached
    obtain ⟨-, j, distance, call, htop, -, hcall, hmodel, -⟩ := search_storeAll_iff.mp hhit
    rw [favouring, if_pos ⟨rfl, rfl⟩] at htop
    cases htop
    cases hi.symm.trans hcall
    exact hmodel
  · intro h topOne hexact
    refine ⟨?_, fun hit hhit => hit_best hexact hhit⟩
    rintro ⟨call, hcall, hmodel, hle⟩
    obtain ⟨i, best, htop, hi, hbest⟩ := hexact.best (List.ne_nil_of_mem hcall) query
    have hmodel' := h ⟨call, hcall, hmodel, hle⟩ best hbest
    exact ⟨_, search_storeAll_iff.mpr ⟨List.ne_nil_of_mem hcall, i, _, best, htop,
      le_trans hle (hbest.2 call hcall), hi, hmodel', rfl⟩⟩

end Completeness

/-- The entry of another model is nearer to the query, and the one that would do is not found. -/
theorem other_model_hides_entry :
    ¬ ∀ (topOne : TopOne Int Int), Exact topOne (fun v query => v * query) →
      ∀ (calls : List (StoreCall Int)) (query : Int) (model : String) (threshold : Int),
        FindsBest topOne (fun v query => v * query) calls query model threshold := by
  intro h
  obtain ⟨hit, hhit⟩ := (h (flatTopOne (fun v query => v * query)) (flatTopOne_exact _)
    [⟨2, answered "a", wholeSave⟩, ⟨3, answered "b", wholeSave⟩] 1 "a" 1).complete
    ⟨⟨2, answered "a", wholeSave⟩, by simp, rfl, by decide⟩
  cases hhit

end ProductionStack.FaissAdapter
