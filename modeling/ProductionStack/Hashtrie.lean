import Mathlib.Data.Finset.Basic
import Mathlib.Data.PNat.Basic
import Mathlib.Data.String.Basic
import ProductionStack.PrefixIndex

namespace ProductionStack.Hashtrie

open PrefixIndex

variable {H : Type} [DecidableEq H]

inductive TrieNode (H : Type)
  | mk (children : H → Option (TrieNode H)) (endpoints : Finset String)

namespace TrieNode

def children : TrieNode H → H → Option (TrieNode H)
  | .mk children _ => children

def endpoints : TrieNode H → Finset String
  | .mk _ endpoints => endpoints

def empty : TrieNode H := .mk (fun _ => none) ∅

end TrieNode

/-- The chunk size is positive: a range with step zero raises. -/
structure HashTrie (H : Type) where
  chunkSize : ℕ+ := 128
  root : TrieNode H := .empty

/-- The hashes of the successive slices of chunkSize characters, the last one possibly shorter. -/
def chunkAndHash (chunkHash : String → H) (chunkSize : ℕ+) (request : String) : List H :=
  (List.range' 0 ((request.toList.length + chunkSize - 1) / chunkSize) chunkSize).map
    (fun i => chunkHash (String.ofList ((request.toList.drop i).take chunkSize)))

def insertNode (endpoint : String) : TrieNode H → List H → TrieNode H
  | .mk children endpoints, [] => .mk children (insert endpoint endpoints)
  | .mk children endpoints, chunk :: chunks =>
    .mk (Function.update children chunk
        (some (insertNode endpoint ((children chunk).getD .empty) chunks)))
      (insert endpoint endpoints)

def HashTrie.insert (t : HashTrie H) (chunkHash : String → H) (request endpoint : String) : HashTrie H :=
  { t with root := insertNode endpoint t.root (chunkAndHash chunkHash t.chunkSize request) }

def matchNode (chunkSize : Nat) : TrieNode H → List H → Nat → Finset String → Nat × Finset String
  | _, [], matchLength, selectedEndpoints => (matchLength, selectedEndpoints)
  | node, chunk :: chunks, matchLength, selectedEndpoints =>
    match node.children chunk with
    | none => (matchLength, selectedEndpoints)
    | some child =>
      let intersection := child.endpoints ∩ selectedEndpoints
      if intersection = ∅ then (matchLength, selectedEndpoints)
      else matchNode chunkSize child chunks (matchLength + chunkSize) intersection

def HashTrie.longestPrefixMatch (t : HashTrie H) (chunkHash : String → H) (request : String)
    (availableEndpoints : Finset String) : Nat × Finset String :=
  matchNode t.chunkSize t.root (chunkAndHash chunkHash t.chunkSize request) 0 availableEndpoints

def insertAll (chunkHash : String → H) (t : HashTrie H) (calls : List (String × String)) : HashTrie H :=
  calls.foldl (fun t call => t.insert chunkHash call.1 call.2) t

def endpointsAt : TrieNode H → List H → Finset String
  | node, [] => node.endpoints
  | node, chunk :: path =>
    match node.children chunk with
    | none => ∅
    | some child => endpointsAt child path

omit [DecidableEq H] in
theorem endpointsAt_empty (path : List H) : endpointsAt .empty path = ∅ := by
  cases path <;> rfl

theorem endpointsAt_insertNode (endpoint : String) (node : TrieNode H) (chunks path : List H) :
    endpointsAt (insertNode endpoint node chunks) path =
      if path <+: chunks then insert endpoint (endpointsAt node path) else endpointsAt node path := by
  induction path generalizing node chunks with
  | nil =>
    cases node with
    | mk children endpoints => cases chunks <;> simp [insertNode, endpointsAt, TrieNode.endpoints]
  | cons chunk path ih =>
    cases node with
    | mk children endpoints =>
      cases chunks with
      | nil => simp [insertNode, endpointsAt, TrieNode.children]
      | cons first chunks =>
        by_cases hc : chunk = first
        · subst hc
          have hold : endpointsAt ((children chunk).getD .empty) path =
              endpointsAt (.mk children endpoints) (chunk :: path) := by
            cases hch : children chunk <;> simp [endpointsAt, TrieNode.children, hch, endpointsAt_empty]
          simp only [insertNode, endpointsAt, TrieNode.children, Function.update_self, ih,
            List.cons_prefix_cons, true_and]
          rw [hold]
          rfl
        · simp [insertNode, endpointsAt, TrieNode.children, hc]

omit [DecidableEq H] in
theorem matchNode_eq_descend (chunkSize : Nat) (root node : TrieNode H) (path chunks : List H)
    (hnode : ∀ more, endpointsAt node more = endpointsAt root (path ++ more)) (matchLength : Nat) (s : Finset String) :
    matchNode chunkSize node chunks matchLength s =
      descend chunkSize (endpointsAt root) path chunks matchLength s := by
  induction chunks generalizing node path matchLength s with
  | nil => rfl
  | cons chunk chunks ih =>
    have hat := hnode [chunk]
    rw [descend, matchNode, ← hat]
    cases hch : node.children chunk with
    | none => simp [endpointsAt, hch]
    | some child =>
      have hchild : endpointsAt node [chunk] = child.endpoints := by simp [endpointsAt, hch]
      simp only [hchild]
      split
      · rfl
      · apply ih child (path ++ [chunk])
        intro more
        rw [List.append_assoc, List.singleton_append, ← hnode (chunk :: more)]
        simp [endpointsAt, hch]

omit [DecidableEq H] in
theorem matchNode_subset (chunkSize : Nat) (node : TrieNode H) (chunks : List H) (matchLength : Nat)
    (s : Finset String) : (matchNode chunkSize node chunks matchLength s).2 ⊆ s := by
  induction chunks generalizing node matchLength s with
  | nil => exact Finset.Subset.refl s
  | cons chunk chunks ih =>
    rw [matchNode]
    cases node.children chunk with
    | none => exact Finset.Subset.refl s
    | some child =>
      dsimp only
      split
      · exact Finset.Subset.refl s
      · exact (ih _ _ _).trans Finset.inter_subset_right

omit [DecidableEq H] in
theorem matchNode_nonempty (chunkSize : Nat) (node : TrieNode H) (chunks : List H) (matchLength : Nat)
    {s : Finset String} (hs : s.Nonempty) : (matchNode chunkSize node chunks matchLength s).2.Nonempty := by
  induction chunks generalizing node matchLength s with
  | nil => exact hs
  | cons chunk chunks ih =>
    rw [matchNode]
    cases node.children chunk with
    | none => exact hs
    | some child =>
      dsimp only
      split
      · exact hs
      next hne => exact ih _ _ (Finset.nonempty_iff_ne_empty.mpr hne)

omit [DecidableEq H] in
theorem matchNode_sole_owner (chunkSize : Nat) (node : TrieNode H) {chunk : H} (chunks : List H)
    (matchLength : Nat) {s : Finset String} {e : String} (howner : endpointsAt node [chunk] = {e})
    (he : e ∈ s) : (matchNode chunkSize node (chunk :: chunks) matchLength s).2 = {e} := by
  rw [matchNode]
  cases hch : node.children chunk with
  | none => simp [endpointsAt, hch] at howner
  | some child =>
    have hinter : child.endpoints ∩ s = {e} := by
      have hends : child.endpoints = {e} := by simpa [endpointsAt, hch] using howner
      rw [hends, Finset.singleton_inter_of_mem he]
    have hsub := matchNode_subset chunkSize child chunks (matchLength + chunkSize) {e}
    have hne := matchNode_nonempty chunkSize child chunks (matchLength + chunkSize)
      (Finset.singleton_nonempty e)
    simp only [hinter, Finset.singleton_ne_empty, if_false]
    exact hne.subset_singleton_iff.mp hsub

def hashed (chunkHash : String → H) (chunkSize : ℕ+) (calls : List (String × String)) : History H String :=
  calls.map (fun call => (chunkAndHash chunkHash chunkSize call.1, call.2))

omit [DecidableEq H] in
theorem mem_hashed {chunkHash : String → H} {chunkSize : ℕ+} {calls : List (String × String)} {key : List H} {e : String} :
    (key, e) ∈ hashed chunkHash chunkSize calls ↔
      ∃ p, (p, e) ∈ calls ∧ chunkAndHash chunkHash chunkSize p = key := by
  simp [hashed]

theorem insertAll_chunkSize (chunkHash : String → H) (t : HashTrie H) (calls : List (String × String)) :
    (insertAll chunkHash t calls).chunkSize = t.chunkSize := by
  induction calls generalizing t with
  | nil => rfl
  | cons call calls ih => exact ih _

theorem endpointsAt_insertAll (chunkHash : String → H) (chunkSize : ℕ+) (calls : List (String × String)) (path : List H) :
    endpointsAt (insertAll chunkHash { chunkSize } calls).root path =
      holders (hashed chunkHash chunkSize calls) path := by
  induction calls using List.reverseRecOn with
  | nil => exact endpointsAt_empty path
  | append_singleton calls call ih =>
    simp only [insertAll, List.foldl_append, List.foldl_cons, List.foldl_nil]
    change endpointsAt ((insertAll chunkHash _ calls).insert chunkHash call.1 call.2).root path = _
    have hsnoc : hashed chunkHash chunkSize (calls ++ [call]) =
        hashed chunkHash chunkSize calls ++ [(chunkAndHash chunkHash chunkSize call.1, call.2)] := by
      simp [hashed]
    rw [HashTrie.insert, insertAll_chunkSize, endpointsAt_insertNode, ih, hsnoc, holders_snoc]

theorem longestPrefixMatch_eq (chunkHash : String → H) (chunkSize : ℕ+)
    (calls : List (String × String)) (query : String) (A : Finset String) :
    (insertAll chunkHash { chunkSize } calls).longestPrefixMatch chunkHash query A =
      (chunkSize * longest (hashed chunkHash chunkSize calls) A (chunkAndHash chunkHash chunkSize query),
        selected (hashed chunkHash chunkSize calls) A ((chunkAndHash chunkHash chunkSize query).take
          (longest (hashed chunkHash chunkSize calls) A (chunkAndHash chunkHash chunkSize query)))) := by
  have howners : endpointsAt (insertAll chunkHash { chunkSize } calls).root =
      holders (hashed chunkHash chunkSize calls) := by
    funext path
    exact endpointsAt_insertAll chunkHash chunkSize calls path
  rw [HashTrie.longestPrefixMatch, insertAll_chunkSize,
    matchNode_eq_descend _ _ _ [] _ (fun more => by rw [List.nil_append]), howners]
  exact descend_eq chunkSize (hashed chunkHash chunkSize calls) A []
    (chunkAndHash chunkHash chunkSize query) (Nat.zero_le _)

/-- Matching reports the longest chunk prefix the query shares with a request
inserted for an available endpoint, and the available endpoints that have it. -/
theorem longestPrefixMatch_refines (chunkHash : String → H) (chunkSize : ℕ+)
    (calls : List (String × String)) (query : String) (A : Finset String) :
    ∃ L S, L = longest (hashed chunkHash chunkSize calls) A (chunkAndHash chunkHash chunkSize query) ∧
      (insertAll chunkHash { chunkSize } calls).longestPrefixMatch chunkHash query A = (chunkSize * L, S) ∧
      (L = 0 → S = A) ∧
      (L ≠ 0 → ∀ e, e ∈ S ↔ e ∈ A ∧ ∃ p, (p, e) ∈ calls ∧
        (chunkAndHash chunkHash chunkSize p).take L = (chunkAndHash chunkHash chunkSize query).take L) := by
  refine ⟨_, _, rfl, longestPrefixMatch_eq chunkHash chunkSize calls query A, ?_, ?_⟩
  · intro hL
    simp [selected, hL]
  · intro hL e
    rw [mem_selected_take hL (longest_le_length _ _ _)]
    simp only [mem_hashed]
    constructor
    · rintro ⟨he, key, ⟨p, hcall, rfl⟩, htake⟩
      exact ⟨he, p, hcall, htake⟩
    · rintro ⟨he, p, hcall, htake⟩
      exact ⟨he, _, ⟨p, hcall, rfl⟩, htake⟩

end ProductionStack.Hashtrie
