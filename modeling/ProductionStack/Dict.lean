import Mathlib.Data.List.Induction
import Mathlib.Data.List.Nodup

namespace ProductionStack

/-- An insertion-ordered dictionary: a second assignment to a key keeps the
position of the first one. -/
structure Dict (K V : Type) where
  entries : List (K × V)
  nodup : (entries.map Prod.fst).Nodup

namespace Dict

variable {K V : Type} [DecidableEq K]

def empty : Dict K V := ⟨[], List.nodup_nil⟩

def keys (d : Dict K V) : List K := d.entries.map Prod.fst

def values (d : Dict K V) : List V := d.entries.map Prod.snd

def get? (d : Dict K V) (k : K) : Option V := d.entries.lookup k

def getD (d : Dict K V) (k : K) (v : V) : V := (d.get? k).getD v

def contains (d : Dict K V) (k : K) : Bool := (d.get? k).isSome

def assign (k : K) (v : V) : List (K × V) → List (K × V)
  | [] => [(k, v)]
  | (j, w) :: es => if j = k then (k, v) :: es else (j, w) :: assign k v es

theorem assign_keys (k : K) (v : V) (es : List (K × V)) :
    (assign k v es).map Prod.fst =
      if k ∈ es.map Prod.fst then es.map Prod.fst else es.map Prod.fst ++ [k] := by
  induction es with
  | nil => simp [assign]
  | cons e es ih =>
    obtain ⟨j, w⟩ := e
    by_cases hj : j = k
    · simp [assign, hj]
    · have hk : k ≠ j := fun h => hj h.symm
      by_cases hm : k ∈ es.map Prod.fst
      · rw [if_pos hm] at ih
        simp only [assign, if_neg hj, List.map_cons, ih, List.mem_cons, hm, or_true, if_true]
      · rw [if_neg hm] at ih
        simp only [assign, if_neg hj, List.map_cons, ih, List.mem_cons, hm, hk, or_self, if_false,
          List.cons_append]

theorem assign_nodup (k : K) (v : V) (es : List (K × V)) (h : (es.map Prod.fst).Nodup) :
    ((assign k v es).map Prod.fst).Nodup := by
  rw [assign_keys]
  split
  · exact h
  next hk => exact List.nodup_append.mpr ⟨h, by simp, by rintro a ha b hb rfl; simp_all⟩

theorem lookup_cons_ite (i j : K) (w : V) (es : List (K × V)) :
    ((i, w) :: es).lookup j = if j = i then some w else es.lookup j := by
  by_cases hj : j = i
  · simp [hj]
  · have hb : (j == i) = false := by simpa using hj
    simp [List.lookup_cons, hb, hj]

theorem assign_lookup (k : K) (v : V) (es : List (K × V)) (j : K) :
    (assign k v es).lookup j = if j = k then some v else es.lookup j := by
  induction es with
  | nil => simp [assign, lookup_cons_ite]
  | cons e es ih =>
    obtain ⟨i, w⟩ := e
    by_cases hi : i = k
    · subst hi
      by_cases hj : j = i <;> simp [assign, lookup_cons_ite, hj]
    · by_cases hj : j = i
      · subst hj
        simp [assign, hi]
      · simp [assign, hi, lookup_cons_ite, hj, ih]

theorem get?_eq_lookup [BEq K] [LawfulBEq K] (d : Dict K V) (k : K) : d.get? k = d.entries.lookup k := by
  rw [get?]
  induction d.entries with
  | nil => rfl
  | cons e es ih =>
    obtain ⟨j, w⟩ := e
    rw [lookup_cons_ite, ih]
    by_cases hj : k = j
    · simp [hj]
    · have hb : (k == j) = false := by simpa using hj
      simp [List.lookup_cons, hb, hj]

def set (d : Dict K V) (k : K) (v : V) : Dict K V := ⟨assign k v d.entries, assign_nodup k v _ d.nodup⟩

def erase (d : Dict K V) (k : K) : Dict K V :=
  ⟨d.entries.filter (fun e => e.1 ≠ k),
    d.nodup.sublist (List.Sublist.map Prod.fst List.filter_sublist)⟩

def modify (d : Dict K V) (k : K) (f : V → V) : Dict K V :=
  match d.get? k with
  | some v => d.set k (f v)
  | none => d

/-- The dictionary a comprehension over the pairs builds: a later pair wins. -/
def ofList (es : List (K × V)) : Dict K V := es.foldl (fun d e => d.set e.1 e.2) empty

omit [DecidableEq K] in
theorem ext_entries {d d' : Dict K V} (h : d.entries = d'.entries) : d = d' := by
  cases d
  cases h
  rfl

@[simp] theorem get?_empty (k : K) : (empty : Dict K V).get? k = none := rfl

@[simp] theorem get?_set_self (d : Dict K V) (k : K) (v : V) : (d.set k v).get? k = some v := by
  simp [get?, set, assign_lookup]

theorem get?_set_of_ne (d : Dict K V) {j k : K} (v : V) (h : j ≠ k) : (d.set k v).get? j = d.get? j := by
  simp [get?, set, assign_lookup, h]

theorem get?_set (d : Dict K V) (j k : K) (v : V) : (d.set k v).get? j = if j = k then some v else d.get? j := by
  simp [get?, set, assign_lookup]

theorem assign_assign (k : K) (v w : V) (es : List (K × V)) : assign k w (assign k v es) = assign k w es := by
  induction es with
  | nil => simp [assign]
  | cons e es ih =>
    obtain ⟨j, u⟩ := e
    by_cases hj : j = k <;> simp [assign, hj, ih]

variable {k : K} {es : List (K × V)} {d : Dict K V}

theorem assign_of_lookup {v : V} (h : es.lookup k = some v) : assign k v es = es := by
  induction es with
  | nil => cases h
  | cons e es ih =>
    obtain ⟨j, u⟩ := e
    rw [lookup_cons_ite] at h
    by_cases hj : j = k
    · subst hj
      rw [if_pos rfl] at h
      cases h
      simp [assign]
    · rw [if_neg (Ne.symm hj)] at h
      rw [assign, if_neg hj, ih h]

theorem set_set (d : Dict K V) (k : K) (v w : V) : (d.set k v).set k w = d.set k w :=
  ext_entries (assign_assign k v w d.entries)

theorem set_of_get? {v : V} (h : d.get? k = some v) : d.set k v = d :=
  ext_entries (assign_of_lookup h)

theorem keys_set (d : Dict K V) (k : K) (v : V) : (d.set k v).keys = if k ∈ d.keys then d.keys else d.keys ++ [k] :=
  assign_keys k v d.entries

theorem mem_keys_set {j k : K} {v : V} : j ∈ (d.set k v).keys ↔ j ∈ d.keys ∨ j = k := by
  rw [keys_set]
  split
  next hk =>
    constructor
    · exact .inl
    · rintro (hj | rfl)
      · exact hj
      · exact hk
  next => rw [List.mem_append, List.mem_singleton]

theorem get?_modify (d : Dict K V) (j k : K) (f : V → V) :
    (d.modify k f).get? j = if j = k then (d.get? k).map f else d.get? j := by
  rw [modify]
  cases hk : d.get? k with
  | none =>
    by_cases hj : j = k
    · simp [hj, hk]
    · simp [hj]
  | some v => simp [get?_set]

theorem filter_ne_lookup (es : List (K × V)) (j k : K) :
    (es.filter (fun e => e.1 ≠ k)).lookup j = if j = k then none else es.lookup j := by
  induction es with
  | nil => simp
  | cons e es ih =>
    obtain ⟨i, w⟩ := e
    by_cases hi : i = k
    · subst hi
      by_cases hj : j = i <;> simp [lookup_cons_ite, hj] at ih ⊢ <;> exact ih
    · by_cases hj : j = i
      · subst hj
        simp [hi]
      · simpa [hi, lookup_cons_ite, hj] using ih

theorem get?_erase (d : Dict K V) (j k : K) : (d.erase k).get? j = if j = k then none else d.get? j :=
  filter_ne_lookup d.entries j k

theorem erase_of_contains_eq_false (h : d.contains k = false) : d.erase k = d := by
  apply ext_entries
  apply List.filter_eq_self.mpr
  intro e he
  have hne : e.1 ≠ k := by
    rintro rfl
    have hnone : d.entries.lookup e.1 = none := by simpa [contains, get?] using h
    simpa using List.lookup_eq_none_iff.mp hnone e he
  simpa using hne

theorem get?_foldl_set_map (f : K → V) (ks : List K) (d : Dict K V) (k : K) :
    ((ks.map (fun j => (j, f j))).foldl (fun d e => d.set e.1 e.2) d).get? k =
      if k ∈ ks then some (f k) else d.get? k := by
  induction ks generalizing d with
  | nil => simp
  | cons j ks ih =>
    rw [List.map_cons, List.foldl_cons, ih]
    by_cases hm : k ∈ ks
    · simp [hm]
    · by_cases hj : k = j
      · simp [hj]
      · simp [hm, hj, get?_set_of_ne _ _ hj]

theorem get?_ofList_map (f : K → V) (ks : List K) (k : K) :
    (ofList (ks.map (fun j => (j, f j)))).get? k = if k ∈ ks then some (f k) else none :=
  get?_foldl_set_map f ks empty k

theorem get?_of_mem (d : Dict K V) {v : V} (h : (k, v) ∈ d.entries) : d.get? k = some v := by
  obtain ⟨pre, post, hsplit⟩ := List.append_of_mem h
  refine List.lookup_eq_some_iff.mpr ⟨pre, post, hsplit, ?_⟩
  intro e he
  have hnodup := d.nodup
  rw [hsplit, List.map_append, List.nodup_append] at hnodup
  have hne := hnodup.2.2 e.1 (List.mem_map_of_mem he) k (by simp)
  simpa using hne.symm

theorem lookup_eq_none : es.lookup k = none ↔ k ∉ es.map Prod.fst := by
  rw [List.lookup_eq_none_iff, List.mem_map]
  constructor
  · rintro h ⟨e, he, rfl⟩
    simpa using h e he
  · intro h e he
    have hne : k ≠ e.1 := fun heq => h ⟨e, he, heq.symm⟩
    simpa using hne

theorem filter_eq_lookup (es : List (K × V)) (h : (es.map Prod.fst).Nodup) (k : K) :
    es.filter (fun e => e.1 = k) = ((es.lookup k).map (fun v => (k, v))).toList := by
  induction es with
  | nil => rfl
  | cons e es ih =>
    obtain ⟨i, w⟩ := e
    rw [List.map_cons, List.nodup_cons] at h
    rw [List.filter_cons, lookup_cons_ite, ih h.2]
    by_cases hi : i = k
    · subst hi
      simp [lookup_eq_none.mpr h.1]
    · have hk : k ≠ i := fun heq => hi heq.symm
      simp [hi, hk]

theorem entries_filter_key (d : Dict K V) (k : K) :
    d.entries.filter (fun e => e.1 = k) = ((d.get? k).map (fun v => (k, v))).toList :=
  filter_eq_lookup d.entries d.nodup k

theorem assign_of_notMem (k : K) (v : V) (es : List (K × V)) (h : k ∉ es.map Prod.fst) : assign k v es = es ++ [(k, v)] := by
  induction es with
  | nil => rfl
  | cons e es ih =>
    obtain ⟨j, w⟩ := e
    rw [List.map_cons, List.mem_cons, not_or] at h
    rw [assign, if_neg (Ne.symm h.1), ih h.2, List.cons_append]

theorem entries_foldl_set (es : List (K × V)) (d : Dict K V) (h : ((d.entries ++ es).map Prod.fst).Nodup) :
    (es.foldl (fun d e => d.set e.1 e.2) d).entries = d.entries ++ es := by
  induction es generalizing d with
  | nil => simp
  | cons e es ih =>
    have hfresh : e.1 ∉ d.entries.map Prod.fst := by
      rw [List.map_append, List.nodup_append] at h
      intro hmem
      exact h.2.2 e.1 hmem e.1 (by simp) rfl
    have hset : (d.set e.1 e.2).entries = d.entries ++ [e] := assign_of_notMem e.1 e.2 d.entries hfresh
    rw [List.foldl_cons, ih, hset, List.append_assoc, List.singleton_append]
    rwa [hset, List.append_assoc, List.singleton_append]

theorem entries_ofList (es : List (K × V)) (h : (es.map Prod.fst).Nodup) : (ofList es).entries = es :=
  entries_foldl_set es empty h

theorem get?_foldl_set_of_notMem (es : List (K × V)) (d : Dict K V) (h : k ∉ es.map Prod.fst) :
    (es.foldl (fun d e => d.set e.1 e.2) d).get? k = d.get? k := by
  induction es generalizing d with
  | nil => rfl
  | cons e es ih =>
    rw [List.map_cons, List.mem_cons, not_or] at h
    rw [List.foldl_cons, ih _ h.2, get?_set_of_ne _ _ h.1]

theorem get?_foldl_set_of_mem (es : List (K × V)) (d : Dict K V) (h : k ∈ es.map Prod.fst) :
    ∃ v, (k, v) ∈ es ∧ (es.foldl (fun d e => d.set e.1 e.2) d).get? k = some v := by
  induction es generalizing d with
  | nil => cases h
  | cons e es ih =>
    by_cases hmem : k ∈ es.map Prod.fst
    · obtain ⟨v, hv, hget⟩ := ih (d.set e.1 e.2) hmem
      exact ⟨v, List.mem_cons_of_mem _ hv, hget⟩
    · obtain rfl : k = e.1 := (List.mem_cons.mp h).resolve_right hmem
      refine ⟨e.2, List.mem_cons_self, ?_⟩
      rw [List.foldl_cons, get?_foldl_set_of_notMem es _ hmem, get?_set_self]

theorem get?_foldl_set_entries (es : List (K × V)) (h : (es.map Prod.fst).Nodup) (d : Dict K V) (k : K) :
    (es.foldl (fun d e => d.set e.1 e.2) d).get? k = (es.lookup k).or (d.get? k) := by
  induction es generalizing d with
  | nil => rfl
  | cons e es ih =>
    obtain ⟨j, v⟩ := e
    rw [List.map_cons, List.nodup_cons] at h
    rw [List.foldl_cons, lookup_cons_ite]
    by_cases hj : k = j
    · subst hj
      rw [get?_foldl_set_of_notMem es _ h.1, get?_set_self, if_pos rfl]
      rfl
    · rw [ih h.2, get?_set_of_ne _ _ hj, if_neg hj]

theorem get?_ofList (es : List (K × V)) (k : K) : (ofList es).get? k = (es.filter (·.1 = k)).getLast?.map Prod.snd := by
  induction es using List.reverseRecOn with
  | nil => rfl
  | append_singleton es e ih =>
    rw [ofList, List.foldl_append, ← ofList, List.foldl_cons, List.foldl_nil, get?_set, ih, List.filter_append]
    by_cases hk : k = e.1
    · simp [hk]
    · simp [hk, Ne.symm hk]

theorem mem_of_lookup {v : V} (h : es.lookup k = some v) : (k, v) ∈ es := by
  obtain ⟨pre, post, hsplit, -⟩ := List.lookup_eq_some_iff.mp h
  rw [hsplit]
  simp

theorem mem_of_get? {v : V} (h : d.get? k = some v) : (k, v) ∈ d.entries := mem_of_lookup h

theorem mem_of_mem_ofList {v : V} (h : (k, v) ∈ (ofList es).entries) : (k, v) ∈ es := by
  have hget := get?_of_mem _ h
  by_cases hmem : k ∈ es.map Prod.fst
  · obtain ⟨w, hw, hlast⟩ := get?_foldl_set_of_mem es empty hmem
    cases hlast.symm.trans hget
    exact hw
  · cases (get?_foldl_set_of_notMem es empty hmem).symm.trans hget

theorem lookup_perm {es es' : List (K × V)} (hperm : es.Perm es') (h : (es.map Prod.fst).Nodup) (k : K) :
    es.lookup k = es'.lookup k := by
  have h' : (es'.map Prod.fst).Nodup := (hperm.map Prod.fst).nodup_iff.mp h
  refine Option.ext (fun v => ⟨?_, ?_⟩)
  · intro hv
    exact get?_of_mem ⟨es', h'⟩ (hperm.mem_iff.mp (mem_of_lookup hv))
  · intro hv
    exact get?_of_mem ⟨es, h⟩ (hperm.mem_iff.mpr (mem_of_lookup hv))

theorem contains_iff : d.contains k = true ↔ k ∈ d.entries.map Prod.fst := by
  rw [contains, Option.isSome_iff_exists]
  constructor
  · rintro ⟨v, hv⟩
    exact List.mem_map.mpr ⟨(k, v), mem_of_get? hv, rfl⟩
  · intro hmem
    obtain ⟨⟨j, v⟩, hentry, rfl⟩ := List.mem_map.mp hmem
    exact ⟨v, d.get?_of_mem hentry⟩

end Dict

end ProductionStack
