import ProductionStack.PrefixAware

namespace ProductionStack.PrefixMatchPicker

open PrefixIndex Hashtrie PrefixAware

def textOf : Json → Option String
  | .obj fields =>
    if Json.isText (fields.lookup "type") then (fields.lookup "text").bind Json.asStr else none
  | _ => none

/-- The texts of one message: what is neither a text nor a list of parts is passed over. -/
def messageTexts : Json → List String
  | .obj fields =>
    match fields.lookup "content" with
    | some (.str text) => [text]
    | some (.arr parts) => parts.filterMap textOf
    | _ => []
  | _ => []

def messagesPrompt (requestBody : List (String × Json)) : String :=
  match requestBody.lookup "messages" with
  | some (.arr messages) => "\n".intercalate (messages.flatMap messageTexts)
  | _ => ""

def promptOf (requestBody : List (String × Json)) : String :=
  if messagesPrompt requestBody = "" then ((requestBody.lookup "prompt").bind Json.asStr).getD ""
  else messagesPrompt requestBody

section Trie

variable {H : Type} [DecidableEq H]

def chunkAndHashBytes (sum64 : List UInt8 → H) (s : String) : List H :=
  let bytes := s.toUTF8.toList
  (List.range ((bytes.length + 127) / 128)).map (fun i => sum64 ((bytes.drop (128 * i)).take 128))

/-- Inserting adds the endpoint to the root and to every node on the way, as in the Python trie. -/
def insertKey (t : TrieNode H) (hashes : List H) (endpoint : String) : TrieNode H := insertNode endpoint t hashes

/-- Below a node the candidates are intersected with all that is available. -/
def walk (available : Finset String) : TrieNode H → List H → Finset String → Finset String
  | _, [], matched => matched
  | node, h :: hashes, matched =>
    match node.children h with
    | none => matched
    | some child =>
      let cand := child.endpoints ∩ available
      if cand = ∅ then matched else walk available child hashes cand

def longestPrefixMatch (t : TrieNode H) (hashes : List H) (available : Finset String) : Finset String :=
  walk available t hashes (t.endpoints ∩ available)

def candidates (t : TrieNode H) (hashes : List H) (available : Finset String) : Finset String :=
  let matched := longestPrefixMatch t hashes available
  if matched = ∅ then available else matched

def pick (sum64 : List UInt8 → H) (t : TrieNode H) (requestBody : List (String × Json)) (scoredPods : List String)
    (random : RandomChoice) : Option String × TrieNode H :=
  if scoredPods = [] then (none, t)
  else
    let hashes := chunkAndHashBytes sum64 (promptOf requestBody)
    let selected := random.pick (candidates t hashes scoredPods.toFinset)
    (some ((scoredPods.find? (· = selected)).getD (scoredPods.headD "")), insertKey t hashes selected)

omit [DecidableEq H] in
theorem walk_subset (available : Finset String) (node : TrieNode H) (hashes : List H) {matched : Finset String}
    (h : matched ⊆ available) : walk available node hashes matched ⊆ available := by
  induction hashes generalizing node matched with
  | nil => exact h
  | cons chunk hashes ih =>
    rw [walk]
    cases node.children chunk with
    | none => exact h
    | some child =>
      dsimp only
      split_ifs
      · exact h
      · exact ih child Finset.inter_subset_right

omit [DecidableEq H] in
theorem candidates_subset (t : TrieNode H) (hashes : List H) (available : Finset String) :
    candidates t hashes available ⊆ available := by
  rw [candidates]
  split_ifs
  · exact Finset.Subset.refl available
  · exact walk_subset available t hashes Finset.inter_subset_right

omit [DecidableEq H] in
theorem candidates_nonempty (t : TrieNode H) (hashes : List H) {available : Finset String}
    (h : available.Nonempty) : (candidates t hashes available).Nonempty := by
  rw [candidates]
  split_ifs with hempty
  · exact h
  · exact Finset.nonempty_iff_ne_empty.mpr hempty

theorem pick_eq (sum64 : List UInt8 → H) (t : TrieNode H) (requestBody : List (String × Json))
    {scoredPods : List String} (random : RandomChoice) (h : scoredPods ≠ []) :
    ∃ selected ∈ candidates t (chunkAndHashBytes sum64 (promptOf requestBody)) scoredPods.toFinset,
      pick sum64 t requestBody scoredPods random =
        (some selected, insertKey t (chunkAndHashBytes sum64 (promptOf requestBody)) selected) := by
  have havailable : scoredPods.toFinset.Nonempty := by simpa [List.toFinset_nonempty_iff] using h
  have hmem := random.pick_mem _ (candidates_nonempty t (chunkAndHashBytes sum64 (promptOf requestBody)) havailable)
  refine ⟨_, hmem, ?_⟩
  have hpod := List.mem_toFinset.mp (candidates_subset _ _ _ hmem)
  rw [pick, if_neg h]
  dsimp only
  cases hfind : scoredPods.find? (· = random.pick (candidates t (chunkAndHashBytes sum64 (promptOf requestBody))
      scoredPods.toFinset)) with
  | none => exact absurd (List.find?_eq_none.mp hfind _ hpod) (by simp)
  | some pod =>
    have hpodeq := List.find?_some hfind
    rw [Option.getD_some, of_decide_eq_true hpodeq]

/-- Every node holds what the nodes below it hold. -/
def Nested (t : TrieNode H) : Prop := ∀ path more, endpointsAt t (path ++ more) ⊆ endpointsAt t path

omit [DecidableEq H] in
theorem Nested.child {t child : TrieNode H} (h : Nested t) {chunk : H} (hchild : t.children chunk = some child) :
    Nested child ∧ child.endpoints ⊆ t.endpoints := by
  have hat (path : List H) : endpointsAt t (chunk :: path) = endpointsAt child path := by
    simp [endpointsAt, hchild]
  constructor
  · intro path more
    rw [← hat, ← hat]
    exact h (chunk :: path) more
  · have hroot := h [] [chunk]
    rw [List.nil_append, hat] at hroot
    exact hroot

omit [DecidableEq H] in
theorem walk_eq_matchNode (chunkSize matchLength : Nat) {node : TrieNode H} (hnested : Nested node)
    (hashes : List H) (available : Finset String) :
    walk available node hashes (node.endpoints ∩ available) =
      (matchNode chunkSize node hashes matchLength (node.endpoints ∩ available)).2 := by
  induction hashes generalizing node matchLength with
  | nil => rfl
  | cons chunk hashes ih =>
    rw [walk, matchNode]
    cases hchild : node.children chunk with
    | none => rfl
    | some child =>
      obtain ⟨hbelow, hsub⟩ := hnested.child hchild
      have hinter : child.endpoints ∩ (node.endpoints ∩ available) = child.endpoints ∩ available := by
        rw [← Finset.inter_assoc, Finset.inter_eq_left.mpr hsub]
      simp only [hinter]
      split_ifs
      · rfl
      · exact ih (matchLength + chunkSize) hbelow

omit [DecidableEq H] in
theorem longestPrefixMatch_eq_or (chunkSize : Nat) {t : TrieNode H} (hnested : Nested t) (hashes : List H)
    (available : Finset String) :
    ((∃ chunk, hashes.head? = some chunk ∧ (endpointsAt t [chunk] ∩ available).Nonempty) ∧
      (longestPrefixMatch t hashes available).Nonempty ∧
      longestPrefixMatch t hashes available = (matchNode chunkSize t hashes 0 available).2) ∨
    ((∀ chunk, hashes.head? = some chunk → endpointsAt t [chunk] ∩ available = ∅) ∧
      longestPrefixMatch t hashes available = t.endpoints ∩ available ∧
      (matchNode chunkSize t hashes 0 available).2 = available) := by
  cases hashes with
  | nil => exact .inr ⟨by simp, rfl, rfl⟩
  | cons chunk hashes =>
    simp only [longestPrefixMatch, walk, matchNode, List.head?_cons, Option.some.injEq, exists_eq_left',
      forall_eq']
    cases hchild : t.children chunk with
    | none => exact .inr ⟨by simp [endpointsAt, hchild], rfl, rfl⟩
    | some child =>
      have hat : endpointsAt t [chunk] = child.endpoints := by simp [endpointsAt, hchild]
      rw [hat]
      by_cases hempty : child.endpoints ∩ available = ∅
      · simp only [hempty, if_true]
        exact .inr ⟨trivial, trivial, trivial⟩
      · have hne := Finset.nonempty_iff_ne_empty.mpr hempty
        simp only [if_neg hempty]
        have hwalk := walk_eq_matchNode chunkSize (0 + chunkSize) (hnested.child hchild).1 hashes available
        rw [hwalk]
        exact .inl ⟨hne, matchNode_nonempty _ _ _ _ hne, rfl⟩

end Trie

section Comparison

variable {H : Type} [DecidableEq H]

structure Decision where
  prompt : String
  available : Finset String
  chosen : String

def calls (decisions : List Decision) : List (String × String) := decisions.map (fun d => (d.prompt, d.chosen))

variable (chunkHash : String → H) (chunkSize : ℕ+) (decisions : List Decision)

def pickerTrie : TrieNode H :=
  decisions.foldl (fun t d => insertKey t (chunkAndHash chunkHash chunkSize d.prompt) d.chosen) .empty

def routerTrie : HashTrie H := insertAll chunkHash { chunkSize } (calls decisions)

theorem pickerTrie_eq : pickerTrie chunkHash chunkSize decisions = (routerTrie chunkHash chunkSize decisions).root := by
  induction decisions using List.reverseRecOn with
  | nil => rfl
  | append_singleton decisions d ih =>
    have hsize : (routerTrie chunkHash chunkSize decisions).chunkSize = chunkSize := insertAll_chunkSize _ _ _
    have hrouter : routerTrie chunkHash chunkSize (decisions ++ [d]) =
        (routerTrie chunkHash chunkSize decisions).insert chunkHash d.prompt d.chosen := by
      simp [routerTrie, calls, insertAll]
    have hpicker : pickerTrie chunkHash chunkSize (decisions ++ [d]) =
        insertKey (pickerTrie chunkHash chunkSize decisions) (chunkAndHash chunkHash chunkSize d.prompt) d.chosen := by
      simp [pickerTrie]
    rw [hpicker, hrouter, ih, HashTrie.insert, hsize]
    rfl

theorem endpointsAt_pickerTrie (path : List H) :
    endpointsAt (pickerTrie chunkHash chunkSize decisions) path =
      holders (hashed chunkHash chunkSize (calls decisions)) path := by
  rw [pickerTrie_eq]
  exact endpointsAt_insertAll chunkHash chunkSize (calls decisions) path

theorem pickerTrie_nested : Nested (pickerTrie chunkHash chunkSize decisions) := by
  intro path more
  rw [endpointsAt_pickerTrie, endpointsAt_pickerTrie]
  exact holders_append_subset _ path more

theorem mem_endpointsAt_pickerTrie {path : List H} {e : String} :
    e ∈ endpointsAt (pickerTrie chunkHash chunkSize decisions) path ↔
      ∃ d ∈ decisions, d.chosen = e ∧ path <+: chunkAndHash chunkHash chunkSize d.prompt := by
  rw [endpointsAt_pickerTrie, mem_holders]
  simp only [mem_hashed, calls, List.mem_map, Prod.mk.injEq]
  constructor
  · rintro ⟨key, ⟨p, ⟨d, hd, rfl, rfl⟩, rfl⟩, hpre⟩
    exact ⟨d, hd, rfl, hpre⟩
  · rintro ⟨d, hd, rfl, hpre⟩
    exact ⟨_, ⟨d.prompt, ⟨d, hd, rfl, rfl⟩, rfl⟩, hpre⟩

/-- Some endpoint that is available was chosen for a prompt with the same first chunk. -/
def SharesFirstChunk (prompt : String) (available : Finset String) : Prop :=
  ∃ d ∈ decisions, d.chosen ∈ available ∧ ∃ chunk,
    (chunkAndHash chunkHash chunkSize d.prompt).head? = some chunk ∧
    (chunkAndHash chunkHash chunkSize prompt).head? = some chunk

theorem sharesFirstChunk_iff (prompt : String) (available : Finset String) :
    SharesFirstChunk chunkHash chunkSize decisions prompt available ↔
      ∃ chunk, (chunkAndHash chunkHash chunkSize prompt).head? = some chunk ∧
        (endpointsAt (pickerTrie chunkHash chunkSize decisions) [chunk] ∩ available).Nonempty := by
  have hhead (chunk : H) (chunks : List H) : [chunk] <+: chunks ↔ chunks.head? = some chunk := by
    cases chunks <;> simp [eq_comm]
  constructor
  · rintro ⟨d, hd, havail, chunk, hdec, hprompt⟩
    refine ⟨chunk, hprompt, d.chosen, Finset.mem_inter.mpr ⟨?_, havail⟩⟩
    exact (mem_endpointsAt_pickerTrie chunkHash chunkSize decisions).mpr ⟨d, hd, rfl, (hhead _ _).mpr hdec⟩
  · rintro ⟨chunk, hprompt, e, he⟩
    obtain ⟨hmem, havail⟩ := Finset.mem_inter.mp he
    obtain ⟨d, hd, rfl, hpre⟩ := (mem_endpointsAt_pickerTrie chunkHash chunkSize decisions).mp hmem
    exact ⟨d, hd, havail, chunk, (hhead _ _).mp hpre, hprompt⟩

/-- The picker draws from the set the router would draw from when some prompt shares the first
chunk, when no endpoint that is available was ever chosen, or when all of them were. -/
theorem candidates_eq_iff (prompt : String) (available : Finset String) :
    candidates (pickerTrie chunkHash chunkSize decisions) (chunkAndHash chunkHash chunkSize prompt) available =
        ((routerTrie chunkHash chunkSize decisions).longestPrefixMatch chunkHash prompt available).2 ↔
      SharesFirstChunk chunkHash chunkSize decisions prompt available ∨
      (∀ d ∈ decisions, d.chosen ∉ available) ∨
      ∀ e ∈ available, ∃ d ∈ decisions, d.chosen = e := by
  have hrouter : ((routerTrie chunkHash chunkSize decisions).longestPrefixMatch chunkHash prompt available).2 =
      (matchNode chunkSize (pickerTrie chunkHash chunkSize decisions) (chunkAndHash chunkHash chunkSize prompt) 0
        available).2 := by
    rw [HashTrie.longestPrefixMatch, pickerTrie_eq]
    have hsize : (routerTrie chunkHash chunkSize decisions).chunkSize = chunkSize := insertAll_chunkSize _ _ _
    rw [hsize]
  have hroot (e : String) : e ∈ (pickerTrie chunkHash chunkSize decisions).endpoints ↔ ∃ d ∈ decisions, d.chosen = e := by
    have hnil := @mem_endpointsAt_pickerTrie H _ chunkHash chunkSize decisions [] e
    simpa [endpointsAt] using hnil
  have hcases := longestPrefixMatch_eq_or chunkSize (pickerTrie_nested chunkHash chunkSize decisions)
    (chunkAndHash chunkHash chunkSize prompt) available
  rw [hrouter, sharesFirstChunk_iff, candidates]
  rcases hcases with ⟨hshares, hne, hsame⟩ | ⟨hnone, hpicker, hall⟩
  · simp only [if_neg hne.ne_empty]
    exact ⟨fun _ => .inl hshares, fun _ => hsame⟩
  · have hnot : ¬∃ chunk, (chunkAndHash chunkHash chunkSize prompt).head? = some chunk ∧
        (endpointsAt (pickerTrie chunkHash chunkSize decisions) [chunk] ∩ available).Nonempty := by
      rintro ⟨chunk, hhead, hne⟩
      exact hne.ne_empty (hnone chunk hhead)
    rw [or_iff_right hnot, hpicker, hall]
    by_cases hempty : (pickerTrie chunkHash chunkSize decisions).endpoints ∩ available = ∅
    · have hnever : ∀ d ∈ decisions, d.chosen ∉ available := by
        intro d hd hmem
        have hin := Finset.mem_inter.mpr ⟨(hroot d.chosen).mpr ⟨d, hd, rfl⟩, hmem⟩
        simp [hempty] at hin
      simp only [if_pos hempty]
      exact ⟨fun _ => .inl hnever, fun _ => trivial⟩
    · simp only [if_neg hempty]
      rw [Finset.inter_eq_right]
      constructor
      · intro hsub
        exact .inr (fun e he => (hroot e).mp (hsub he))
      · rintro (hnever | hevery) e he
        · refine absurd (Finset.eq_empty_of_forall_notMem ?_) hempty
          intro e' he'
          obtain ⟨d, hd, rfl⟩ := (hroot e').mp (Finset.mem_inter.mp he').1
          exact hnever d hd (Finset.mem_inter.mp he').2
        · exact (hroot e).mpr (hevery e he)

end Comparison

def started : List Decision := [⟨"Tell me a story.", {"http://10.0.0.1:8000"}, "http://10.0.0.1:8000"⟩]

theorem new_prompt_stays_on_old_engine :
    candidates (pickerTrie id 128 started) (chunkAndHash id 128 "What is a trie?")
        {"http://10.0.0.1:8000", "http://10.0.0.2:8000"} = {"http://10.0.0.1:8000"} ∧
    ((routerTrie id 128 started).longestPrefixMatch id "What is a trie?"
        {"http://10.0.0.1:8000", "http://10.0.0.2:8000"}).2 = {"http://10.0.0.1:8000", "http://10.0.0.2:8000"} := by
  decide

end ProductionStack.PrefixMatchPicker
