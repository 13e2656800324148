import Mathlib.Data.List.Basic

namespace ProductionStack.PositionalWrites

variable {α : Type}

/-- A piece written at an offset. What lies between the end of the content and the offset is filled. -/
def writeAt (fill : α) (content : List α) (offset : Nat) (piece : List α) : List α :=
  content.take offset ++ List.replicate (offset - content.length) fill ++ piece ++ content.drop (offset + piece.length)

/-- Nothing happens where an empty piece is written. -/
def write (fill : α) (content : List α) (w : Nat × List α) : List α :=
  if w.2 = [] then content else writeAt fill content w.1 w.2

def writeAll (fill : α) (content : List α) (writes : List (Nat × List α)) : List α := writes.foldl (write fill) content

/-- Consecutive pieces with their offsets, the first one at the start. -/
def piecesFrom (start : Nat) : List (List α) → List (Nat × List α)
  | [] => []
  | piece :: rest => (start, piece) :: piecesFrom (start + piece.length) rest

def pieces (parts : List (List α)) : List (Nat × List α) := piecesFrom 0 parts

def Covers (w : Nat × List α) (i : Nat) : Prop := w.1 ≤ i ∧ i < w.1 + w.2.length

section Writes

variable {fill : α} {content : List α} {offset : Nat} {piece : List α}

theorem length_writeAt : (writeAt fill content offset piece).length = max content.length (offset + piece.length) := by
  simp only [writeAt, List.length_append, List.length_take, List.length_replicate, List.length_drop]
  omega

theorem writeAt_of_covers {i : Nat} (h : Covers (offset, piece) i) :
    (writeAt fill content offset piece)[i]? = piece[i - offset]? := by
  obtain ⟨hle, hlt⟩ := h
  have hfront : (content.take offset ++ List.replicate (offset - content.length) fill).length = offset := by
    simp only [List.length_append, List.length_take, List.length_replicate]
    omega
  rw [writeAt, List.getElem?_append_left, List.getElem?_append_right, hfront]
  · rw [hfront]
    exact hle
  · rw [List.length_append, hfront]
    exact hlt

theorem writeAt_of_not_covers {i : Nat} (h : ¬Covers (offset, piece) i) (hi : i < content.length) :
    (writeAt fill content offset piece)[i]? = content[i]? := by
  rw [writeAt]
  by_cases hle : i < offset
  · have htake : i < (content.take offset).length := by
      rw [List.length_take]
      omega
    rw [List.append_assoc, List.append_assoc, List.getElem?_append_left htake, List.getElem?_take_of_lt hle]
  · have hge : offset + piece.length ≤ i := by
      rw [Covers] at h
      simp only at h
      omega
    have hfront : (content.take offset ++ List.replicate (offset - content.length) fill ++ piece).length =
        offset + piece.length := by
      simp only [List.length_append, List.length_take, List.length_replicate]
      omega
    rw [List.getElem?_append_right (by rw [hfront]; exact hge), hfront, List.getElem?_drop]
    congr 1
    omega

end Writes

section Pieces

variable {parts : List (List α)}

theorem exists_of_mem_piecesFrom {start : Nat} {w : Nat × List α} (h : w ∈ piecesFrom start parts) :
    ∃ front back, parts.flatten = front ++ w.2 ++ back ∧ w.1 = start + front.length := by
  induction parts generalizing start with
  | nil => cases h
  | cons piece rest ih =>
    rcases List.mem_cons.mp h with rfl | hrest
    · exact ⟨[], rest.flatten, rfl, rfl⟩
    · obtain ⟨front, back, hflat, hstart⟩ := ih hrest
      refine ⟨piece ++ front, back, ?_, ?_⟩
      · rw [List.flatten_cons, hflat, List.append_assoc, List.append_assoc, List.append_assoc]
      · rw [hstart, List.length_append, Nat.add_assoc]

theorem getElem?_of_covers {w : Nat × List α} (h : w ∈ pieces parts) {i : Nat} (hi : Covers w i) :
    parts.flatten[i]? = w.2[i - w.1]? := by
  obtain ⟨front, back, hflat, hstart⟩ := exists_of_mem_piecesFrom h
  obtain ⟨hle, hlt⟩ := hi
  rw [Nat.zero_add] at hstart
  rw [hflat, hstart, List.append_assoc, List.getElem?_append_right (hstart ▸ hle), List.getElem?_append_left (by omega)]

theorem end_le_length {w : Nat × List α} (h : w ∈ pieces parts) : w.1 + w.2.length ≤ parts.flatten.length := by
  obtain ⟨front, back, hflat, hstart⟩ := exists_of_mem_piecesFrom h
  rw [hflat, hstart, List.length_append, List.length_append]
  omega

theorem exists_covers {start i : Nat} (hle : start ≤ i) (hlt : i < start + parts.flatten.length) :
    ∃ w ∈ piecesFrom start parts, Covers w i := by
  induction parts generalizing start with
  | nil =>
    rw [List.flatten_nil, List.length_nil] at hlt
    omega
  | cons piece rest ih =>
    rw [List.flatten_cons, List.length_append] at hlt
    by_cases hfirst : i < start + piece.length
    · exact ⟨(start, piece), List.mem_cons_self, hle, hfirst⟩
    · obtain ⟨w, hw, hcovers⟩ := ih (Nat.le_of_not_lt hfirst) (by omega)
      exact ⟨w, List.mem_cons_of_mem _ hw, hcovers⟩

end Pieces

section Runs

variable {fill : α} {parts : List (List α)}

/-- Pieces have been written, the content is not longer than the whole and agrees with it wherever one of them lies. -/
structure Partly (parts : List (List α)) (done : List (Nat × List α)) (content : List α) : Prop where
  subset : ∀ w ∈ done, w ∈ pieces parts
  length_le : content.length ≤ parts.flatten.length
  agrees : ∀ w ∈ done, ∀ i, Covers w i → content[i]? = parts.flatten[i]?

theorem partly_nil (parts : List (List α)) : Partly parts [] [] := ⟨nofun, Nat.zero_le _, nofun⟩

theorem Partly.lt_length {done : List (Nat × List α)} {content : List α} (h : Partly parts done content) {w : Nat × List α}
    (hw : w ∈ done) {i : Nat} (hi : Covers w i) : i < content.length := by
  have hin : i < parts.flatten.length := Nat.lt_of_lt_of_le hi.2 (end_le_length (h.subset w hw))
  have hsome : content[i]?.isSome = true := by
    rw [h.agrees w hw i hi, List.getElem?_eq_getElem hin]
    rfl
  simpa using hsome

theorem Partly.write {done : List (Nat × List α)} {content : List α} (h : Partly parts done content) (fill : α) {w : Nat × List α}
    (hw : w ∈ pieces parts) : Partly parts (done ++ [w]) (write fill content w) := by
  have hsubset : ∀ v ∈ done ++ [w], v ∈ pieces parts := by
    rw [List.forall_mem_append, List.forall_mem_singleton]
    exact ⟨h.subset, hw⟩
  rw [PositionalWrites.write]
  by_cases hempty : w.2 = []
  · rw [if_pos hempty]
    refine ⟨hsubset, h.length_le, ?_⟩
    rw [List.forall_mem_append, List.forall_mem_singleton]
    refine ⟨h.agrees, fun i hi => ?_⟩
    rw [Covers, hempty, List.length_nil] at hi
    omega
  · rw [if_neg hempty]
    have hend := end_le_length hw
    refine ⟨hsubset, ?_, ?_⟩
    · rw [length_writeAt]
      exact Nat.max_le.mpr ⟨h.length_le, hend⟩
    · intro v hv i hi
      by_cases hcovers : Covers w i
      · rw [writeAt_of_covers hcovers, getElem?_of_covers hw hcovers]
      · -- the piece lies elsewhere, so that an earlier one was written here and is left as it is
        have hv : v ∈ done := by
          rcases List.mem_append.mp hv with hv | hv
          · exact hv
          · exact absurd (List.mem_singleton.mp hv ▸ hi) hcovers
        rw [writeAt_of_not_covers hcovers (h.lt_length hv hi), h.agrees v hv i hi]

theorem Partly.writeAll {done writes : List (Nat × List α)} {content : List α} (h : Partly parts done content) (fill : α)
    (hwrites : ∀ w ∈ writes, w ∈ pieces parts) : Partly parts (done ++ writes) (writeAll fill content writes) := by
  induction writes generalizing done content with
  | nil =>
    rw [List.append_nil]
    exact h
  | cons w writes ih =>
    obtain ⟨hw, hrest⟩ := List.forall_mem_cons.mp hwrites
    have hnext := ih (h.write fill hw) hrest
    rw [List.append_assoc, List.singleton_append] at hnext
    exact hnext

theorem Partly.eq_flatten {done : List (Nat × List α)} {content : List α} (h : Partly parts done content)
    (hall : ∀ w ∈ pieces parts, w ∈ done) : content = parts.flatten := by
  apply List.ext_getElem?
  intro i
  by_cases hi : i < parts.flatten.length
  · obtain ⟨w, hw, hcovers⟩ := exists_covers (Nat.zero_le i) (by rwa [Nat.zero_add])
    exact h.agrees w (hall w hw) i hcovers
  · have hle := Nat.le_of_not_lt hi
    rw [List.getElem?_eq_none (Nat.le_trans h.length_le hle), List.getElem?_eq_none hle]

/-- The pieces of a whole, each written at least once and in any order, make up the whole. -/
theorem writeAll_pieces (fill : α) {writes : List (Nat × List α)} (h : ∀ w, w ∈ writes ↔ w ∈ pieces parts) :
    writeAll fill [] writes = parts.flatten := by
  have hpartly := (partly_nil parts).writeAll fill (fun w hw => (h w).mp hw)
  exact hpartly.eq_flatten (fun w hw => (h w).mpr hw)

end Runs

end ProductionStack.PositionalWrites
