import ProductionStack.JsonCanonical
import ProductionStack.Utf8Text

namespace ProductionStack.JsonText

section Pairs

/-- A string that is read back as it was written: no high surrogate is followed by a low one. -/
def Unsplit (s : Text) : Prop := pairUp s = s

instance (s : Text) : Decidable (Unsplit s) := inferInstanceAs (Decidable (_ = _))

theorem isLow_eq_false_of_le {c : Nat} (h : 0x10000 ≤ c) : isHigh c = false ∧ isLow c = false := by
  simp only [isHigh, isLow, Bool.and_eq_false_iff, decide_eq_false_iff_not]
  omega

theorem head_pairUp {b : Nat} (h : isLow b = false) (s : Text) : ∃ c rest, pairUp (b :: s) = c :: rest ∧ isLow c = false := by
  cases s with
  | nil => exact ⟨b, [], rfl, h⟩
  | cons d s =>
    rw [pairUp]
    split
    · exact ⟨_, _, rfl, (isLow_eq_false_of_le (by omega)).2⟩
    · exact ⟨b, _, rfl, h⟩

theorem unsplit_pairUp (s : Text) : Unsplit (pairUp s) := by
  rw [Unsplit]
  fun_induction pairUp s with
  | case1 => rfl
  | case2 c => rfl
  | case3 a b s hpair ih => rw [pairUp_cons (isLow_eq_false_of_le (by omega)).1, ih]
  | case4 a b s hpair ih =>
    cases hhigh : isHigh a with
    | false => rw [pairUp_cons hhigh, ih]
    | true =>
      have hlow : isLow b = false := by simpa [hhigh] using hpair
      obtain ⟨c, rest, hrest, hc⟩ := head_pairUp hlow s
      rw [hrest] at ih ⊢
      rw [pairUp_cons_cons hc, ih]

theorem unsplit_of_lt {s : Text} (h : ∀ c ∈ pairUp s, c < 0x10000) : Unsplit s := by
  rw [Unsplit]
  fun_induction pairUp s with
  | case1 => rfl
  | case2 c => rfl
  | case3 a b s hpair ih =>
    have hfirst := h _ List.mem_cons_self
    omega
  | case4 a b s hpair ih => rw [ih (fun c hc => h c (List.mem_cons_of_mem a hc))]

end Pairs

section Values

variable {F : Type}

mutual

theorem every_reread : ∀ v : Value F, Every Unsplit (reread true v)
  | .null | .bool _ | .int _ | .float _ => trivial
  | .str s => unsplit_pairUp s
  | .arr items => everyItem_reread items
  | .obj fields => everyField_dictOf (everyField_reread fields)

theorem everyItem_reread : ∀ items : List (Value F), EveryItem Unsplit (rereadItems true items)
  | [] => trivial
  | item :: items => ⟨every_reread item, everyItem_reread items⟩

theorem everyField_reread : ∀ fields : Fields F, EveryField Unsplit (rereadFields true fields)
  | [] => trivial
  | (key, value) :: fields => ⟨unsplit_pairUp key, every_reread value, everyField_reread fields⟩

end

theorem reread_eq_iff {limits : Limits} {v : Value F} (hv : Proper limits v) : reread true v = v ↔ Every Unsplit v :=
  ⟨fun h => h ▸ every_reread v, fun h => reread_eq hv h⟩

theorem rereadFields_eq_map (fields : Fields F) :
    rereadFields true fields = fields.map (fun f => (pairUp f.1, reread true f.2)) := by
  induction fields with
  | nil => rfl
  | cons f fields ih =>
    obtain ⟨key, value⟩ := f
    rw [rereadFields, ih, List.map_cons]
    rfl

theorem lookup_reread {fields : Fields F} (hnodup : (fields.map Prod.fst).Nodup) {key : Text}
    (hkey : ∀ c ∈ key, c < 0xD800) {value : Value F} (h : fields.lookup key = some value) :
    (dictOf (rereadFields true fields)).lookup key = some (reread true value) := by
  have hlt : ∀ c ∈ key, c < 0x10000 := fun c hc => Nat.lt_trans (hkey c hc) (by decide)
  have hunsplit : pairUp key = key := by
    clear h hlt
    induction key with
    | nil => rfl
    | cons c key ih =>
      obtain ⟨hc, hkey⟩ := List.forall_mem_cons.mp hkey
      rw [pairUp_cons (surrogates_of_lt hc).1, ih hkey]
  obtain ⟨l, r, rfl, -⟩ := List.lookup_eq_some_iff.mp h
  have hmem : key ∈ ((rereadFields true (l ++ (key, value) :: r)).map Prod.fst) := by
    rw [rereadFields_eq_map, List.map_map]
    exact List.mem_map.mpr ⟨(key, value), by simp, hunsplit⟩
  obtain ⟨w, hw, hget⟩ := Dict.get?_foldl_set_of_mem _ Dict.empty hmem
  rw [rereadFields_eq_map] at hw
  obtain ⟨f, hf, heq⟩ := List.mem_map.mp hw
  obtain ⟨hfirst, rfl⟩ := Prod.mk.inj heq
  have hsame : f.1 = key := by
    rw [← hfirst]
    exact (unsplit_of_lt (by rw [hfirst]; exact hlt)).symm
  have hvalue : f.2 = value := by
    have hin : (key, value) ∈ l ++ (key, value) :: r := by simp
    exact congrArg Prod.snd (List.inj_on_of_nodup_map hnodup hf hin hsame)
  rw [hvalue, Dict.get?_eq_lookup] at hget
  rw [dictOf_eq]
  exact hget

variable (fmt : Runtime F)

theorem dumps_ascii (v : Value F) : ∀ c ∈ dumps defaultStyle fmt.floatstr v, c < 128 := by
  intro c hc
  rcases (mem_dumps fmt printable_default v c hc).2 with hascii | ⟨hfalse, -⟩
  · omega
  · cases hfalse

theorem loads_default {v : Value F} (hv : Proper fmt.limits v) (hs : Every IsStr v) :
    loads fmt (dumps defaultStyle fmt.floatstr v) = .ok (reread true v) := by
  have hread := loadsWithin_dumps_eq fmt legible_default hv (fun _ => hs) (List.forall_mem_nil (fun c => isSpace c = true))
  rw [List.append_nil] at hread
  exact hread

end Values

end ProductionStack.JsonText
