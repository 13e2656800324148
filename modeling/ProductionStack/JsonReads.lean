import Mathlib.Algebra.Group.Nat.Defs
import ProductionStack.JsonRoundTrip

namespace ProductionStack.JsonText

section Proper

variable {F : Type} {fmt : Runtime F} {limits : Limits}

theorem scanWhole_digits {t whole rest : Text} (h : scanWhole t = some (whole, rest)) :
    whole ≠ [] ∧ ∀ c ∈ whole, isDigit c = true := by
  cases t with
  | nil => cases h
  | cons c t =>
    rw [scanWhole] at h
    split at h
    next hzero =>
      cases h
      simp [hzero, isDigit]
    next =>
      split at h
      next hdigit =>
        cases h
        refine ⟨List.cons_ne_nil _ _, ?_⟩
        intro d hd
        rcases List.mem_cons.mp hd with rfl | hd
        · exact hdigit
        · exact List.mem_takeWhile_imp hd
      · cases h

theorem ofDecimal_lt {digits : Text} (h : ∀ c ∈ digits, isDigit c = true) : ofDecimal digits < 10 ^ digits.length := by
  induction digits using List.reverseRecOn with
  | nil => decide
  | append_singleton digits c ih =>
    have hc : isDigit c = true := h c (by simp)
    have hrest := ih (fun d hd => h d (by simp [hd]))
    simp [isDigit] at hc
    rw [ofDecimal, List.foldl_append, List.length_append, List.length_singleton, Nat.pow_succ]
    change 10 * ofDecimal digits + (c - '0'.toNat) < _
    simp only [Char.reduceToNat]
    omega

variable {t rest : Text} {v : Value F} {fields : Fields F}

theorem proper_number {k : Token} (hscan : scanNumber t = some (k, rest))
    (h : numberOf fmt limits k = .ok v) : Proper limits v := by
  have hwhole : k.whole ≠ [] ∧ ∀ c ∈ k.whole, isDigit c = true := by
    simp only [scanNumber, Option.bind_eq_bind, Option.bind_eq_some_iff] at hscan
    obtain ⟨w, hw, hk⟩ := hscan
    cases hk
    exact scanWhole_digits hw
  rw [numberOf] at h
  split at h
  · split at h
    · cases h
    next hlength =>
      cases h
      have hnat : (intOf k).natAbs = ofDecimal k.whole := by
        rw [intOf]
        split <;> omega
      rw [Proper, hnat, decimal, List.length_map]
      refine Nat.le_trans ?_ (Nat.not_lt.mp hlength)
      exact (Nat.length_toDigits_le_iff (by decide) (List.length_pos_iff.mpr hwhole.1)).mpr (ofDecimal_lt hwhole.2)
  · cases h
    trivial

theorem proper_literal {literals : Fields F} (hall : ∀ l ∈ literals, Proper limits l.2)
    (h : scanLiterals literals t = some (v, rest)) : Proper limits v := by
  obtain ⟨l, hl, hfound⟩ := List.exists_of_findSome?_eq_some h
  obtain ⟨r, _, hr⟩ := Option.map_eq_some_iff.mp hfound
  cases hr
  exact hall l hl

theorem proper_atom (h : parseAtom fmt limits t = .ok (v, rest)) : Proper limits v := by
  have hkeywords : ∀ l ∈ (keywords : Fields F), Proper limits l.2 := by simp [keywords, Proper]
  have hconstants : ∀ l ∈ constants fmt, Proper limits l.2 := by simp [constants, Proper]
  rw [parseAtom] at h
  split at h
  next hfound =>
    cases h
    exact proper_literal hkeywords hfound
  next =>
    split at h
    next hscan =>
      obtain ⟨w, hw, heq⟩ := map_eq_ok.mp h
      cases heq
      exact proper_number hscan hw
    next =>
      split at h
      next hfound =>
        cases h
        exact proper_literal hconstants hfound
      · cases h

theorem properFields_assign {key : Text} {value : Value F} (hvalue : Proper limits value)
    (h : ProperFields limits fields) : ProperFields limits (Dict.assign key value fields) := by
  induction fields with
  | nil => exact ⟨hvalue, trivial⟩
  | cons field fields ih =>
    obtain ⟨key', value'⟩ := field
    rw [Dict.assign]
    split
    · exact ⟨hvalue, h.2⟩
    · exact ⟨h.1, ih h.2⟩

theorem proper_assign {key : Text} {value : Value F} (hvalue : Proper limits.deeper value)
    (h : Proper limits (.obj fields)) : Proper limits (.obj (Dict.assign key value fields)) :=
  ⟨Dict.assign_nodup key value fields h.1, h.2.1, properFields_assign hvalue h.2.2⟩

theorem proper_dictOf (hdepth : limits.depth ≠ 0) (h : ProperFields limits.deeper fields) :
    Proper limits (.obj (dictOf fields)) := by
  have hfold : ∀ (fields acc : Fields F), ProperFields limits.deeper fields → Proper limits (.obj acc) →
      Proper limits (.obj (fields.foldl (fun fields f => Dict.assign f.1 f.2 fields) acc)) := by
    intro fields
    induction fields with
    | nil => exact fun _ _ hacc => hacc
    | cons field fields ih => exact fun acc hfields hacc => ih _ hfields.2 (proper_assign hfields.1 hacc)
  exact hfold fields [] h ⟨List.nodup_nil, hdepth, trivial⟩

theorem skip_subset (t : Text) : skip t ⊆ t := (List.dropWhile_suffix _).subset

theorem expect_subset {c : Nat} (h : expect c t = .ok rest) : rest ⊆ t := by
  cases t with
  | nil => cases h
  | cons d t =>
    rw [expect] at h
    split at h
    · cases h
      exact List.subset_cons_self _ _
    · cases h

theorem separator_subset {close : Nat} {closed : Bool} (h : separator close t = .ok (closed, rest)) : rest ⊆ t := by
  rw [separator] at h
  split at h
  · cases h
  next d t' hskip =>
    have hsub : d :: t' ⊆ t := hskip ▸ skip_subset t
    split at h
    · cases h
      exact fun c hc => hsub (List.mem_cons_of_mem d hc)
    · obtain ⟨u, hu, heq⟩ := map_eq_ok.mp h
      cases heq
      exact fun c hc => hsub (expect_subset hu (skip_subset u hc))

theorem scanSign_subset (signs t : Text) : (scanSign signs t).2 ⊆ t := by
  cases t with
  | nil => exact fun _ h => h
  | cons c t =>
    rw [scanSign]
    split
    · exact List.subset_cons_self _ _
    · exact fun _ h => h

theorem dropWhile_subset_cons (p : Nat → Bool) (c : Nat) (t : Text) : t.dropWhile p ⊆ c :: t :=
  fun _ h => List.mem_cons_of_mem c ((List.dropWhile_suffix p).subset h)

theorem scanWhole_subset {t whole rest : Text} (h : scanWhole t = some (whole, rest)) : rest ⊆ t := by
  cases t with
  | nil => cases h
  | cons c t =>
    rw [scanWhole] at h
    split at h
    · cases h
      exact List.subset_cons_self _ _
    · split at h
      · cases h
        exact dropWhile_subset_cons _ c t
      · cases h

theorem scanFraction_subset (t : Text) : (scanFraction t).2 ⊆ t := by
  cases t with
  | nil => exact fun _ h => h
  | cons c t =>
    rw [scanFraction]
    split
    · exact dropWhile_subset_cons _ c t
    · exact fun _ h => h

theorem scanExponent_subset (t : Text) : (scanExponent t).2 ⊆ t := by
  cases t with
  | nil => exact fun _ h => h
  | cons c t =>
    rw [scanExponent]
    split
    · intro d hd
      exact List.mem_cons_of_mem c (scanSign_subset _ t ((List.dropWhile_suffix _).subset hd))
    · exact fun _ h => h

theorem scanNumber_subset {k : Token} (h : scanNumber t = some (k, rest)) : rest ⊆ t := by
  simp only [scanNumber, Option.bind_eq_bind, Option.bind_eq_some_iff] at h
  obtain ⟨⟨whole, t'⟩, hwhole, hk⟩ := h
  cases hk
  intro c hc
  exact scanSign_subset _ t (scanWhole_subset hwhole (scanFraction_subset _ (scanExponent_subset _ hc)))

theorem scanLiterals_subset {literals : Fields F} (h : scanLiterals literals t = some (v, rest)) : rest ⊆ t := by
  obtain ⟨l, -, hfound⟩ := List.exists_of_findSome?_eq_some h
  obtain ⟨r, hr, heq⟩ := Option.map_eq_some_iff.mp hfound
  cases heq
  rw [scanLiteral] at hr
  split at hr
  · cases hr
    exact List.drop_subset _ t
  · cases hr

theorem parseAtom_subset (h : parseAtom fmt limits t = .ok (v, rest)) : rest ⊆ t := by
  rw [parseAtom] at h
  split at h
  next hfound =>
    cases h
    exact scanLiterals_subset hfound
  next =>
    split at h
    next hscan =>
      obtain ⟨w, hw, heq⟩ := map_eq_ok.mp h
      cases heq
      exact scanNumber_subset hscan
    next =>
      split at h
      next hfound =>
        cases h
        exact scanLiterals_subset hfound
      · cases h

/-- Characters, such that a string that is read from texts of them has a property. -/
structure Alphabet (A : Nat → Prop) (K : Text → Prop) : Prop where
  scan : ∀ t s rest, (∀ c ∈ t, A c) → scanString t = some (s, rest) → K s ∧ rest ⊆ t

theorem everyField_assign {K : Text → Prop} {key : Text} {value : Value F} (hkey : K key)
    (hvalue : Every K value) (h : EveryField K fields) : EveryField K (Dict.assign key value fields) := by
  induction fields with
  | nil => exact ⟨hkey, hvalue, trivial⟩
  | cons field fields ih =>
    obtain ⟨key', value'⟩ := field
    rw [Dict.assign]
    split
    · exact ⟨hkey, hvalue, h.2.2⟩
    · exact ⟨h.1, h.2.1, ih h.2.2⟩

theorem everyField_dictOf {K : Text → Prop} (h : EveryField K fields) : EveryField K (dictOf fields) := by
  have hfold : ∀ (fields acc : Fields F), EveryField K fields → EveryField K acc →
      EveryField K (fields.foldl (fun fields f => Dict.assign f.1 f.2 fields) acc) := by
    intro fields
    induction fields with
    | nil => exact fun _ _ hacc => hacc
    | cons field fields ih => exact fun acc h hacc => ih _ h.2.2 (everyField_assign h.1 h.2.1 hacc)
  exact hfold fields [] h trivial

variable {A : Nat → Prop} {K : Text → Prop}

theorem Alphabet.parseString (hA : Alphabet A K) {t s rest : Text} (ht : ∀ c ∈ t, A c)
    (h : parseString t = .ok (s, rest)) : K s ∧ rest ⊆ t := by
  obtain ⟨u, hu, h⟩ := bind_eq_ok.mp h
  have hsub := expect_subset hu
  split at h
  next found hscan =>
    cases h
    obtain ⟨hs, hrest⟩ := hA.scan u s rest (fun c hc => ht c (hsub hc)) hscan
    exact ⟨hs, fun c hc => hsub (hrest hc)⟩
  · cases h

/-- What is read with some fuel is proper, its strings have the property, and the rest was there before. -/
structure Reads (fmt : Runtime F) (A : Nat → Prop) (K : Text → Prop) (fuel : Nat) : Prop where
  value : ∀ limits t v rest, (∀ c ∈ t, A c) → parseValue fmt limits fuel t = .ok (v, rest) →
    (Proper limits v ∧ Every K v) ∧ rest ⊆ t
  items : ∀ limits t items rest, (∀ c ∈ t, A c) → parseItems fmt limits fuel t = .ok (items, rest) →
    (ProperItems limits items ∧ EveryItem K items) ∧ rest ⊆ t
  fields : ∀ limits t fields rest, (∀ c ∈ t, A c) → parseFields fmt limits fuel t = .ok (fields, rest) →
    (ProperFields limits fields ∧ EveryField K fields) ∧ rest ⊆ t

theorem every_atom (h : parseAtom fmt limits t = .ok (v, rest)) : Every K v := by
  have hliteral : ∀ {literals : Fields F}, (∀ l ∈ literals, Every K l.2) →
      scanLiterals literals t = some (v, rest) → Every K v := by
    intro literals hall h
    obtain ⟨l, hl, hfound⟩ := List.exists_of_findSome?_eq_some h
    obtain ⟨r, _, hr⟩ := Option.map_eq_some_iff.mp hfound
    cases hr
    exact hall l hl
  rw [parseAtom] at h
  split at h
  next hfound =>
    cases h
    exact hliteral (by simp [keywords, Every]) hfound
  next =>
    split at h
    next =>
      obtain ⟨w, hw, heq⟩ := map_eq_ok.mp h
      cases heq
      rw [numberOf] at hw
      split at hw
      · split at hw
        · cases hw
        · cases hw
          trivial
      · cases hw
        trivial
    next =>
      split at h
      next hfound =>
        cases h
        exact hliteral (by simp [constants, Every]) hfound
      · cases h

theorem Reads.succ_value (hA : Alphabet A K) {fuel : Nat} (ih : Reads fmt A K fuel) (limits : Limits) (t : Text)
    (v : Value F) (rest : Text) (ht : ∀ c ∈ t, A c) (h : parseValue fmt limits (fuel + 1) t = .ok (v, rest)) :
    (Proper limits v ∧ Every K v) ∧ rest ⊆ t := by
  cases t with
  | nil => cases h
  | cons c t =>
    -- The text after the opening bracket, without spaces.
    have hinner : ∀ {d : Nat} {u : Text}, skip t = d :: u → d :: u ⊆ c :: t :=
      fun hskip _ hc => List.mem_cons_of_mem c (skip_subset t (hskip ▸ hc))
    rw [parseValue] at h
    split at h
    · obtain ⟨r, hr, heq⟩ := map_eq_ok.mp h
      cases heq
      obtain ⟨hs, hrest⟩ := hA.parseString ht hr
      exact ⟨⟨trivial, hs⟩, hrest⟩
    · split at h
      · split at h
        · cases h
        next hdepth =>
          split at h
          · cases h
          next d u hskip =>
            have hsub := hinner hskip
            split at h
            · cases h
              exact ⟨⟨⟨hdepth, trivial⟩, trivial⟩, fun x hx => hsub (List.mem_cons_of_mem d hx)⟩
            · obtain ⟨r, hr, heq⟩ := map_eq_ok.mp h
              cases heq
              obtain ⟨⟨hproper, hevery⟩, hrest⟩ := ih.items _ _ _ _ (fun x hx => ht x (hsub hx)) hr
              exact ⟨⟨⟨hdepth, hproper⟩, hevery⟩, fun x hx => hsub (hrest hx)⟩
      · split at h
        · split at h
          · cases h
          next hdepth =>
            split at h
            · cases h
            next d u hskip =>
              have hsub := hinner hskip
              split at h
              · cases h
                exact ⟨⟨⟨List.nodup_nil, hdepth, trivial⟩, trivial⟩, fun x hx => hsub (List.mem_cons_of_mem d hx)⟩
              · obtain ⟨r, hr, heq⟩ := map_eq_ok.mp h
                cases heq
                obtain ⟨⟨hproper, hevery⟩, hrest⟩ := ih.fields _ _ _ _ (fun x hx => ht x (hsub hx)) hr
                exact ⟨⟨proper_dictOf hdepth hproper, everyField_dictOf hevery⟩, fun x hx => hsub (hrest hx)⟩
        · exact ⟨⟨proper_atom h, every_atom h⟩, parseAtom_subset h⟩

theorem Reads.succ_items {fuel : Nat} (ih : Reads fmt A K fuel) (limits : Limits) (t : Text) (items : List (Value F))
    (rest : Text) (ht : ∀ c ∈ t, A c) (h : parseItems fmt limits (fuel + 1) t = .ok (items, rest)) :
    (ProperItems limits items ∧ EveryItem K items) ∧ rest ⊆ t := by
  rw [parseItems] at h
  obtain ⟨⟨item, t₁⟩, hitem, h⟩ := bind_eq_ok.mp h
  obtain ⟨⟨closed, t₂⟩, hclosed, h⟩ := bind_eq_ok.mp h
  obtain ⟨hvalue, hsub₁⟩ := ih.value _ _ _ _ ht hitem
  have hsub₂ : t₂ ⊆ t := List.Subset.trans (separator_subset hclosed) hsub₁
  dsimp only at h
  split at h
  · cases h
    exact ⟨⟨⟨hvalue.1, trivial⟩, hvalue.2, trivial⟩, hsub₂⟩
  · obtain ⟨⟨items', t₃⟩, hitems, h⟩ := bind_eq_ok.mp h
    cases h
    obtain ⟨hmore, hsub₃⟩ := ih.items _ _ _ _ (fun c hc => ht c (hsub₂ hc)) hitems
    exact ⟨⟨⟨hvalue.1, hmore.1⟩, hvalue.2, hmore.2⟩, List.Subset.trans hsub₃ hsub₂⟩

theorem Reads.succ_fields (hA : Alphabet A K) {fuel : Nat} (ih : Reads fmt A K fuel) (limits : Limits) (t : Text)
    (fields : Fields F) (rest : Text) (ht : ∀ c ∈ t, A c) (h : parseFields fmt limits (fuel + 1) t = .ok (fields, rest)) :
    (ProperFields limits fields ∧ EveryField K fields) ∧ rest ⊆ t := by
  rw [parseFields] at h
  obtain ⟨⟨key, t₁⟩, hkey, h⟩ := bind_eq_ok.mp h
  obtain ⟨t₂, hcolon, h⟩ := bind_eq_ok.mp h
  obtain ⟨⟨value, t₃⟩, hvalue, h⟩ := bind_eq_ok.mp h
  obtain ⟨⟨closed, t₄⟩, hclosed, h⟩ := bind_eq_ok.mp h
  obtain ⟨hkey, hsub₁⟩ := hA.parseString ht hkey
  have hsub₂ : skip t₂ ⊆ t := fun c hc => hsub₁ (skip_subset t₁ (expect_subset hcolon (skip_subset t₂ hc)))
  obtain ⟨hvalue, hsub₃⟩ := ih.value _ _ _ _ (fun c hc => ht c (hsub₂ hc)) hvalue
  have hsub₄ : t₄ ⊆ t := fun c hc => hsub₂ (hsub₃ (separator_subset hclosed hc))
  dsimp only at h
  split at h
  · cases h
    exact ⟨⟨⟨hvalue.1, trivial⟩, hkey, hvalue.2, trivial⟩, hsub₄⟩
  · obtain ⟨⟨fields', t₅⟩, hfields, h⟩ := bind_eq_ok.mp h
    cases h
    obtain ⟨hmore, hsub₅⟩ := ih.fields _ _ _ _ (fun c hc => ht c (hsub₄ hc)) hfields
    exact ⟨⟨⟨hvalue.1, hmore.1⟩, hkey, hvalue.2, hmore.2⟩, List.Subset.trans hsub₅ hsub₄⟩

theorem reads (hA : Alphabet A K) (fmt : Runtime F) (fuel : Nat) : Reads fmt A K fuel := by
  induction fuel with
  | zero =>
    refine ⟨?_, ?_, ?_⟩
    all_goals
      intro limits t v rest _ h
      cases h
  | succ fuel ih => exact ⟨ih.succ_value hA, ih.succ_items, ih.succ_fields hA⟩

theorem every_loads (hA : Alphabet A K) {t : Text} (ht : ∀ c ∈ t, A c) (h : loads fmt t = .ok v) :
    Proper fmt.limits v ∧ Every K v := by
  obtain ⟨⟨w, rest⟩, hw, h⟩ := bind_eq_ok.mp h
  dsimp only at h
  split at h
  · cases h
    exact ((reads hA fmt _).value _ _ _ _ (fun c hc => ht c (skip_subset t hc)) hw).1
  · cases h

def Mode.Bounded : Mode → Prop
  | .hex digits value => digits ≤ 3 ∧ value < 16 ^ digits
  | _ => True

theorem hexValue_lt {c d : Nat} (h : hexValue c = some d) : d < 16 := by
  rw [hexValue] at h
  simp only [isDigit, Bool.and_eq_true, decide_eq_true_eq, Char.reduceToNat] at h
  split at h
  · cases h
    omega
  · split at h
    · cases h
      omega
    · split at h
      · cases h
        omega
      · cases h

theorem unit_lt {pending : Option Nat} (hpending : ∀ high ∈ pending, isHigh high = true) {n : Nat} (hn : n < 0x10000) :
    ∀ c ∈ (unit pending n).1, c < 0x110000 := by
  cases pending with
  | none =>
    rw [unit]
    split
    · exact List.forall_mem_nil _
    · intro c hc
      rw [List.mem_singleton.mp hc]
      omega
  | some high =>
    have hhigh := hpending high rfl
    rw [unit]
    simp only [isHigh, isLow, Bool.and_eq_true, decide_eq_true_eq] at hhigh ⊢
    intro c hc
    split at hc
    · rw [List.mem_singleton.mp hc]
      omega
    · split at hc
      · rw [List.mem_singleton.mp hc]
        omega
      · rcases List.mem_pair.mp hc with rfl | rfl <;> omega

theorem push_eq_some {cs s rest : Text} {o : Option (Text × Text)} :
    push cs o = some (s, rest) ↔ ∃ s', o = some (s', rest) ∧ s = cs ++ s' := by
  rw [push, Option.map_eq_some_iff]
  constructor
  · rintro ⟨⟨s', rest'⟩, hfound, heq⟩
    cases heq
    exact ⟨s', hfound, rfl⟩
  · rintro ⟨s', hfound, rfl⟩
    exact ⟨_, hfound, rfl⟩

theorem pending_lt {pending : Option Nat} (hpending : ∀ high ∈ pending, isHigh high = true) :
    ∀ c ∈ pending.toList, c < 0x110000 := by
  intro c hc
  have hhigh := hpending c (Option.mem_toList.mp hc)
  simp only [isHigh, Bool.and_eq_true, decide_eq_true_eq] at hhigh
  omega

structure Scanned (mode : Mode) (pending : Option Nat) (t s rest : Text) : Prop where
  subset : rest ⊆ t
  lt : mode.Bounded → (∀ high ∈ pending, isHigh high = true) → (∀ c ∈ t, c < 0x110000) → ∀ c ∈ s, c < 0x110000

theorem Scanned.cons {mode mode' : Mode} {pending pending' : Option Nat} {c : Nat} {t s rest : Text}
    (h : Scanned mode' pending' t s rest) (cs : Text)
    (hnext : mode.Bounded → (∀ high ∈ pending, isHigh high = true) → c < 0x110000 →
      (∀ x ∈ cs, x < 0x110000) ∧ mode'.Bounded ∧ ∀ high ∈ pending', isHigh high = true) :
    Scanned mode pending (c :: t) (cs ++ s) rest where
  subset := fun x hx => List.mem_cons_of_mem c (h.subset hx)
  lt := by
    intro hmode hpending ht
    obtain ⟨hc, ht⟩ := List.forall_mem_cons.mp ht
    obtain ⟨hcs, hmode', hpending'⟩ := hnext hmode hpending hc
    rw [List.forall_mem_append]
    exact ⟨hcs, h.lt hmode' hpending' ht⟩

theorem scanned_scanFrom {mode : Mode} {pending : Option Nat} {t s rest : Text}
    (h : scanFrom mode pending t = some (s, rest)) : Scanned mode pending t s rest := by
  induction t generalizing mode pending s with
  | nil => cases mode <;> cases h
  | cons c t ih =>
    cases mode with
    | plain =>
      rw [scanFrom] at h
      split at h
      · cases h
        exact ⟨List.subset_cons_self _ _, fun _ hpending _ => pending_lt hpending⟩
      · split at h
        · exact (ih h).cons [] (fun _ hpending _ => ⟨List.forall_mem_nil _, trivial, hpending⟩)
        · split at h
          · cases h
          · obtain ⟨s', hs', rfl⟩ := push_eq_some.mp h
            refine (ih hs').cons _ (fun _ hpending hc => ⟨?_, trivial, noPending⟩)
            rw [List.forall_mem_append, List.forall_mem_singleton]
            exact ⟨pending_lt hpending, hc⟩
    | escaped =>
      rw [scanFrom] at h
      split at h
      · exact (ih h).cons [] (fun _ hpending _ => ⟨List.forall_mem_nil _, ⟨by decide, by decide⟩, hpending⟩)
      · split at h
        next e he =>
          obtain ⟨s', hs', rfl⟩ := push_eq_some.mp h
          have hback : ∀ entry ∈ backslashes, entry.2 < 0x110000 := by decide
          refine (ih hs').cons _ (fun _ hpending _ => ⟨?_, trivial, noPending⟩)
          rw [List.forall_mem_append, List.forall_mem_singleton]
          obtain ⟨l, r, hsplit, -⟩ := List.lookup_eq_some_iff.mp he
          exact ⟨pending_lt hpending, hback (c, e) (by simp [hsplit])⟩
        · cases h
    | hex digits value =>
      rw [scanFrom] at h
      split at h
      · cases h
      next d hd =>
        have hd := hexValue_lt hd
        split at h
        next hdigits =>
          subst hdigits
          obtain ⟨s', hs', rfl⟩ := push_eq_some.mp h
          refine (ih hs').cons _ (fun hmode hpending _ => ⟨?_, trivial, (pairUp_unit hpending (value * 16 + d) []).2⟩)
          have hvalue : value < 16 ^ 3 := hmode.2
          exact unit_lt hpending (by omega)
        next hdigits =>
          refine (ih h).cons [] (fun hmode hpending _ => ⟨List.forall_mem_nil _, ⟨?_, ?_⟩, hpending⟩)
          · have hle := hmode.1
            omega
          · have hvalue := hmode.2
            rw [Nat.pow_succ]
            omega

theorem codePoints : Alphabet (· < 0x110000) IsStr :=
  ⟨fun _ _ _ ht h => ⟨(scanned_scanFrom h).lt trivial noPending ht, (scanned_scanFrom h).subset⟩⟩

theorem proper_loads {t : Text} (h : loads fmt t = .ok v) : Proper fmt.limits v := by
  have hany : Alphabet (fun _ => True) (fun _ => True) := ⟨fun _ _ _ _ h => ⟨trivial, (scanned_scanFrom h).subset⟩⟩
  exact (every_loads hany (fun _ _ => trivial) h).1

end Proper

section Limited

variable {F α β : Type} (fmt : Runtime F)

/-- How a reading ends, and how it ends with more room: in the same way, unless there was too little of it. -/
def Limited (r r' : Except LoadError α) : Prop := r = r' ∨ r = .error .valueError ∨ r = .error .recursionError

theorem Limited.bind {r r' : Except LoadError α} {f f' : α → Except LoadError β} (h : Limited r r')
    (hf : ∀ a, Limited (f a) (f' a)) : Limited (r >>= f) (r' >>= f') := by
  rcases h with rfl | rfl | rfl
  · cases r with
    | error e => exact .inl rfl
    | ok a => exact hf a
  · exact .inr (.inl rfl)
  · exact .inr (.inr rfl)

theorem Limited.map {r r' : Except LoadError α} (h : Limited r r') (f : α → β) : Limited (r.map f) (r'.map f) := by
  rcases h with rfl | rfl | rfl
  · exact .inl rfl
  · exact .inr (.inl rfl)
  · exact .inr (.inr rfl)

structure Limits.Below (limits limits' : Limits) : Prop where
  digits : limits.digits ≤ limits'.digits
  depth : limits.depth ≤ limits'.depth

variable {limits limits' : Limits}

theorem Limits.Below.deeper (h : limits.Below limits') : limits.deeper.Below limits'.deeper :=
  ⟨h.digits, Nat.sub_le_sub_right h.depth 1⟩

variable {fmt} in
theorem parseAtom_limited (h : limits.Below limits') (t : Text) : Limited (parseAtom fmt limits t) (parseAtom fmt limits' t) := by
  rw [parseAtom, parseAtom]
  split
  · exact .inl rfl
  · split
    next k rest _ =>
      refine Limited.map ?_ _
      rw [numberOf, numberOf]
      split
      · by_cases hlength : limits.digits < k.whole.length
        · rw [if_pos hlength]
          exact .inr (.inl rfl)
        · rw [if_neg hlength, if_neg (fun hlonger => hlength (Nat.lt_of_le_of_lt h.digits hlonger))]
          exact .inl rfl
      · exact .inl rfl
    · exact .inl rfl

structure LimitedBy (fuel : Nat) : Prop where
  value : ∀ limits limits' t, limits.Below limits' → Limited (parseValue fmt limits fuel t) (parseValue fmt limits' fuel t)
  items : ∀ limits limits' t, limits.Below limits' → Limited (parseItems fmt limits fuel t) (parseItems fmt limits' fuel t)
  fields : ∀ limits limits' t, limits.Below limits' → Limited (parseFields fmt limits fuel t) (parseFields fmt limits' fuel t)

variable {fmt}

theorem bracket_limited (h : limits.Below limits') {r r' : Except LoadError α} (hr : Limited r r') :
    Limited (if limits.depth = 0 then .error .recursionError else r)
      (if limits'.depth = 0 then .error .recursionError else r') := by
  by_cases hdepth : limits.depth = 0
  · rw [if_pos hdepth]
    exact .inr (.inr rfl)
  · have hdepth' : limits'.depth ≠ 0 := by
      have hle := h.depth
      omega
    rw [if_neg hdepth, if_neg hdepth']
    exact hr

theorem LimitedBy.succ_value {fuel : Nat} (ih : LimitedBy fmt fuel) (limits limits' : Limits) (t : Text)
    (h : limits.Below limits') : Limited (parseValue fmt limits (fuel + 1) t) (parseValue fmt limits' (fuel + 1) t) := by
  cases t with
  | nil => exact .inl rfl
  | cons c t =>
    rw [parseValue, parseValue]
    split
    · exact .inl rfl
    · split
      · refine bracket_limited h ?_
        split
        · exact .inl rfl
        · split
          · exact .inl rfl
          · exact (ih.items _ _ _ h.deeper).map _
      · split
        · refine bracket_limited h ?_
          split
          · exact .inl rfl
          · split
            · exact .inl rfl
            · exact (ih.fields _ _ _ h.deeper).map _
        · exact parseAtom_limited h _

theorem LimitedBy.succ_items {fuel : Nat} (ih : LimitedBy fmt fuel) (limits limits' : Limits) (t : Text)
    (h : limits.Below limits') : Limited (parseItems fmt limits (fuel + 1) t) (parseItems fmt limits' (fuel + 1) t) := by
  rw [parseItems, parseItems]
  refine (ih.value _ _ _ h).bind (fun item => Limited.bind (.inl rfl) (fun separated => ?_))
  dsimp only
  split
  · exact .inl rfl
  · exact (ih.items _ _ _ h).bind (fun _ => .inl rfl)

theorem LimitedBy.succ_fields {fuel : Nat} (ih : LimitedBy fmt fuel) (limits limits' : Limits) (t : Text)
    (h : limits.Below limits') : Limited (parseFields fmt limits (fuel + 1) t) (parseFields fmt limits' (fuel + 1) t) := by
  rw [parseFields, parseFields]
  refine Limited.bind (.inl rfl) (fun key => Limited.bind (.inl rfl) (fun t => ?_))
  refine (ih.value _ _ _ h).bind (fun value => Limited.bind (.inl rfl) (fun separated => ?_))
  dsimp only
  split
  · exact .inl rfl
  · exact (ih.fields _ _ _ h).bind (fun _ => .inl rfl)

variable (fmt) in
theorem limitedBy (fuel : Nat) : LimitedBy fmt fuel := by
  induction fuel with
  | zero => exact ⟨fun _ _ _ _ => .inl rfl, fun _ _ _ _ => .inl rfl, fun _ _ _ _ => .inl rfl⟩
  | succ fuel ih => exact ⟨ih.succ_value, ih.succ_items, ih.succ_fields⟩

theorem loadsWithin_limited (h : limits.Below limits') (t : Text) :
    Limited (loadsWithin fmt limits t) (loadsWithin fmt limits' t) :=
  ((limitedBy fmt _).value _ _ _ h).bind (fun _ => .inl rfl)

theorem loads_limited {t : Text} {v : Value F} (h : loadsWithin fmt limits t = .ok v) : Limited (loads fmt t) (.ok v) := by
  let room : Limits := ⟨max limits.digits fmt.limits.digits, max limits.depth fmt.limits.depth⟩
  have hroom : loadsWithin fmt limits t = loadsWithin fmt room t := by
    have hbelow : limits.Below room := ⟨le_max_left _ _, le_max_left _ _⟩
    rcases loadsWithin_limited hbelow t with heq | herror | herror
    · exact heq
    · rw [h] at herror
      cases herror
    · rw [h] at herror
      cases herror
  rw [← h, hroom]
  exact loadsWithin_limited ⟨le_max_right _ _, le_max_right _ _⟩ t

theorem loads_dumps_beyond {v : Value F} (hv : Proper limits v) (hbeyond : ¬Proper fmt.limits v) :
    loads fmt (dumps compact fmt.floatstr v) = .error .valueError ∨
      loads fmt (dumps compact fmt.floatstr v) = .error .recursionError := by
  have hread := loadsWithin_dumps fmt hv (List.forall_mem_nil (fun c => isSpace c = true))
  rw [List.append_nil] at hread
  exact (loads_limited hread).resolve_left (fun hok => hbeyond (proper_loads hok))

end Limited

end ProductionStack.JsonText
