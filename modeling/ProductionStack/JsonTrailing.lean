import ProductionStack.JsonCanonical

/-! What is read from a text is read from a longer one too, with the rest of the text after it. -/

namespace ProductionStack.JsonText

section Scanning

theorem scanFrom_append {mode : Mode} {pending : Option Nat} {t s rest : Text} (h : scanFrom mode pending t = some (s, rest))
    (x : Text) : scanFrom mode pending (t ++ x) = some (s, rest ++ x) := by
  induction t generalizing mode pending s with
  | nil => cases mode <;> cases h
  | cons c t ih =>
    cases mode with
    | plain =>
      rw [List.cons_append, scanFrom]
      rw [scanFrom] at h
      split at h
      next hquote =>
        cases h
        rw [if_pos hquote]
      next hquote =>
        rw [if_neg hquote]
        split at h
        next hslash =>
          rw [if_pos hslash]
          exact ih h
        next hslash =>
          rw [if_neg hslash]
          split at h
          · cases h
          next hcontrol =>
            rw [if_neg hcontrol]
            obtain ⟨s', hs', rfl⟩ := push_eq_some.mp h
            exact push_eq_some.mpr ⟨s', ih hs', rfl⟩
    | escaped =>
      rw [List.cons_append, scanFrom]
      rw [scanFrom] at h
      split at h
      next hunicode =>
        rw [if_pos hunicode]
        exact ih h
      next hunicode =>
        rw [if_neg hunicode]
        split at h
        next e he =>
          obtain ⟨s', hs', rfl⟩ := push_eq_some.mp h
          exact push_eq_some.mpr ⟨s', ih hs', rfl⟩
        · cases h
    | hex digits value =>
      rw [List.cons_append, scanFrom]
      rw [scanFrom] at h
      split at h
      · cases h
      next d hd =>
        split at h
        next hdigits =>
          rw [if_pos hdigits]
          obtain ⟨s', hs', rfl⟩ := push_eq_some.mp h
          exact push_eq_some.mpr ⟨s', ih hs', rfl⟩
        next hdigits =>
          rw [if_neg hdigits]
          exact ih h

theorem scanSign_split (signs t : Text) :
    t = (scanSign signs t).1 ++ (scanSign signs t).2 ∧
      ((scanSign signs t).1 = [] ∨ ∃ c ∈ signs, (scanSign signs t).1 = [c]) := by
  cases t with
  | nil => exact ⟨rfl, .inl rfl⟩
  | cons c t =>
    rw [scanSign]
    split
    next hc => exact ⟨rfl, .inr ⟨c, by simpa using hc, rfl⟩⟩
    · exact ⟨rfl, .inl rfl⟩

theorem scanWhole_eq {t whole rest : Text} (h : scanWhole t = some (whole, rest)) :
    t = whole ++ rest ∧ (whole = ['0'.toNat] ∨
      ∃ d ds, whole = d :: ds ∧ isDigit d = true ∧ d ≠ '0'.toNat ∧ ∀ c ∈ ds, isDigit c = true) := by
  cases t with
  | nil => cases h
  | cons c t =>
    rw [scanWhole] at h
    split at h
    next hzero =>
      cases h
      exact ⟨rfl, .inl (by rw [hzero])⟩
    next hzero =>
      split at h
      next hdigit =>
        cases h
        refine ⟨by simp, .inr ⟨c, _, rfl, hdigit, hzero, fun d hd => List.mem_takeWhile_imp hd⟩⟩
      · cases h

theorem scanFraction_split (t : Text) :
    t = (scanFraction t).1 ++ (scanFraction t).2 ∧ ((scanFraction t).1 = [] ∨
      ∃ ds, (scanFraction t).1 = '.'.toNat :: ds ∧ ds ≠ [] ∧ ∀ c ∈ ds, isDigit c = true) := by
  cases t with
  | nil => exact ⟨rfl, .inl rfl⟩
  | cons c t =>
    rw [scanFraction]
    split
    next hpoint => exact ⟨by simp, .inr ⟨_, by rw [hpoint.1], hpoint.2, fun d hd => List.mem_takeWhile_imp hd⟩⟩
    · exact ⟨rfl, .inl rfl⟩

theorem scanExponent_split (t : Text) :
    t = (scanExponent t).1 ++ (scanExponent t).2 ∧ ((scanExponent t).1 = [] ∨
      ∃ e sign ds, (scanExponent t).1 = e :: (sign ++ ds) ∧ (e = 'e'.toNat ∨ e = 'E'.toNat) ∧
        (sign = [] ∨ sign = ['+'.toNat] ∨ sign = ['-'.toNat]) ∧ ds ≠ [] ∧ ∀ c ∈ ds, isDigit c = true) := by
  cases t with
  | nil => exact ⟨rfl, .inl rfl⟩
  | cons c t =>
    obtain ⟨hsplit, hsign⟩ := scanSign_split (text "+-") t
    rw [scanExponent]
    split
    next hexponent =>
      refine ⟨?_, .inr ⟨c, _, _, rfl, hexponent.1, ?_, hexponent.2, fun d hd => List.mem_takeWhile_imp hd⟩⟩
      · rw [List.cons_append, List.append_assoc, List.takeWhile_append_dropWhile, ← hsplit]
      · refine hsign.imp_right ?_
        rintro ⟨d, hd, heq⟩
        rw [heq]
        simpa [text] using hd
    · exact ⟨rfl, .inl rfl⟩

theorem scanNumber_eq {t rest : Text} {k : Token} (h : scanNumber t = some (k, rest)) :
    t = k.text ++ rest ∧ k.WellFormed := by
  simp only [scanNumber, Option.bind_eq_bind, Option.bind_eq_some_iff] at h
  obtain ⟨⟨whole, t₁⟩, hwhole, hk⟩ := h
  cases hk
  obtain ⟨hsign, hminus⟩ := scanSign_split (text "-") t
  obtain ⟨hrest, hdigits⟩ := scanWhole_eq hwhole
  obtain ⟨hrest₁, hfraction⟩ := scanFraction_split t₁
  obtain ⟨hrest₂, hexponent⟩ := scanExponent_split (scanFraction t₁).2
  refine ⟨?_, ⟨?_, hdigits, hfraction, hexponent⟩⟩
  · rw [Token.text, List.append_assoc, List.append_assoc, List.append_assoc]
    dsimp only
    rw [← hrest₂, ← hrest₁, ← hrest, ← hsign]
  · refine hminus.imp_right ?_
    rintro ⟨c, hc, heq⟩
    rw [heq]
    simpa [text] using hc

end Scanning

section Parsing

variable {F : Type} {fmt : Runtime F} {limits : Limits}

variable {t rest : Text} {fuel : Nat}

theorem scanLiterals_eq {literals : Fields F} {v : Value F}
    (h : scanLiterals literals t = some (v, rest)) : ∃ name, (name, v) ∈ literals ∧ t = name ++ rest := by
  obtain ⟨⟨name, w⟩, hl, hfound⟩ := List.exists_of_findSome?_eq_some h
  obtain ⟨r, hr, heq⟩ := Option.map_eq_some_iff.mp hfound
  cases heq
  rw [scanLiteral] at hr
  split at hr
  next hinitial =>
    cases hr
    obtain ⟨u, rfl⟩ := List.isPrefixOf_iff_prefix.mp hinitial
    exact ⟨name, hl, by simp⟩
  · cases hr

theorem parseAtom_append {c : Nat} {v : Value F} (h : parseAtom fmt limits (c :: t) = .ok (v, rest)) {x : Text}
    (hx : Stops inNumber (rest ++ x)) (fuel : Nat) : parseValue fmt limits (fuel + 1) (c :: t ++ x) = .ok (v, rest ++ x) := by
  rw [parseAtom] at h
  split at h
  next hkeyword =>
    cases h
    obtain ⟨name, hname, htext⟩ := scanLiterals_eq hkeyword
    rw [htext, List.append_assoc]
    simp only [keywords, List.mem_cons, Prod.mk.injEq, List.not_mem_nil, or_false] at hname
    rcases hname with ⟨rfl, rfl⟩ | ⟨rfl, rfl⟩ | ⟨rfl, rfl⟩ <;> rfl
  · split at h
    next k r hnumber =>
      obtain ⟨w, hw, heq⟩ := map_eq_ok.mp h
      cases heq
      obtain ⟨htext, hk⟩ := scanNumber_eq hnumber
      rw [htext, List.append_assoc]
      exact parseValue_number fmt hk hw hx fuel
    · split at h
      next hconstant =>
        cases h
        obtain ⟨name, hname, htext⟩ := scanLiterals_eq hconstant
        rw [htext, List.append_assoc]
        simp only [constants, List.mem_cons, Prod.mk.injEq, List.not_mem_nil, or_false] at hname
        rcases hname with ⟨rfl, rfl⟩ | ⟨rfl, rfl⟩ | ⟨rfl, rfl⟩ <;> rfl
      · cases h

theorem skip_append {t : Text} (h : skip t ≠ []) (x : Text) : skip (t ++ x) = skip t ++ x := by
  induction t with
  | nil => exact absurd rfl h
  | cons c t ih =>
    cases hc : isSpace c with
    | true =>
      have hdrop : ∀ u, skip (c :: u) = skip u := fun u => by rw [skip, List.dropWhile_cons, hc]; rfl
      rw [hdrop] at h ⊢
      rw [List.cons_append, hdrop, ih h]
    | false => rw [List.cons_append, skip_of_opens hc, skip_of_opens hc, List.cons_append]

theorem expect_append {c : Nat} (h : expect c t = .ok rest) (x : Text) : expect c (t ++ x) = .ok (rest ++ x) := by
  cases t with
  | nil => cases h
  | cons d t =>
    rw [expect] at h
    split at h
    next hd =>
      cases h
      rw [List.cons_append, expect, if_pos hd]
    · cases h

theorem parseString_append {t s rest : Text} (h : parseString t = .ok (s, rest)) (x : Text) :
    parseString (t ++ x) = .ok (s, rest ++ x) := by
  obtain ⟨u, hu, h⟩ := bind_eq_ok.mp h
  refine bind_eq_ok.mpr ⟨_, expect_append hu x, ?_⟩
  split at h
  next found hscan =>
    cases h
    have hmore : scanString (u ++ x) = some (s, rest ++ x) := scanFrom_append hscan x
    rw [hmore]
    rfl
  · cases h

theorem separator_append {close : Nat} {closed : Bool} (h : separator close t = .ok (closed, rest))
    (hrest : closed = true ∨ rest ≠ []) (x : Text) : separator close (t ++ x) = .ok (closed, rest ++ x) := by
  rw [separator] at h ⊢
  split at h
  · cases h
  next d u hskip =>
    have hne : skip t ≠ [] := by simp [hskip]
    rw [skip_append hne, hskip]
    dsimp only [List.cons_append]
    split at h
    next hclose =>
      cases h
      rw [if_pos hclose]
    next hclose =>
      rw [if_neg hclose]
      obtain ⟨w, hw, heq⟩ := map_eq_ok.mp h
      cases heq
      have hmore := expect_append hw x
      rw [List.cons_append] at hmore
      rw [hmore, ← skip_append (hrest.resolve_left Bool.false_ne_true)]
      rfl

theorem inNumber_of_isSpace {c : Nat} (h : isSpace c = true) : inNumber c = false := by
  simp [isSpace, inNumber, isDigit] at h ⊢
  omega

theorem stops_of_skip {t : Text} (h : Stops inNumber (skip t)) : Stops inNumber t := by
  cases t with
  | nil => exact h
  | cons c t =>
    cases hc : isSpace c with
    | true => exact stops_cons (inNumber_of_isSpace hc) t
    | false => rwa [skip_of_opens hc] at h

theorem separator_stops {close : Nat} (hclose : inNumber close = false) {closed : Bool}
    (h : separator close t = .ok (closed, rest)) (x : Text) : Stops inNumber (t ++ x) := by
  rw [separator] at h
  split at h
  · cases h
  next d u hskip =>
    have hd : inNumber d = false := by
      split at h
      next heq => rwa [heq]
      · obtain ⟨w, hw, -⟩ := map_eq_ok.mp h
        rw [expect] at hw
        split at hw
        next hcomma =>
          rw [hcomma]
          rfl
        · cases hw
    refine stops_of_skip ?_
    rw [skip_append (by simp [hskip]), hskip]
    exact stops_cons hd _

variable (fmt) in
/-- What is read with some fuel is read with more, before any text; a value must not be a number that goes on. -/
structure Extends (fuel : Nat) : Prop where
  value : ∀ limits fuel' t v rest x, fuel ≤ fuel' → parseValue fmt limits fuel t = .ok (v, rest) → Stops inNumber (rest ++ x) →
    parseValue fmt limits fuel' (t ++ x) = .ok (v, rest ++ x)
  items : ∀ limits fuel' t items rest x, fuel ≤ fuel' → parseItems fmt limits fuel t = .ok (items, rest) →
    parseItems fmt limits fuel' (t ++ x) = .ok (items, rest ++ x)
  fields : ∀ limits fuel' t fields rest x, fuel ≤ fuel' → parseFields fmt limits fuel t = .ok (fields, rest) →
    parseFields fmt limits fuel' (t ++ x) = .ok (fields, rest ++ x)

theorem parseValue_ne_nil {t : Text} {r : Value F × Text} (h : parseValue fmt limits fuel t = .ok r) : t ≠ [] := by
  rintro rfl
  cases fuel <;> cases h

theorem parseItems_ne_nil {t : Text} {r : List (Value F) × Text} (h : parseItems fmt limits fuel t = .ok r) : t ≠ [] := by
  cases fuel with
  | zero => cases h
  | succ fuel =>
    obtain ⟨_, hitem, -⟩ := bind_eq_ok.mp h
    exact parseValue_ne_nil hitem

theorem expect_ne_nil {c : Nat} (h : expect c t = .ok rest) : t ≠ [] := by
  rintro rfl
  cases h

theorem parseFields_ne_nil {t : Text} {r : Fields F × Text} (h : parseFields fmt limits fuel t = .ok r) : t ≠ [] := by
  cases fuel with
  | zero => cases h
  | succ fuel =>
    obtain ⟨_, hkey, -⟩ := bind_eq_ok.mp h
    obtain ⟨_, hquote, -⟩ := bind_eq_ok.mp hkey
    exact expect_ne_nil hquote

theorem Extends.succ_value (ih : Extends fmt fuel) (limits : Limits) (fuel' : Nat) (t : Text) (v : Value F) (rest x : Text)
    (hfuel : fuel + 1 ≤ fuel') (h : parseValue fmt limits (fuel + 1) t = .ok (v, rest)) (hx : Stops inNumber (rest ++ x)) :
    parseValue fmt limits fuel' (t ++ x) = .ok (v, rest ++ x) := by
  obtain ⟨fuel', rfl⟩ : ∃ n, fuel' = n + 1 := ⟨fuel' - 1, by omega⟩
  have hle : fuel ≤ fuel' := by omega
  cases t with
  | nil => cases h
  | cons c t =>
    rw [parseValue] at h
    split at h
    next hquote =>
      obtain ⟨r, hr, heq⟩ := map_eq_ok.mp h
      cases heq
      rw [List.cons_append, parseValue, if_pos hquote, ← List.cons_append, parseString_append hr x]
      rfl
    next hquote =>
      split at h
      next hbracket =>
        split at h
        · cases h
        next hdepth =>
          split at h
          · cases h
          next d u hskip =>
            rw [List.cons_append, parseValue, if_neg hquote, if_pos hbracket, if_neg hdepth,
              skip_append (by simp [hskip]), hskip, List.cons_append]
            dsimp only
            split at h
            next hclose =>
              cases h
              rw [if_pos hclose]
            next hclose =>
              obtain ⟨r, hr, heq⟩ := map_eq_ok.mp h
              cases heq
              rw [if_neg hclose, ← List.cons_append, ih.items _ fuel' _ _ _ x hle hr]
              rfl
      next hbracket =>
        split at h
        next hbrace =>
          split at h
          · cases h
          next hdepth =>
            split at h
            · cases h
            next d u hskip =>
              rw [List.cons_append, parseValue, if_neg hquote, if_neg hbracket, if_pos hbrace, if_neg hdepth,
                skip_append (by simp [hskip]), hskip, List.cons_append]
              dsimp only
              split at h
              next hclose =>
                cases h
                rw [if_pos hclose]
              next hclose =>
                obtain ⟨r, hr, heq⟩ := map_eq_ok.mp h
                cases heq
                rw [if_neg hclose, ← List.cons_append, ih.fields _ fuel' _ _ _ x hle hr]
                rfl
        · exact parseAtom_append h hx fuel'

theorem Extends.succ_items (ih : Extends fmt fuel) (limits : Limits) (fuel' : Nat) (t : Text) (items : List (Value F))
    (rest x : Text) (hfuel : fuel + 1 ≤ fuel') (h : parseItems fmt limits (fuel + 1) t = .ok (items, rest)) :
    parseItems fmt limits fuel' (t ++ x) = .ok (items, rest ++ x) := by
  obtain ⟨fuel', rfl⟩ : ∃ n, fuel' = n + 1 := ⟨fuel' - 1, by omega⟩
  have hle : fuel ≤ fuel' := by omega
  rw [parseItems] at h
  obtain ⟨⟨item, t₁⟩, hitem, h⟩ := bind_eq_ok.mp h
  obtain ⟨⟨closed, t₂⟩, hclosed, h⟩ := bind_eq_ok.mp h
  rw [parseItems]
  refine bind_eq_ok.mpr ⟨_, ih.value _ fuel' _ _ _ x hle hitem (separator_stops rfl hclosed x), ?_⟩
  dsimp only at h
  split at h
  next hclose =>
    cases h
    refine bind_eq_ok.mpr ⟨_, separator_append hclosed (.inl hclose) x, ?_⟩
    rw [hclose]
    rfl
  next hclose =>
    obtain ⟨⟨items', t₃⟩, hitems, h⟩ := bind_eq_ok.mp h
    cases h
    refine bind_eq_ok.mpr ⟨_, separator_append hclosed (.inr (parseItems_ne_nil hitems)) x, ?_⟩
    dsimp only
    rw [if_neg hclose]
    exact bind_eq_ok.mpr ⟨_, ih.items _ fuel' _ _ _ x hle hitems, rfl⟩

theorem Extends.succ_fields (ih : Extends fmt fuel) (limits : Limits) (fuel' : Nat) (t : Text) (fields : Fields F)
    (rest x : Text) (hfuel : fuel + 1 ≤ fuel') (h : parseFields fmt limits (fuel + 1) t = .ok (fields, rest)) :
    parseFields fmt limits fuel' (t ++ x) = .ok (fields, rest ++ x) := by
  obtain ⟨fuel', rfl⟩ : ∃ n, fuel' = n + 1 := ⟨fuel' - 1, by omega⟩
  have hle : fuel ≤ fuel' := by omega
  rw [parseFields] at h
  obtain ⟨⟨key, t₁⟩, hkey, h⟩ := bind_eq_ok.mp h
  obtain ⟨t₂, hcolon, h⟩ := bind_eq_ok.mp h
  obtain ⟨⟨value, t₃⟩, hvalue, h⟩ := bind_eq_ok.mp h
  obtain ⟨⟨closed, t₄⟩, hclosed, h⟩ := bind_eq_ok.mp h
  have hcolon' := expect_append hcolon x
  rw [← skip_append (expect_ne_nil hcolon)] at hcolon'
  have hvalue' := ih.value _ fuel' _ _ _ x hle hvalue (separator_stops rfl hclosed x)
  rw [← skip_append (parseValue_ne_nil hvalue)] at hvalue'
  rw [parseFields]
  refine bind_eq_ok.mpr ⟨_, parseString_append hkey x, bind_eq_ok.mpr ⟨_, hcolon', bind_eq_ok.mpr ⟨_, hvalue', ?_⟩⟩⟩
  dsimp only at h
  split at h
  next hclose =>
    cases h
    refine bind_eq_ok.mpr ⟨_, separator_append hclosed (.inl hclose) x, ?_⟩
    rw [hclose]
    rfl
  next hclose =>
    obtain ⟨⟨fields', t₅⟩, hfields, h⟩ := bind_eq_ok.mp h
    cases h
    refine bind_eq_ok.mpr ⟨_, separator_append hclosed (.inr (parseFields_ne_nil hfields)) x, ?_⟩
    dsimp only
    rw [if_neg hclose]
    exact bind_eq_ok.mpr ⟨_, ih.fields _ fuel' _ _ _ x hle hfields, rfl⟩

variable (fmt) in
theorem extends_all (fuel : Nat) : Extends fmt fuel := by
  induction fuel with
  | zero =>
    refine ⟨?_, ?_, ?_⟩
    · rintro limits fuel' t v rest x - h
      cases h
    · rintro limits fuel' t items rest x - h
      cases h
    · rintro limits fuel' t fields rest x - h
      cases h
  | succ fuel ih => exact ⟨ih.succ_value, ih.succ_items, ih.succ_fields⟩

/-- A document with more text after it is none. -/
theorem loads_trailing {t : Text} {v : Value F} (h : loads fmt t = .ok v) {c : Nat} (hspace : isSpace c = false)
    (hnumber : inNumber c = false) (x : Text) : loads fmt (t ++ c :: x) = .error .jsonDecodeError := by
  obtain ⟨⟨w, rest⟩, hw, h⟩ := bind_eq_ok.mp h
  dsimp only at h
  split at h
  next hrest =>
    have hspaces : ∀ d ∈ rest, isSpace d = true := by simpa [skip, List.dropWhile_eq_nil_iff] using hrest
    have hskip : skip (rest ++ c :: x) = c :: x := by rw [skip_spaces hspaces, skip_of_opens hspace]
    have hstops : Stops inNumber (rest ++ c :: x) := by
      refine stops_of_skip ?_
      rw [hskip]
      exact stops_cons hnumber x
    have hfuel : 2 * (skip t).length + 1 ≤ 2 * (skip t ++ c :: x).length + 1 := by
      rw [List.length_append]
      omega
    have hread := (extends_all fmt _).value _ _ _ _ _ _ hfuel hw hstops
    rw [loads, loadsWithin, skip_append (parseValue_ne_nil hw), hread]
    show (if skip (rest ++ c :: x) = [] then _ else _) = _
    rw [hskip]
    rfl
  · cases h

theorem loads_spaces {spaces : Text} (h : ∀ c ∈ spaces, isSpace c = true) (t : Text) :
    loads fmt (spaces ++ t) = loads fmt t := by
  rw [loads, loads, loadsWithin, loadsWithin, skip_spaces h]

theorem loads_of_not_opens {c : Nat} (hspace : isSpace c = false) (hopens : opens c = false) (t : Text) :
    loads fmt (c :: t) = .error .jsonDecodeError := by
  simp [opens, text] at hopens
  have hnone : ∀ literals : Fields F, (∀ l ∈ literals, ∃ d ds, l.1 = d :: ds ∧ d ≠ c) →
      scanLiterals literals (c :: t) = none := by
    intro literals hall
    refine List.findSome?_eq_none_iff.mpr (fun l hl => ?_)
    obtain ⟨d, ds, hname, hne⟩ := hall l hl
    rw [hname, scanLiteral_of_ne hne]
    rfl
  have hkeywords : scanLiterals (keywords : Fields F) (c :: t) = none := by
    refine hnone _ ?_
    simp [keywords, text]
    omega
  have hconstants : scanLiterals (constants fmt) (c :: t) = none := by
    refine hnone _ ?_
    simp [constants, text]
    omega
  have hnumber : scanNumber (c :: t) = none := by
    have hdigit : isDigit c = false := hopens.1
    have hzero : c ≠ '0'.toNat := by
      rintro rfl
      cases hdigit
    have hsign : scanSign (text "-") (c :: t) = ([], c :: t) := by
      simp [scanSign, text]
      omega
    have hwhole : scanWhole (c :: t) = none := by
      rw [scanWhole, if_neg hzero, hdigit]
      rfl
    simp [scanNumber, hsign, hwhole]
  have hparse : parseValue fmt fmt.limits (2 * (c :: t).length + 1) (c :: t) = .error .jsonDecodeError := by
    rw [parseValue, if_neg, if_neg, if_neg, parseAtom, hkeywords, hnumber, hconstants]
    all_goals
      simp
      omega
  rw [loads, loadsWithin, skip_of_opens hspace, hparse]
  rfl

end Parsing

end ProductionStack.JsonText
