import Mathlib.Data.List.TakeWhile
import ProductionStack.Basic
import ProductionStack.JsonLoads

namespace ProductionStack.JsonText

section Strings

theorem hexValue_hexDigit : ∀ n < 16, hexValue (hexDigit n) = some n := by decide

theorem scanFrom_plain {c : Nat} (hquote : c ≠ '"'.toNat) (hslash : c ≠ '\\'.toNat) (hcontrol : ¬ c < 32)
    (pending : Option Nat) (t : Text) :
    scanFrom .plain pending (c :: t) = push (pending.toList ++ [c]) (scanFrom .plain none t) := by
  rw [scanFrom, if_neg hquote, if_neg hslash, if_neg hcontrol]

theorem scanFrom_backslash (pending : Option Nat) (t : Text) :
    scanFrom .plain pending ('\\'.toNat :: t) = scanFrom .escaped pending t := rfl

theorem scanFrom_short {c e : Nat} (h : shortEscapes.lookup c = some e) (pending : Option Nat) (t : Text) :
    scanFrom .plain pending ('\\'.toNat :: e :: t) = push (pending.toList ++ [c]) (scanFrom .plain none t) := by
  have hall : ∀ entry ∈ shortEscapes, entry.2 ≠ 'u'.toNat ∧ backslashes.lookup entry.2 = some entry.1 := by decide
  obtain ⟨l, r, hsplit, _⟩ := List.lookup_eq_some_iff.mp h
  obtain ⟨hu, hback⟩ := hall (c, e) (by simp [hsplit])
  rw [scanFrom_backslash, scanFrom, if_neg hu, hback]

theorem scanFrom_hex {n : Nat} (hn : n < 16) (digits value : Nat) (hdigits : digits ≠ 3) (pending : Option Nat) (t : Text) :
    scanFrom (.hex digits value) pending (hexDigit n :: t) =
      scanFrom (.hex (digits + 1) (value * 16 + n)) pending t := by
  rw [scanFrom, hexValue_hexDigit n hn]
  exact if_neg hdigits

theorem scanFrom_unicode {n : Nat} (h : n < 0x10000) (pending : Option Nat) (t : Text) :
    scanFrom .plain pending (unicodeEscape n ++ t) = push (unit pending n).1 (scanFrom .plain (unit pending n).2 t) := by
  have hmod : ∀ m : Nat, m % 16 < 16 := fun m => Nat.mod_lt m (by decide)
  have hvalue : (((0 * 16 + n / 4096 % 16) * 16 + n / 256 % 16) * 16 + n / 16 % 16) * 16 + n % 16 = n := by omega
  have hstart : scanFrom .plain pending (unicodeEscape n ++ t) = scanFrom (.hex 0 0) pending
      (hexDigit (n / 4096 % 16) :: hexDigit (n / 256 % 16) :: hexDigit (n / 16 % 16) :: hexDigit (n % 16) :: t) := rfl
  rw [hstart, scanFrom_hex (hmod _) 0 0 (by decide), scanFrom_hex (hmod _) 1 _ (by decide),
    scanFrom_hex (hmod _) 2 _ (by decide), scanFrom, hexValue_hexDigit _ (hmod n)]
  dsimp only
  rw [if_pos rfl, hvalue]

theorem unit_of_lt {n : Nat} (h : n < 0xD800) : unit none n = ([n], none) := by
  have hhigh : isHigh n = false := by
    simp only [isHigh, Bool.and_eq_false_iff, decide_eq_false_iff_not]
    omega
  rw [unit, hhigh]
  rfl

theorem ne_of_lookup_eq_none {c : Nat} (h : shortEscapes.lookup c = none) : c ≠ '"'.toNat ∧ c ≠ '\\'.toNat := by
  have hne : ∀ entry ∈ shortEscapes, c ≠ entry.1 := by
    intro entry hentry
    simpa using List.lookup_eq_none_iff.mp h entry hentry
  exact ⟨hne ('"'.toNat, '"'.toNat) (by decide), hne ('\\'.toNat, '\\'.toNat) (by decide)⟩

theorem scanFrom_escapeCode (c : Nat) (t : Text) :
    scanFrom .plain none (escapeCode false c ++ t) = push [c] (scanFrom .plain none t) := by
  rw [escapeCode]
  cases hlookup : shortEscapes.lookup c with
  | some e => exact scanFrom_short hlookup none t
  | none =>
    dsimp only
    by_cases hcontrol : c < 32
    · rw [if_pos (.inl hcontrol), if_pos (by omega), scanFrom_unicode (by omega), unit_of_lt (by omega)]
    · rw [if_neg (by simpa using hcontrol)]
      obtain ⟨hquote, hslash⟩ := ne_of_lookup_eq_none hlookup
      exact scanFrom_plain hquote hslash hcontrol none t

theorem scanString_escape (s rest : Text) : scanString (escape false s ++ '"'.toNat :: rest) = some (s, rest) := by
  rw [scanString]
  induction s with
  | nil => rfl
  | cons c s ih =>
    rw [escape, List.flatMap_cons, List.append_assoc, scanFrom_escapeCode]
    exact congrArg (push [c]) ih

end Strings

section Pairs

/-- A high surrogate and a low one right after it are read as one character. -/
def pairUp : Text → Text
  | [] => []
  | [c] => [c]
  | a :: b :: s =>
    if isHigh a && isLow b then (0x10000 + (a - 0xD800) * 1024 + (b - 0xDC00)) :: pairUp s else a :: pairUp (b :: s)

theorem isLow_of_isHigh {c : Nat} (h : isHigh c = true) : isLow c = false := by
  simp only [isHigh, isLow, Bool.and_eq_true, decide_eq_true_eq, Bool.and_eq_false_iff, decide_eq_false_iff_not] at h ⊢
  omega

theorem pairUp_cons {c : Nat} (h : isHigh c = false) (s : Text) : pairUp (c :: s) = c :: pairUp s := by
  cases s with
  | nil => rfl
  | cons b s => rw [pairUp, h, Bool.false_and, if_neg Bool.false_ne_true]

theorem pairUp_cons_cons {a b : Nat} (h : isLow b = false) (s : Text) : pairUp (a :: b :: s) = a :: pairUp (b :: s) := by
  rw [pairUp, h, Bool.and_false, if_neg Bool.false_ne_true]

theorem pairUp_pending {c : Nat} (hhigh : isHigh c = false) (hlow : isLow c = false) (pending : Option Nat) (s : Text) :
    pairUp (pending.toList ++ c :: s) = pending.toList ++ c :: pairUp s := by
  cases pending with
  | none => exact pairUp_cons hhigh s
  | some high => exact (pairUp_cons_cons hlow s).trans (congrArg (high :: ·) (pairUp_cons hhigh s))

theorem pairUp_unit {pending : Option Nat} (hpending : ∀ high ∈ pending, isHigh high = true) (n : Nat) (s : Text) :
    (unit pending n).1 ++ pairUp ((unit pending n).2.toList ++ s) = pairUp (pending.toList ++ n :: s) ∧
      ∀ high ∈ (unit pending n).2, isHigh high = true := by
  cases pending with
  | none =>
    rw [unit]
    cases hhigh : isHigh n with
    | true => exact ⟨rfl, by rintro _ ⟨⟩; exact hhigh⟩
    | false => exact ⟨(pairUp_cons hhigh s).symm, nofun⟩
  | some high =>
    have hfirst := hpending high rfl
    rw [unit]
    cases hlow : isLow n with
    | true =>
      refine ⟨?_, nofun⟩
      change _ = pairUp (high :: n :: s)
      rw [pairUp, hfirst, hlow]
      rfl
    | false =>
      cases hhigh : isHigh n with
      | true => exact ⟨(pairUp_cons_cons hlow s).symm, by rintro _ ⟨⟩; exact hhigh⟩
      | false => exact ⟨(pairUp_pending hhigh hlow (some high) s).symm, nofun⟩

theorem surrogates_of_lt {c : Nat} (h : c < 0xD800) : isHigh c = false ∧ isLow c = false := by
  simp only [isHigh, isLow, Bool.and_eq_false_iff, decide_eq_false_iff_not]
  omega

theorem unit_pair {c : Nat} (hc : 0x10000 ≤ c) (hmax : c < 0x110000) : let high := 0xD800 + (c - 0x10000) / 1024
    isHigh high = true ∧ isHigh c = false ∧ isLow c = false ∧
      unit (some high) (0xDC00 + (c - 0x10000) % 1024) = ([c], none) := by
  have hlow : isLow (0xDC00 + (c - 0x10000) % 1024) = true := by
    simp only [isLow, Bool.and_eq_true, decide_eq_true_eq]
    omega
  have hvalue : 0x10000 + (0xD800 + (c - 0x10000) / 1024 - 0xD800) * 1024 +
      (0xDC00 + (c - 0x10000) % 1024 - 0xDC00) = c := by omega
  refine ⟨?_, ?_, ?_, ?_⟩
  · simp only [isHigh, Bool.and_eq_true, decide_eq_true_eq]
    omega
  · simp only [isHigh, Bool.and_eq_false_iff, decide_eq_false_iff_not]
    omega
  · simp only [isLow, Bool.and_eq_false_iff, decide_eq_false_iff_not]
    omega
  · rw [unit, if_pos hlow, hvalue]

theorem noPending : ∀ high ∈ (none : Option Nat), isHigh high = true := nofun

theorem scanFrom_escape {s : Text} (hs : ∀ c ∈ s, c < 0x110000) (rest : Text) {pending : Option Nat}
    (hpending : ∀ high ∈ pending, isHigh high = true) :
    scanFrom .plain pending (escape true s ++ '"'.toNat :: rest) = some (pairUp (pending.toList ++ s), rest) := by
  induction s generalizing pending with
  | nil => cases pending <;> rfl
  | cons c s ih =>
    obtain ⟨hc, hs⟩ := List.forall_mem_cons.mp hs
    -- A character that is written as itself, or with one letter after the backslash.
    have hplain : c < 127 → push (pending.toList ++ [c]) (scanFrom .plain none (escape true s ++ '"'.toNat :: rest)) =
        some (pairUp (pending.toList ++ c :: s), rest) := by
      intro hc
      obtain ⟨hhigh, hlow⟩ := surrogates_of_lt (c := c) (by omega)
      rw [ih hs noPending, pairUp_pending hhigh hlow]
      simp [push]
    have hunit : ∀ (pending : Option Nat) (n : Nat), (∀ high ∈ pending, isHigh high = true) → n < 0x10000 →
        scanFrom .plain pending (unicodeEscape n ++ (escape true s ++ '"'.toNat :: rest)) =
          some (pairUp (pending.toList ++ n :: s), rest) := by
      intro pending n hpending hn
      obtain ⟨hpair, hnext⟩ := pairUp_unit hpending n s
      rw [scanFrom_unicode hn, ih hs hnext, ← hpair]
      rfl
    rw [escape, List.flatMap_cons, List.append_assoc, ← escape, escapeCode]
    cases hlookup : shortEscapes.lookup c with
    | some e =>
      have hall : ∀ entry ∈ shortEscapes, entry.1 < 127 := by decide
      obtain ⟨l, r, hsplit, _⟩ := List.lookup_eq_some_iff.mp hlookup
      exact (scanFrom_short hlookup pending _).trans (hplain (hall (c, e) (by simp [hsplit])))
    | none =>
      dsimp only
      split
      · split
        next hbasic => exact hunit pending c hpending hbasic
        next hbasic =>
          obtain ⟨hhigh, hchigh, hclow, hpair⟩ := unit_pair (by omega) hc
          have hfirst : ∀ t, scanFrom .plain pending (unicodeEscape (0xD800 + (c - 0x10000) / 1024) ++ t) =
              push pending.toList (scanFrom .plain (some (0xD800 + (c - 0x10000) / 1024)) t) := by
            intro t
            rw [scanFrom_unicode (by omega)]
            cases pending with
            | none => rw [unit, hhigh]; rfl
            | some high => rw [unit, isLow_of_isHigh hhigh, hhigh]; rfl
          rw [List.append_assoc, hfirst, scanFrom_unicode (by omega), hpair, ih hs noPending, pairUp_pending hchigh hclow]
          simp [push]
      next hascii =>
        obtain ⟨hquote, hslash⟩ := ne_of_lookup_eq_none hlookup
        have hrange : ¬c < 32 ∧ c < 127 := by
          simp only [true_and, not_or] at hascii
          omega
        exact (scanFrom_plain hquote hslash hrange.1 pending _).trans (hplain hrange.2)

/-- A str has no code points beyond the last one. -/
def IsStr (s : Text) : Prop := ∀ c ∈ s, c < 0x110000

instance (s : Text) : Decidable (IsStr s) := inferInstanceAs (Decidable (∀ c ∈ s, c < 0x110000))

/-- What a string that json.dumps wrote is read as. -/
def rereadText (ensureAscii : Bool) (s : Text) : Text := if ensureAscii then pairUp s else s

theorem parseString_quoted {ensureAscii : Bool} {s : Text} (hs : ensureAscii = true → IsStr s) (rest : Text) :
    parseString (quoted ensureAscii s ++ rest) = .ok (rereadText ensureAscii s, rest) := by
  have hscan : scanString (escape ensureAscii s ++ '"'.toNat :: rest) = some (rereadText ensureAscii s, rest) := by
    cases ensureAscii with
    | true => exact scanFrom_escape (hs rfl) rest noPending
    | false => exact scanString_escape s rest
  simp only [parseString, quoted, List.cons_append, List.append_assoc, List.nil_append, expect, if_true, bind,
    Except.bind, hscan]
  rfl

end Pairs

section Numbers

def Stops (p : Nat → Bool) (t : Text) : Prop := ∀ c ∈ t.head?, p c = false

variable {t : Text} {k : Token}

theorem Stops.takeWhile {p : Nat → Bool} (h : Stops p t) : t.takeWhile p = [] ∧ t.dropWhile p = t := by
  cases t with
  | nil => exact ⟨rfl, rfl⟩
  | cons c t =>
    have hc : p c = false := h c rfl
    simp [hc]

theorem span_digits {p : Nat → Bool} {ds t : Text} (hds : ∀ c ∈ ds, p c = true) (ht : Stops p t) :
    (ds ++ t).takeWhile p = ds ∧ (ds ++ t).dropWhile p = t := by
  obtain ⟨htake, hdrop⟩ := ht.takeWhile
  rw [List.takeWhile_append_of_pos hds, List.dropWhile_append_of_pos hds, htake, hdrop, List.append_nil]
  exact ⟨rfl, rfl⟩

theorem Stops.mono {p q : Nat → Bool} (h : Stops q t) (hpq : ∀ c, q c = false → p c = false) : Stops p t :=
  fun c hc => hpq c (h c hc)

theorem stops_cons {p : Nat → Bool} {c : Nat} (h : p c = false) (t : Text) : Stops p (c :: t) := by
  intro d hd
  cases hd
  exact h

def inNumber (c : Nat) : Bool := isDigit c || c = '.'.toNat || c = 'e'.toNat || c = 'E'.toNat

theorem inNumber_eq_false {c : Nat} (h : inNumber c = false) :
    isDigit c = false ∧ c ≠ '.'.toNat ∧ c ≠ 'e'.toNat ∧ c ≠ 'E'.toNat := by
  simpa [inNumber, and_assoc] using h

theorem contains_sign_of_isDigit {c : Nat} (h : isDigit c = true) :
    (text "+-").contains c = false ∧ (text "-").contains c = false := by
  simp [isDigit, text] at h ⊢
  omega

theorem scanSign_append {signs sign t : Text} (hsign : sign = [] ∨ ∃ c ∈ signs, sign = [c])
    (ht : Stops (signs.contains ·) t) : scanSign signs (sign ++ t) = (sign, t) := by
  rcases hsign with rfl | ⟨c, hc, rfl⟩
  · cases t with
    | nil => rfl
    | cons d t =>
      have hd : signs.contains d = false := ht d rfl
      simp [scanSign] at hd ⊢
      exact hd
  · simp [scanSign, hc]

theorem scanWhole_append (hk : k.WellFormed) (ht : Stops isDigit t) : scanWhole (k.whole ++ t) = some (k.whole, t) := by
  rcases hk.whole with hzero | ⟨d, ds, hwhole, hd, hne, hds⟩
  · rw [hzero]
    rfl
  · obtain ⟨htake, hdrop⟩ := span_digits hds ht
    rw [hwhole, List.cons_append, scanWhole, if_neg hne, if_pos hd, htake, hdrop]

theorem scanFraction_append (hk : k.WellFormed)
    (ht : Stops (fun c => isDigit c || c = '.'.toNat) t) : scanFraction (k.fraction ++ t) = (k.fraction, t) := by
  rcases hk.fraction with hnil | ⟨ds, hfraction, hne, hds⟩
  · rw [hnil]
    cases t with
    | nil => rfl
    | cons c t =>
      have hc : c ≠ '.'.toNat := by
        have := ht c rfl
        simp only [Bool.or_eq_false_iff, decide_eq_false_iff_not] at this
        exact this.2
      rw [List.nil_append, scanFraction, if_neg (fun h => hc h.1)]
  · have hstop : Stops isDigit t := ht.mono (fun c hc => (Bool.or_eq_false_iff.mp hc).1)
    obtain ⟨htake, hdrop⟩ := span_digits hds hstop
    rw [hfraction, List.cons_append, scanFraction, htake, hdrop, if_pos ⟨rfl, hne⟩]

theorem scanExponent_append (hk : k.WellFormed) (ht : Stops inNumber t) :
    scanExponent (k.exponent ++ t) = (k.exponent, t) := by
  rcases hk.exponent with hnil | ⟨e, sign, ds, hexponent, he, hsign, hne, hds⟩
  · rw [hnil]
    cases t with
    | nil => rfl
    | cons c t =>
      obtain ⟨_, _, hsmall, hlarge⟩ := inNumber_eq_false (ht c rfl)
      rw [List.nil_append, scanExponent]
      exact if_neg (fun h => h.1.elim hsmall hlarge)
  · have hstop : Stops isDigit t := ht.mono (fun c hc => (inNumber_eq_false hc).1)
    obtain ⟨htake, hdrop⟩ := span_digits hds hstop
    have hsigned : scanSign (text "+-") (sign ++ (ds ++ t)) = (sign, ds ++ t) := by
      apply scanSign_append
      · rcases hsign with rfl | rfl | rfl
        · exact .inl rfl
        · exact .inr ⟨_, by decide, rfl⟩
        · exact .inr ⟨_, by decide, rfl⟩
      · cases ds with
        | nil => exact absurd rfl hne
        | cons d ds => exact stops_cons (contains_sign_of_isDigit (hds d (by simp))).1 _
    rw [hexponent, List.cons_append, List.append_assoc, scanExponent, hsigned]
    dsimp only
    rw [htake, hdrop, if_pos ⟨he, hne⟩]

theorem stops_exponent (hk : k.WellFormed) (ht : Stops inNumber t) :
    Stops (fun c => isDigit c || c = '.'.toNat) (k.exponent ++ t) := by
  rcases hk.exponent with hnil | ⟨e, sign, ds, hexponent, he, -⟩
  · rw [hnil]
    apply ht.mono
    intro c hc
    obtain ⟨hdigit, hdot, -⟩ := inNumber_eq_false hc
    simp only [hdigit, hdot, decide_false, Bool.or_self]
  · rw [hexponent]
    apply stops_cons
    rcases he with rfl | rfl <;> rfl

theorem stops_fraction (hk : k.WellFormed) (ht : Stops inNumber t) : Stops isDigit (k.fraction ++ (k.exponent ++ t)) := by
  rcases hk.fraction with hnil | ⟨ds, hfraction, -⟩
  · rw [hnil]
    exact (stops_exponent hk ht).mono (fun c hc => (Bool.or_eq_false_iff.mp hc).1)
  · rw [hfraction]
    exact stops_cons rfl _

theorem head_whole (hk : k.WellFormed) : ∃ d ds, k.whole = d :: ds ∧ isDigit d = true := by
  rcases hk.whole with hzero | ⟨d, ds, hwhole, hd, -⟩
  · exact ⟨_, [], hzero, rfl⟩
  · exact ⟨d, ds, hwhole, hd⟩

theorem scanNumber_text (hk : k.WellFormed) (ht : Stops inNumber t) : scanNumber (k.text ++ t) = some (k, t) := by
  have hsign : scanSign (text "-") (k.sign ++ (k.whole ++ (k.fraction ++ (k.exponent ++ t)))) =
      (k.sign, k.whole ++ (k.fraction ++ (k.exponent ++ t))) := by
    apply scanSign_append
    · rcases hk.sign with hnil | hminus
      · exact .inl hnil
      · exact .inr ⟨_, by decide, hminus⟩
    · obtain ⟨d, ds, hwhole, hd⟩ := head_whole hk
      rw [hwhole]
      exact stops_cons (contains_sign_of_isDigit hd).2 _
  simp only [scanNumber, Token.text, List.append_assoc, hsign, scanWhole_append hk (stops_fraction hk ht),
    scanFraction_append hk (stops_exponent hk ht), scanExponent_append hk ht, Option.bind_eq_bind, Option.bind_some]
  rfl

end Numbers

section Integers

theorem isDigit_decimal (n : Nat) : ∀ c ∈ decimal n, isDigit c = true := by
  intro c hc
  obtain ⟨d, hd, rfl⟩ := List.mem_map.mp hc
  have hdigit := Nat.isDigit_of_mem_toDigits (by decide) (by decide) hd
  rw [Char.isDigit_iff_toNat] at hdigit
  simpa [isDigit] using hdigit

theorem ofDecimal_decimal (n : Nat) : ofDecimal (decimal n) = n := by
  have h : Nat.ofDigitChars 10 (Nat.toDigits 10 n) 0 = n := Nat.ofDigitChars_ten_toDigits
  rw [ofDecimal, decimal, List.foldl_map]
  exact h

def intToken (n : Int) : Token := ⟨if n < 0 then ['-'.toNat] else [], decimal n.natAbs, [], []⟩

theorem intToken_text (n : Int) : (intToken n).text = intText n := by
  rw [Token.text, intToken, intText]
  split <;> simp

theorem intToken_wellFormed (n : Int) : (intToken n).WellFormed where
  sign := by
    rw [intToken]
    split
    · exact .inr rfl
    · exact .inl rfl
  whole := by
    by_cases hzero : n.natAbs = 0
    · exact .inl (congrArg decimal hzero)
    · right
      have hhead := head_toDigits_ne_zero (Nat.pos_of_ne_zero hzero)
      have hdigits := isDigit_decimal n.natAbs
      rw [decimal] at hdigits
      cases hds : Nat.toDigits 10 n.natAbs with
      | nil => exact absurd hds Nat.toDigits_ne_nil
      | cons d ds =>
        rw [hds, List.map_cons, List.forall_mem_cons] at hdigits
        refine ⟨d.toNat, ds.map Char.toNat, ?_, hdigits.1, ?_, hdigits.2⟩
        · rw [intToken, decimal, hds, List.map_cons]
        · intro hd
          rw [hds] at hhead
          exact hhead (congrArg some (Char.toNat_inj.mp hd))
  fraction := .inl rfl
  exponent := .inl rfl

theorem intOf_intToken (n : Int) : intOf (intToken n) = n := by
  rw [intOf, intToken]
  dsimp only
  rw [ofDecimal_decimal]
  by_cases hn : n < 0
  · rw [if_pos hn, if_neg (List.cons_ne_nil _ _)]
    omega
  · rw [if_neg hn, if_pos rfl]
    omega

end Integers

section Values

variable {F : Type}

mutual

/-- What json.dumps can write: no integer and no nesting beyond the limits, and no key twice in one dict. -/
def Proper : Limits → Value F → Prop
  | limits, .int n => (decimal n.natAbs).length ≤ limits.digits
  | limits, .arr items => limits.depth ≠ 0 ∧ ProperItems limits.deeper items
  | limits, .obj fields => (fields.map Prod.fst).Nodup ∧ limits.depth ≠ 0 ∧ ProperFields limits.deeper fields
  | _, _ => True

def ProperItems : Limits → List (Value F) → Prop
  | _, [] => True
  | limits, item :: items => Proper limits item ∧ ProperItems limits items

def ProperFields : Limits → Fields F → Prop
  | _, [] => True
  | limits, (_, value) :: fields => Proper limits value ∧ ProperFields limits fields

end

mutual

/-- All strings and all keys have a property. -/
def Every (K : Text → Prop) : Value F → Prop
  | .str s => K s
  | .arr items => EveryItem K items
  | .obj fields => EveryField K fields
  | _ => True

def EveryItem (K : Text → Prop) : List (Value F) → Prop
  | [] => True
  | item :: items => Every K item ∧ EveryItem K items

def EveryField (K : Text → Prop) : Fields F → Prop
  | [] => True
  | (key, value) :: fields => K key ∧ Every K value ∧ EveryField K fields

end

mutual

/-- What json.loads makes of what json.dumps wrote. -/
def reread (ensureAscii : Bool) : Value F → Value F
  | .str s => .str (rereadText ensureAscii s)
  | .arr items => .arr (rereadItems ensureAscii items)
  | .obj fields => .obj (dictOf (rereadFields ensureAscii fields))
  | v => v

def rereadItems (ensureAscii : Bool) : List (Value F) → List (Value F)
  | [] => []
  | item :: items => reread ensureAscii item :: rereadItems ensureAscii items

def rereadFields (ensureAscii : Bool) : Fields F → Fields F
  | [] => []
  | (key, value) :: fields => (rereadText ensureAscii key, reread ensureAscii value) :: rereadFields ensureAscii fields

end

def compact : Style := ⟨false, text ",", text ":"⟩

/-- Separators that the grammar has, with spaces after them. -/
structure Style.Legible (style : Style) : Prop where
  item : ∃ spaces, style.itemSeparator = ','.toNat :: spaces ∧ ∀ c ∈ spaces, isSpace c = true
  key : ∃ spaces, style.keySeparator = ':'.toNat :: spaces ∧ ∀ c ∈ spaces, isSpace c = true

theorem legible_compact : compact.Legible := ⟨⟨[], rfl, nofun⟩, ⟨[], rfl, nofun⟩⟩

theorem legible_default : defaultStyle.Legible := ⟨⟨[32], rfl, by decide⟩, ⟨[32], rfl, by decide⟩⟩

theorem dictOf_eq (fields : Fields F) : dictOf fields = (Dict.ofList fields).entries := by
  have hfold : ∀ (fields : Fields F) (d : Dict Text (Value F)),
      fields.foldl (fun fields f => Dict.assign f.1 f.2 fields) d.entries =
        (fields.foldl (fun d f => d.set f.1 f.2) d).entries := by
    intro fields
    induction fields with
    | nil => exact fun _ => rfl
    | cons f fields ih => exact fun d => ih (d.set f.1 f.2)
  exact hfold fields Dict.empty

variable {fields : Fields F} {t : Text} {fuel : Nat}

theorem dictOf_of_nodup (h : (fields.map Prod.fst).Nodup) : dictOf fields = fields :=
  (dictOf_eq fields).trans (Dict.entries_ofList fields h)

variable (fmt : Runtime F) {limits : Limits} {style : Style}

def opens (c : Nat) : Bool := isDigit c || (text "ntf\"[\x7b-NI").contains c

theorem opens_head {c : Nat} (h : opens c = true) : isSpace c = false ∧ c ≠ ']'.toNat ∧ c ≠ '\x7d'.toNat := by
  simp [opens, isDigit, isSpace, text] at h ⊢
  omega

theorem opens_token {k : Token} (hk : k.WellFormed) : ∃ c t, k.text = c :: t ∧ opens c = true ∧
    (isDigit c = true ∨ c = '-'.toNat) := by
  obtain ⟨d, ds, hwhole, hd⟩ := head_whole hk
  rcases hk.sign with hnil | hminus
  · exact ⟨d, _, by rw [Token.text, hnil, hwhole]; rfl, by simp [opens, hd], .inl hd⟩
  · exact ⟨_, _, by rw [Token.text, hminus]; rfl, rfl, .inr rfl⟩

theorem opens_dumps (v : Value F) : ∃ c t, dumps style fmt.floatstr v = c :: t ∧ opens c = true := by
  cases v with
  | null => exact ⟨_, _, rfl, rfl⟩
  | bool b => cases b <;> exact ⟨_, _, rfl, rfl⟩
  | int n =>
    obtain ⟨c, t, htext, hc, _⟩ := opens_token (intToken_wellFormed n)
    exact ⟨c, t, by rw [dumps, ← intToken_text, htext], hc⟩
  | float x =>
    rw [dumps]
    rcases fmt.float_floatstr x with ⟨k, htext, hk, _⟩ | ⟨_, htext⟩ | ⟨_, htext⟩ | ⟨_, htext⟩
    · obtain ⟨c, t, hk, hc, _⟩ := opens_token hk
      exact ⟨c, t, htext.trans hk, hc⟩
    · exact ⟨_, _, htext, rfl⟩
    · exact ⟨_, _, htext, rfl⟩
    · exact ⟨_, _, htext, rfl⟩
  | str s => exact ⟨_, _, rfl, rfl⟩
  | arr items => exact ⟨_, _, rfl, rfl⟩
  | obj fields => exact ⟨_, _, rfl, rfl⟩

theorem skip_dumps (v : Value F) (t : Text) : skip (dumps style fmt.floatstr v ++ t) = dumps style fmt.floatstr v ++ t := by
  obtain ⟨c, t', htext, hc⟩ := opens_dumps fmt v
  rw [htext, List.cons_append, skip, List.dropWhile_cons, (opens_head hc).1]
  rfl

theorem scanLiteral_of_ne {c d : Nat} (h : d ≠ c) (ds t : Text) : scanLiteral (d :: ds) (c :: t) = none := by
  simp [scanLiteral, h]

theorem parseValue_number {k : Token} (hk : k.WellFormed) {v : Value F} (hv : numberOf fmt limits k = .ok v)
    (ht : Stops inNumber t) (fuel : Nat) : parseValue fmt limits (fuel + 1) (k.text ++ t) = .ok (v, t) := by
  obtain ⟨c, rest, htext, -, hc⟩ := opens_token hk
  have hrange : 45 ≤ c ∧ c ≤ 57 := by
    rcases hc with hc | rfl
    · simp [isDigit] at hc
      omega
    · decide
  have hfirst : c ≠ '"'.toNat ∧ c ≠ '['.toNat ∧ c ≠ '\x7b'.toNat := by
    simp only [Char.reduceToNat]
    omega
  have hkeyword : scanLiterals (keywords (F := F)) (c :: (rest ++ t)) = none := by
    have hnull : scanLiteral (text "null") (c :: (rest ++ t)) = none := scanLiteral_of_ne (d := 110) (by omega) _ _
    have htrue : scanLiteral (text "true") (c :: (rest ++ t)) = none := scanLiteral_of_ne (d := 116) (by omega) _ _
    have hfalse : scanLiteral (text "false") (c :: (rest ++ t)) = none := scanLiteral_of_ne (d := 102) (by omega) _ _
    simp [scanLiterals, keywords, hnull, htrue, hfalse]
  have hscan := scanNumber_text hk ht
  rw [htext, List.cons_append] at hscan ⊢
  rw [parseValue, if_neg hfirst.1, if_neg hfirst.2.1, if_neg hfirst.2.2, parseAtom, hkeyword]
  dsimp only
  rw [hscan]
  dsimp only
  rw [hv]
  rfl

theorem parseValue_int {n : Int} (hn : (decimal n.natAbs).length ≤ limits.digits) (ht : Stops inNumber t)
    (fuel : Nat) : parseValue fmt limits (fuel + 1) (intText n ++ t) = .ok (.int n, t) := by
  have hnumber : numberOf fmt limits (intToken n) = .ok (.int n) := by
    have hwhole : ¬ limits.digits < (intToken n).whole.length := Nat.not_lt.mpr hn
    rw [numberOf, if_pos ⟨rfl, rfl⟩, if_neg hwhole, intOf_intToken]
  rw [← intToken_text]
  exact parseValue_number fmt (intToken_wellFormed n) hnumber ht fuel

theorem parseValue_float (x : F) (ht : Stops inNumber t) (fuel : Nat) :
    parseValue fmt limits (fuel + 1) (fmt.floatstr x ++ t) = .ok (.float x, t) := by
  rcases fmt.float_floatstr x with ⟨k, htext, hk, hfloat, hx⟩ | ⟨hx, htext⟩ | ⟨hx, htext⟩ | ⟨hx, htext⟩
  · have hnumber : numberOf fmt limits k = .ok (.float x) := by
      have hnot : ¬(k.fraction = [] ∧ k.exponent = []) := fun h => hfloat.elim (· h.1) (· h.2)
      rw [numberOf, if_neg hnot, hx]
    rw [htext]
    exact parseValue_number fmt hk hnumber ht fuel
  · rw [htext, hx]
    rfl
  · rw [htext, hx]
    rfl
  · rw [htext, hx]
    rfl

theorem stops_separator (hstyle : style.Legible) (t : Text) : Stops inNumber (style.itemSeparator ++ t) := by
  obtain ⟨spaces, hitem, -⟩ := hstyle.item
  rw [hitem]
  exact stops_cons rfl _

theorem skip_of_opens {c : Nat} (h : isSpace c = false) (t : Text) : skip (c :: t) = c :: t := by
  rw [skip, List.dropWhile_cons, h]
  rfl

theorem skip_spaces {spaces : Text} (h : ∀ c ∈ spaces, isSpace c = true) (t : Text) : skip (spaces ++ t) = skip t :=
  List.dropWhile_append_of_pos h

theorem separator_comma (hstyle : style.Legible) (close : Nat) (hclose : close ≠ ','.toNat) (hskip : skip t = t) :
    separator close (style.itemSeparator ++ t) = .ok (false, t) := by
  obtain ⟨spaces, hitem, hspaces⟩ := hstyle.item
  have hcomma : skip (','.toNat :: (spaces ++ t)) = ','.toNat :: (spaces ++ t) := skip_of_opens rfl _
  rw [hitem, List.cons_append, separator, hcomma]
  dsimp only
  rw [if_neg (Ne.symm hclose)]
  change Except.ok (false, skip (spaces ++ t)) = _
  rw [skip_spaces hspaces, hskip]

theorem parseItems_last {t rest : Text} {item : Value F} (h : parseValue fmt limits fuel t = .ok (item, ']'.toNat :: rest)) :
    parseItems fmt limits (fuel + 1) t = .ok ([item], rest) := by
  rw [parseItems, h]
  rfl

theorem parseItems_more (hstyle : style.Legible) {t more rest : Text} {item : Value F} {items : List (Value F)}
    (h : parseValue fmt limits fuel t = .ok (item, style.itemSeparator ++ more)) (hskip : skip more = more)
    (hmore : parseItems fmt limits fuel more = .ok (items, rest)) :
    parseItems fmt limits (fuel + 1) t = .ok (item :: items, rest) := by
  have hcomma := separator_comma hstyle ']'.toNat (by decide) hskip
  rw [parseItems, h]
  simp only [bind, Except.bind, hcomma, Bool.false_eq_true, if_false, hmore]
  rfl

theorem parseFields_key (hstyle : style.Legible) {key : Text} (hkey : style.ensureAscii = true → IsStr key)
    (hskip : skip t = t) (fuel : Nat) :
    parseFields fmt limits (fuel + 1) (quoted style.ensureAscii key ++ (style.keySeparator ++ t)) = (do
      let (value, t) ← parseValue fmt limits fuel t
      let (closed, t) ← separator '\x7d'.toNat t
      if closed then return ([(rereadText style.ensureAscii key, value)], t)
      else
        let (fields, t) ← parseFields fmt limits fuel t
        return ((rereadText style.ensureAscii key, value) :: fields, t)) := by
  obtain ⟨spaces, hkeys, hspaces⟩ := hstyle.key
  have hcolon : expect ':'.toNat (skip (':'.toNat :: (spaces ++ t))) = .ok (spaces ++ t) := rfl
  rw [parseFields, parseString_quoted hkey, hkeys, List.cons_append]
  simp only [bind, Except.bind, hcolon, skip_spaces hspaces, hskip]

theorem parseFields_last (hstyle : style.Legible) {key t rest : Text} {value : Value F}
    (hkey : style.ensureAscii = true → IsStr key) (hskip : skip t = t)
    (h : parseValue fmt limits fuel t = .ok (value, '\x7d'.toNat :: rest)) :
    parseFields fmt limits (fuel + 1) (quoted style.ensureAscii key ++ (style.keySeparator ++ t)) =
      .ok ([(rereadText style.ensureAscii key, value)], rest) := by
  rw [parseFields_key fmt hstyle hkey hskip, h]
  rfl

theorem parseFields_more (hstyle : style.Legible) {key t more rest : Text} {value : Value F}
    (hkey : style.ensureAscii = true → IsStr key) (hskip : skip t = t)
    (h : parseValue fmt limits fuel t = .ok (value, style.itemSeparator ++ more)) (hskip' : skip more = more)
    (hmore : parseFields fmt limits fuel more = .ok (fields, rest)) :
    parseFields fmt limits (fuel + 1) (quoted style.ensureAscii key ++ (style.keySeparator ++ t)) =
      .ok ((rereadText style.ensureAscii key, value) :: fields, rest) := by
  have hcomma := separator_comma hstyle '\x7d'.toNat (by decide) hskip'
  rw [parseFields_key fmt hstyle hkey hskip, h]
  simp only [bind, Except.bind, hcomma, Bool.false_eq_true, if_false, hmore]
  rfl

theorem skip_quoted (ensureAscii : Bool) (key t : Text) : skip (quoted ensureAscii key ++ t) = quoted ensureAscii key ++ t :=
  skip_of_opens rfl _

theorem parseValue_arr (hdepth : limits.depth ≠ 0) {t rest : Text} {items : List (Value F)}
    (hopens : ∃ c t', t = c :: t' ∧ opens c = true) (h : parseItems fmt limits.deeper fuel t = .ok (items, rest)) :
    parseValue fmt limits (fuel + 1) ('['.toNat :: t) = .ok (.arr items, rest) := by
  obtain ⟨c, t', rfl, hc⟩ := hopens
  obtain ⟨hspace, hclose, -⟩ := opens_head hc
  rw [parseValue, if_neg (by decide), if_pos rfl, if_neg hdepth, skip_of_opens hspace]
  dsimp only
  rw [if_neg hclose, h]
  rfl

theorem parseValue_obj (hdepth : limits.depth ≠ 0) {ensureAscii : Bool} {key t rest : Text}
    (h : parseFields fmt limits.deeper fuel (quoted ensureAscii key ++ t) = .ok (fields, rest)) :
    parseValue fmt limits (fuel + 1) ('\x7b'.toNat :: (quoted ensureAscii key ++ t)) = .ok (.obj (dictOf fields), rest) := by
  rw [parseValue, if_neg (by decide), if_neg (by decide), if_pos rfl, if_neg hdepth, skip_quoted]
  change (parseFields fmt limits.deeper fuel (quoted ensureAscii key ++ t)).map (fun r => (Value.obj (dictOf r.1), r.2)) = _
  rw [h]
  rfl

mutual

theorem parseValue_dumps (hstyle : style.Legible) : ∀ (limits : Limits) (v : Value F), Proper limits v →
    (style.ensureAscii = true → Every IsStr v) →
    ∀ (fuel : Nat) (t : Text), (dumps style fmt.floatstr v).length < fuel → Stops inNumber t →
    parseValue fmt limits fuel (dumps style fmt.floatstr v ++ t) = .ok (reread style.ensureAscii v, t)
  | limits, .null, _, _, fuel + 1, t, _, _ => rfl
  | limits, .bool true, _, _, fuel + 1, t, _, _ => rfl
  | limits, .bool false, _, _, fuel + 1, t, _, _ => rfl
  | limits, .int n, hv, _, fuel + 1, t, _, ht => parseValue_int fmt hv ht fuel
  | limits, .float x, _, _, fuel + 1, t, _, ht => parseValue_float fmt x ht fuel
  | limits, .str s, _, hs, fuel + 1, t, _, _ => by
      change (parseString (quoted style.ensureAscii s ++ t)).map (fun r => (Value.str r.1, r.2)) = _
      rw [parseString_quoted hs]
      rfl
  | limits, .arr [], hv, _, fuel + 1, t, _, _ => if_neg hv.1
  | limits, .arr (item :: items), hv, hs, fuel + 1, t, hfuel, ht => by
      simp only [dumps, List.length_cons, List.length_append, List.length_nil] at hfuel
      have hitems := parseItems_dumps hstyle limits.deeper item items hv.2 hs fuel t (by omega)
      rw [dumps, List.cons_append, List.append_assoc]
      apply parseValue_arr fmt hv.1 _ hitems
      obtain ⟨c, t', hitem, hc⟩ := opens_dumps fmt item
      exact ⟨c, _, by rw [dumpsItems, hitem]; rfl, hc⟩
  | limits, .obj [], hv, _, fuel + 1, t, _, _ => if_neg hv.2.1
  | limits, .obj ((key, value) :: fields), hv, hs, fuel + 1, t, hfuel, ht => by
      simp only [dumps, List.length_cons, List.length_append, List.length_nil] at hfuel
      have hfields := parseFields_dumps hstyle limits.deeper key value fields hv.2.2 hs fuel t (by omega)
      rw [dumps, List.cons_append, List.append_assoc]
      rw [dumpsFields, List.append_assoc, List.append_assoc, List.append_assoc] at hfields ⊢
      exact parseValue_obj fmt hv.2.1 hfields

theorem parseItems_dumps (hstyle : style.Legible) : ∀ (limits : Limits) (item : Value F) (items : List (Value F)),
    ProperItems limits (item :: items) → (style.ensureAscii = true → EveryItem IsStr (item :: items)) →
    ∀ (fuel : Nat) (t : Text), (dumpsItems style fmt.floatstr (item :: items)).length + 1 < fuel →
    parseItems fmt limits fuel (dumpsItems style fmt.floatstr (item :: items) ++ ']'.toNat :: t) =
      .ok (rereadItems style.ensureAscii (item :: items), t)
  | limits, item, [], h, hs, fuel + 1, t, hfuel => by
      simp only [dumpsItems, dumpsMoreItems, List.append_nil] at hfuel ⊢
      have hitem := parseValue_dumps hstyle limits item h.1 (fun h => (hs h).1) fuel (']'.toNat :: t) (by omega)
        (stops_cons rfl _)
      exact parseItems_last fmt hitem
  | limits, item, next :: items, h, hs, fuel + 1, t, hfuel => by
      obtain ⟨spaces, hcomma, -⟩ := hstyle.item
      have hlength : 0 < style.itemSeparator.length := by simp [hcomma]
      simp only [dumpsItems, dumpsMoreItems, List.length_append] at hfuel
      have hitem := parseValue_dumps hstyle limits item h.1 (fun h => (hs h).1) fuel
        (style.itemSeparator ++ (dumpsItems style fmt.floatstr (next :: items) ++ ']'.toNat :: t)) (by omega)
        (stops_separator hstyle _)
      have hmore := parseItems_dumps hstyle limits next items h.2 (fun h => (hs h).2) fuel t (by
        simp only [dumpsItems, List.length_append]
        omega)
      have hskip : skip (dumpsItems style fmt.floatstr (next :: items) ++ ']'.toNat :: t) =
          dumpsItems style fmt.floatstr (next :: items) ++ ']'.toNat :: t := by
        rw [dumpsItems, List.append_assoc]
        exact skip_dumps fmt next _
      have hparse := parseItems_more fmt hstyle hitem hskip hmore
      simpa only [dumpsItems, dumpsMoreItems, rereadItems, List.append_assoc] using hparse

theorem parseFields_dumps (hstyle : style.Legible) : ∀ (limits : Limits) (key : Text) (value : Value F)
    (fields : Fields F), ProperFields limits ((key, value) :: fields) →
    (style.ensureAscii = true → EveryField IsStr ((key, value) :: fields)) → ∀ (fuel : Nat) (t : Text),
    (dumpsFields style fmt.floatstr ((key, value) :: fields)).length + 1 < fuel →
    parseFields fmt limits fuel (dumpsFields style fmt.floatstr ((key, value) :: fields) ++ '\x7d'.toNat :: t) =
      .ok (rereadFields style.ensureAscii ((key, value) :: fields), t)
  | limits, key, value, [], h, hs, fuel + 1, t, hfuel => by
      simp only [dumpsFields, dumpsMoreFields, List.length_append] at hfuel
      have hvalue := parseValue_dumps hstyle limits value h.1 (fun h => (hs h).2.1) fuel ('\x7d'.toNat :: t) (by omega)
        (stops_cons rfl _)
      have hparse := parseFields_last fmt hstyle (fun h => (hs h).1) (skip_dumps fmt value _) hvalue
      simpa only [dumpsFields, dumpsMoreFields, rereadFields, List.append_assoc, List.append_nil] using hparse
  | limits, key, value, (key', value') :: fields, h, hs, fuel + 1, t, hfuel => by
      obtain ⟨spaces, hcomma, -⟩ := hstyle.item
      have hlength : 0 < style.itemSeparator.length := by simp [hcomma]
      simp only [dumpsFields, dumpsMoreFields, List.length_append] at hfuel
      have hvalue := parseValue_dumps hstyle limits value h.1 (fun h => (hs h).2.1) fuel
        (style.itemSeparator ++ (dumpsFields style fmt.floatstr ((key', value') :: fields) ++ '\x7d'.toNat :: t)) (by omega)
        (stops_separator hstyle _)
      have hmore := parseFields_dumps hstyle limits key' value' fields h.2 (fun h => (hs h).2.2) fuel t (by
        simp only [dumpsFields, List.length_append]
        omega)
      have hskip : skip (dumpsFields style fmt.floatstr ((key', value') :: fields) ++ '\x7d'.toNat :: t) =
          dumpsFields style fmt.floatstr ((key', value') :: fields) ++ '\x7d'.toNat :: t := by
        rw [dumpsFields, List.append_assoc, List.append_assoc, List.append_assoc]
        exact skip_quoted _ key' _
      have hparse := parseFields_more fmt hstyle (fun h => (hs h).1) (skip_dumps fmt value _) hvalue hskip hmore
      simpa only [dumpsFields, dumpsMoreFields, rereadFields, List.append_assoc] using hparse

end

theorem loadsWithin_dumps_eq {limits : Limits} (hstyle : style.Legible) {v : Value F} (hv : Proper limits v)
    (hs : style.ensureAscii = true → Every IsStr v) (ht : ∀ c ∈ t, isSpace c = true) :
    loadsWithin fmt limits (dumps style fmt.floatstr v ++ t) = .ok (reread style.ensureAscii v) := by
  have hstops : Stops inNumber t := by
    intro c hc
    have hspace := ht c (List.mem_of_head? hc)
    simp [isSpace, inNumber, isDigit] at hspace ⊢
    omega
  have hskip : skip t = [] := List.dropWhile_eq_nil_iff.mpr ht
  have hparse := parseValue_dumps fmt hstyle limits v hv hs (2 * (dumps style fmt.floatstr v ++ t).length + 1) t
    (by simp only [List.length_append]; omega) hstops
  rw [loadsWithin, skip_dumps, hparse]
  simp only [bind, Except.bind, hskip, if_true]
  rfl

mutual

theorem every_of_forall {K : Text → Prop} (h : ∀ s, K s) : ∀ v : Value F, Every K v
  | .null | .bool _ | .int _ | .float _ => trivial
  | .str s => h s
  | .arr items => everyItem_of_forall h items
  | .obj fields => everyField_of_forall h fields

theorem everyItem_of_forall {K : Text → Prop} (h : ∀ s, K s) : ∀ items : List (Value F), EveryItem K items
  | [] => trivial
  | item :: items => ⟨every_of_forall h item, everyItem_of_forall h items⟩

theorem everyField_of_forall {K : Text → Prop} (h : ∀ s, K s) : ∀ fields : Fields F, EveryField K fields
  | [] => trivial
  | (key, value) :: fields => ⟨h key, every_of_forall h value, everyField_of_forall h fields⟩

end

mutual

theorem reread_eq {ensureAscii : Bool} : ∀ {limits : Limits} {v : Value F}, Proper limits v →
    Every (fun s => rereadText ensureAscii s = s) v → reread ensureAscii v = v
  | _, .null, _, _ | _, .bool _, _, _ | _, .int _, _, _ | _, .float _, _, _ => rfl
  | _, .str _, _, hs => congrArg Value.str hs
  | _, .arr _, hv, hs => congrArg Value.arr (rereadItems_eq hv.2 hs)
  | _, .obj fields, hv, hs => by rw [reread, rereadFields_eq hv.2.2 hs, dictOf_of_nodup hv.1]

theorem rereadItems_eq {ensureAscii : Bool} : ∀ {limits : Limits} {items : List (Value F)}, ProperItems limits items →
    EveryItem (fun s => rereadText ensureAscii s = s) items → rereadItems ensureAscii items = items
  | _, [], _, _ => rfl
  | _, item :: items, hv, hs => by rw [rereadItems, reread_eq hv.1 hs.1, rereadItems_eq hv.2 hs.2]

theorem rereadFields_eq {ensureAscii : Bool} : ∀ {limits : Limits} {fields : Fields F},
    ProperFields limits fields → EveryField (fun s => rereadText ensureAscii s = s) fields →
    rereadFields ensureAscii fields = fields
  | _, [], _, _ => rfl
  | _, (key, value) :: fields, hv, hs => by
      rw [rereadFields, reread_eq hv.1 hs.2.1, rereadFields_eq hv.2 hs.2.2, hs.1]

end

/-- What json.dumps writes, json.loads reads back, with white space after it. -/
theorem loadsWithin_dumps {limits : Limits} {v : Value F} (hv : Proper limits v)
    (ht : ∀ c ∈ t, isSpace c = true) : loadsWithin fmt limits (dumps compact fmt.floatstr v ++ t) = .ok v := by
  have hread : reread compact.ensureAscii v = v := reread_eq hv (every_of_forall (fun _ => rfl) v)
  rw [loadsWithin_dumps_eq fmt legible_compact hv nofun ht, hread]

end Values

end ProductionStack.JsonText
