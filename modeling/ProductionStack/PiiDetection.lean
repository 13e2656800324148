import ProductionStack.JsonText
import ProductionStack.TextPattern

namespace ProductionStack.PiiDetection

open JsonText TextPattern

inductive PIIType
  | email
  | phone
  | ssn
  | creditCard
  | ipAddress
  | apiKey
  | bankAccount
  | passport
  | driversLicense
  | taxId
  | medicalRecord
  | healthInfo
  | macAddress
  | name
  | dob
  | password
  | username
  | address
  deriving DecidableEq, Repr

def PIIType.value : PIIType → String
  | .email => "email"
  | .phone => "phone"
  | .ssn => "ssn"
  | .creditCard => "credit_card"
  | .ipAddress => "ip_address"
  | .apiKey => "api_key"
  | .bankAccount => "bank_account"
  | .passport => "passport"
  | .driversLicense => "drivers_license"
  | .taxId => "tax_id"
  | .medicalRecord => "medical_record"
  | .healthInfo => "health_info"
  | .macAddress => "mac_address"
  | .name => "name"
  | .dob => "date_of_birth"
  | .password => "password"
  | .username => "username"
  | .address => "address"

section Patterns

def isDigit (c : Nat) : Bool := '0'.toNat ≤ c && c ≤ '9'.toNat

def isLetter (c : Nat) : Bool :=
  ('a'.toNat ≤ c && c ≤ 'z'.toNat) || ('A'.toNat ≤ c && c ≤ 'Z'.toNat)

/-- The classes of re for str patterns, as Unicode has them. Of the tables behind them only the
ASCII part is used, and that a decimal is a word character. -/
structure Classes where
  decimal : Nat → Bool
  space : Nat → Bool
  word : Nat → Bool
  decimal_ascii : ∀ c < 128, decimal c = isDigit c
  space_ascii : ∀ c < 128, space c = (decide (9 ≤ c ∧ c ≤ 13) || decide (28 ≤ c ∧ c ≤ 32))
  word_ascii : ∀ c < 128, word c = (isDigit c || isLetter c || c = '_'.toNat)
  word_of_decimal : ∀ c, decimal c = true → word c = true

def oneOf (set : String) : TextPattern Nat := chars (fun c => (text set).contains c)

variable (U : Classes)

def emailLocal (c : Nat) : Bool := isLetter c || isDigit c || (text "._%+-").contains c

def emailDomain (c : Nat) : Bool := isLetter c || isDigit c || (text ".-").contains c

def email : TextPattern Nat :=
  seq (plus (chars emailLocal)) (seq (oneOf "@") (seq (plus (chars emailDomain)) (seq (oneOf ".")
    (seq (exactly (chars isLetter) 2) (star (chars isLetter))))))

def countryCode : TextPattern Nat := optional (seq (optional (oneOf "+")) (seq (oneOf "1") (optional (oneOf "-."))))

def areaCode : TextPattern Nat :=
  alt (seq (oneOf "(") (seq (exactly (chars isDigit) 3) (oneOf ")"))) (exactly (chars isDigit) 3)

def phoneNumber : TextPattern Nat :=
  seq countryCode (seq (star (chars U.space)) (seq areaCode (seq (optional (oneOf "-.")) (seq (exactly (chars isDigit) 3)
    (seq (optional (oneOf "-.")) (exactly (chars isDigit) 4))))))

def ssnNumber : TextPattern Nat :=
  seq (exactly (chars U.decimal) 3) (seq (optional (oneOf "-.")) (seq (exactly (chars U.decimal) 2)
    (seq (optional (oneOf "-.")) (exactly (chars U.decimal) 4))))

def isSeparator (c : Nat) : Bool := (text " -").contains c

def cardNumber : TextPattern Nat := between (seq (chars U.decimal) (star (chars isSeparator))) 13 16

def ipNumber : TextPattern Nat :=
  seq (exactly (seq (between (chars U.decimal) 1 3) (oneOf ".")) 3) (between (chars U.decimal) 1 3)

/-- All but the first pattern stand between two boundaries. -/
def bounded (r : TextPattern Nat) : TextPattern Nat := seq boundary (seq r boundary)

def piiPattern : PIIType → Option (TextPattern Nat)
  | .email => some email
  | .phone => some (bounded (phoneNumber U))
  | .ssn => some (bounded (ssnNumber U))
  | .creditCard => some (bounded (cardNumber U))
  | .ipAddress => some (bounded (ipNumber U))
  | _ => none

end Patterns

section Middleware

structure PIIConfig where
  enabled : Bool := true
  piiTypes : Option (List PIIType) := none

def patternTypes : List PIIType := [.email, .phone, .ssn, .creditCard, .ipAddress]

/-- No set and an empty set both stand for all patterns. -/
def patternsToCheck (piiTypes : Option (List PIIType)) : List PIIType :=
  match piiTypes.getD [] with
  | [] => patternTypes
  | types => patternTypes.filter (types.contains ·)

variable (U : Classes)

/-- The detected types. The call raises before the patterns are compiled. -/
def analyze (initialized : Bool) (text : Text) (piiTypes : Option (List PIIType)) : Option (List PIIType) :=
  if initialized then some ((patternsToCheck piiTypes).filter (fun t => (piiPattern U t).any (·.found U.word text)))
  else none

/-- An error of the analyzer blocks without a type. -/
def checkPiiContent (initialized : Bool) (text : Text) (config : PIIConfig) : Option (List PIIType) :=
  if text = [] then none
  else
    match analyze U initialized text config.piiTypes with
    | none => some []
    | some [] => none
    | some detected => some detected

structure Refusal where
  statusCode : Nat
  message : String
  types : List String
  deriving DecidableEq, Repr

/-- None lets the request through. -/
def checkPii {F : Type} (floatstr : F → Text) (initialized : Bool) (config : Option PIIConfig) (body : Value F) :
    Option Refusal :=
  match config with
  | none => none
  | some config =>
    if config.enabled then
      (checkPiiContent U initialized (dumps defaultStyle floatstr body) config).map
        (fun types => ⟨400, "PII detected in request", types.map PIIType.value⟩)
    else none

end Middleware

section Encoding

variable {U : Classes}

def printable (c : Nat) : Bool := 32 ≤ c && c ≤ 126

def plain (c : Nat) : Bool := printable c && c != '"'.toNat && c != '\\'.toNat

theorem lookup_shortEscapes_eq_none {c : Nat} (h : plain c = true ∨ 126 < c) : shortEscapes.lookup c = none := by
  rw [List.lookup_eq_none_iff]
  simp only [plain, printable, Bool.and_eq_true, decide_eq_true_eq, bne_iff_ne] at h
  simp only [shortEscapes, List.forall_mem_cons, bne_iff_ne, List.not_mem_nil, false_implies, implies_true, and_true]
  simp only [Char.reduceToNat] at h ⊢
  omega

theorem escapeCode_plain {c : Nat} (h : plain c = true) : escapeCode true c = [c] := by
  rw [escapeCode, lookup_shortEscapes_eq_none (.inl h)]
  simp only [plain, printable, Bool.and_eq_true, decide_eq_true_eq, bne_iff_ne] at h
  exact if_neg (by omega)

theorem escape_plain {s : Text} (h : ∀ c ∈ s, plain c = true) : escape true s = s := by
  induction s with
  | nil => rfl
  | cons c s ih =>
    rw [List.forall_mem_cons] at h
    rw [escape, List.flatMap_cons, escapeCode_plain h.1]
    exact congrArg (c :: ·) (ih h.2)

theorem escape_append (s t : Text) : escape true (s ++ t) = escape true s ++ escape true t := List.flatMap_append

theorem word_hexDigit (n : Nat) : U.word (hexDigit (n % 16)) = true := by
  have hdigit : ∀ m < 16, (isDigit (hexDigit m) || isLetter (hexDigit m) || hexDigit m = '_'.toNat) = true := by decide
  have hascii : ∀ m < 16, hexDigit m < 128 := by decide
  have hlt : n % 16 < 16 := Nat.mod_lt _ (by decide)
  rw [U.word_ascii _ (hascii _ hlt)]
  exact hdigit _ hlt

theorem word_shortEscape {c e : Nat} (h : shortEscapes.lookup c = some e) (hc : printable c = false) : U.word e = true := by
  have hall : ∀ entry ∈ shortEscapes, printable entry.1 = false →
      entry.2 < 128 ∧ (isDigit entry.2 || isLetter entry.2 || entry.2 = '_'.toNat) = true := by decide
  obtain ⟨l, r, hsplit, _⟩ := List.lookup_eq_some_iff.mp h
  have hmem : (c, e) ∈ shortEscapes := by simp [hsplit]
  obtain ⟨hascii, hword⟩ := hall _ hmem hc
  rw [U.word_ascii e hascii]
  exact hword

theorem escapeCode_cases (U : Classes) (c : Nat) :
    escapeCode true c = [c] ∨ (escapeCode true c = ['\\'.toNat, c] ∧ printable c = true) ∨
      ∃ t d, escapeCode true c = '\\'.toNat :: t ∧ t.getLast? = some d ∧ U.word d = true ∧ printable c = false := by
  by_cases hplain : plain c = true
  · exact .inl (escapeCode_plain hplain)
  by_cases hprintable : printable c = true
  · have hc : c = '"'.toNat ∨ c = '\\'.toNat := by
      by_contra hnot
      rw [not_or] at hnot
      exact hplain (by simpa [plain, hprintable] using hnot)
    refine .inr (.inl ⟨?_, hprintable⟩)
    rcases hc with rfl | rfl <;> rfl
  · rw [Bool.not_eq_true] at hprintable
    refine .inr (.inr ?_)
    rw [escapeCode]
    cases hlookup : shortEscapes.lookup c with
    | some e => exact ⟨[e], e, rfl, rfl, word_shortEscape hlookup hprintable, hprintable⟩
    | none =>
      have hescaped : c < 32 ∨ (true = true ∧ 126 < c) := by
        simp only [printable, Bool.and_eq_false_iff, decide_eq_false_iff_not] at hprintable
        rcases hprintable with hlow | hhigh
        · exact .inl (by omega)
        · exact .inr ⟨rfl, by omega⟩
      dsimp only
      rw [if_pos hescaped]
      split
      · exact ⟨_, _, rfl, rfl, word_hexDigit c, hprintable⟩
      · refine ⟨(unicodeEscape (0xD800 + (c - 0x10000) / 1024)).tail ++ unicodeEscape (0xDC00 + (c - 0x10000) % 1024),
          _, rfl, ?_, word_hexDigit (0xDC00 + (c - 0x10000) % 1024), hprintable⟩
        rw [List.getLast?_append]
        rfl

theorem head_escape {s : Text} (h : s.head?.any U.word = false) (rest : Text) :
    (escape true s ++ '"'.toNat :: rest).head?.any U.word = false := by
  have hquote : U.word '"'.toNat = false := U.word_ascii _ (by decide)
  have hslash : U.word '\\'.toNat = false := U.word_ascii _ (by decide)
  cases s with
  | nil => exact hquote
  | cons c s =>
    have hc : U.word c = false := h
    rw [escape, List.flatMap_cons]
    rcases escapeCode_cases U c with heq | ⟨heq, _⟩ | ⟨t, d, heq, _⟩
    · rw [heq]
      exact hc
    · rw [heq]
      exact hslash
    · rw [heq]
      exact hslash

theorem last_escape {s : Text} (h : ∀ c ∈ s.getLast?, printable c = true ∨ U.word c = true) (before : Text) :
    (before ++ '"'.toNat :: escape true s).getLast?.any U.word = s.getLast?.any U.word := by
  have hquote : U.word '"'.toNat = false := U.word_ascii _ (by decide)
  rcases List.eq_nil_or_concat' s with rfl | ⟨init, c, rfl⟩
  · rw [List.getLast?_append]
    exact hquote
  · have hc : printable c = true ∨ U.word c = true := h c (by simp)
    have hsplit : before ++ '"'.toNat :: escape true (init ++ [c]) =
        (before ++ '"'.toNat :: escape true init) ++ escapeCode true c := by
      simp [escape]
    rw [hsplit, List.getLast?_append, List.getLast?_concat]
    rcases escapeCode_cases U c with heq | ⟨heq, _⟩ | ⟨t, d, heq, hd, hword, hnot⟩
    · rw [heq]
      rfl
    · rw [heq]
      rfl
    · rw [heq, List.getLast?_cons, hd]
      have hcword : U.word c = true := hc.resolve_left (by simp [hnot])
      simp [hword, hcword]

end Encoding

section Detection

variable {U : Classes}

def Matches (U : Classes) (r : TextPattern Nat) (pre mid post : Text) : Prop :=
  ⟨mid.getLast?.or pre.getLast?, post⟩ ∈ r.ends U.word ⟨pre.getLast?, mid ++ post⟩

variable {r : TextPattern Nat} {pre mid post : Text}

theorem found_of_matches (h : Matches U r pre mid post)
    (hmid : ∀ c ∈ mid, plain c = true)
    (hsides : r.asserts = true →
      (∀ c ∈ pre.getLast?, printable c = true ∨ U.word c = true) ∧ post.head?.any U.word = false)
    {s text : Text} (hs : s = pre ++ (mid ++ post)) (htext : quoted true s <:+: text) : r.found U.word text = true := by
  obtain ⟨left, right, rfl⟩ := htext
  have hsplit : left ++ quoted true s ++ right =
      (left ++ '"'.toNat :: escape true pre) ++ (mid ++ (escape true post ++ '"'.toNat :: right)) := by
    rw [hs, quoted, escape_append, escape_append, escape_plain hmid]
    simp
  rw [hsplit]
  refine found_of_mem_ends (ends_transfer ?_ h)
  intro hasserts
  obtain ⟨hbefore, hafter⟩ := hsides hasserts
  exact ⟨(last_escape hbefore left).symm, by rw [hafter, head_escape hafter]⟩

theorem plain_letter {c : Nat} (h : isLetter c = true) : plain c = true := by
  simp [isLetter, plain, printable] at h ⊢
  omega

theorem plain_digit {c : Nat} (h : isDigit c = true) : plain c = true := by
  simp [isDigit, plain, printable] at h ⊢
  omega

theorem plain_mem {set : String} (hset : (text set).all plain = true) {c : Nat} (h : (text set).contains c = true) :
    plain c = true :=
  List.all_eq_true.mp hset c (List.contains_iff_mem.mp h)

theorem plain_email {set : String} (hset : (text set).all plain = true) {c : Nat}
    (h : (isLetter c || isDigit c || (text set).contains c) = true) : plain c = true := by
  rw [Bool.or_eq_true, Bool.or_eq_true] at h
  rcases h with (h | h) | h
  · exact plain_letter h
  · exact plain_digit h
  · exact plain_mem hset h

theorem email_within : email.Within (fun c => plain c = true) := by
  have hlocal : ∀ c, emailLocal c = true → plain c = true := fun c h => plain_email (by decide) h
  have hdomain : ∀ c, emailDomain c = true → plain c = true := fun c h => plain_email (by decide) h
  have hletter : (chars isLetter).Within (fun c => plain c = true) := fun c h => plain_letter h
  have hset : ∀ set : String, (text set).all plain = true → (oneOf set).Within (fun c => plain c = true) :=
    fun set hset c h => plain_mem hset h
  exact ⟨⟨hlocal, hlocal⟩, hset "@" (by decide), ⟨hdomain, hdomain⟩, hset "." (by decide),
    within_exactly hletter 2, hletter⟩

theorem email_survives (h : Matches U email pre mid post) {s text : Text}
    (hs : s = pre ++ (mid ++ post)) (htext : quoted true s <:+: text) : email.found U.word text = true := by
  obtain ⟨mid', hmid', hplain⟩ := ends_within email_within h
  obtain rfl : mid = mid' := List.append_cancel_right hmid'.rest
  refine found_of_matches h hplain ?_ hs htext
  intro hasserts
  cases hasserts

/-- The characters of the match are printable, and so is the one before it, or it is a word character. -/
def Survives (U : Classes) (pre mid : Text) : Prop :=
  (∀ c ∈ mid, printable c = true) ∧ ∀ c ∈ pre.getLast?, printable c = true ∨ U.word c = true

def Unquoted (c : Nat) : Prop := c ≠ '"'.toNat ∧ c ≠ '\\'.toNat

theorem bounded_survives {p q : Nat → Bool} (hr : Settles U.word p q r) (hp : ∀ c, p c = true → U.word c = true)
    (hq : ∀ c, q c = true → U.word c = false) (hwithin : r.Within Unquoted) (h : Matches U (bounded r) pre mid post)
    (hsurvives : Survives U pre mid) {s text : Text} (hs : s = pre ++ (mid ++ post)) (htext : quoted true s <:+: text)
    : (bounded r).found U.word text = true := by
  obtain ⟨start, hstart, hend⟩ := mem_ends_seq.mp h
  obtain ⟨rfl, hboundary⟩ := mem_ends_boundary.mp hstart
  obtain ⟨b, hb, tail, htail, hafter⟩ := hr.boundary hp hq hend
  have hb' : b ∈ (bounded r).ends U.word ⟨pre.getLast?, mid ++ post⟩ := mem_ends_seq.mpr ⟨_, hstart, hb⟩
  obtain ⟨mid', hmid', hwithin'⟩ := ends_within (r := bounded r) ⟨trivial, hwithin, trivial⟩ hb'
  have hrest : b.rest = tail ++ post := htail.rest
  obtain rfl : mid = mid' ++ tail := by
    have := hmid'.rest
    rw [hrest, ← List.append_assoc] at this
    exact List.append_cancel_right this
  have hmatches : Matches U (bounded r) pre mid' (tail ++ post) := by
    rw [Matches, ← List.append_assoc, ← hrest, ← hmid'.before]
    exact hb'
  refine found_of_matches hmatches ?_ (fun _ => ⟨hsurvives.2, hrest ▸ hafter⟩) (by rw [hs, List.append_assoc]) htext
  intro c hc
  have hprintable := hsurvives.1 c (List.mem_append_left _ hc)
  obtain ⟨hquote, hslash⟩ := hwithin' c hc
  rw [plain, hprintable, bne_iff_ne.mpr hquote, bne_iff_ne.mpr hslash]
  rfl

theorem within_chars {p : Nat → Bool} (hquote : p '"'.toNat = false) (hslash : p '\\'.toNat = false) :
    (chars p).Within Unquoted := by
  refine fun c hc => ⟨?_, ?_⟩
  · rintro rfl
    exact Bool.false_ne_true (hquote.symm.trans hc)
  · rintro rfl
    exact Bool.false_ne_true (hslash.symm.trans hc)

theorem within_decimal (U : Classes) : (chars U.decimal).Within Unquoted :=
  within_chars (U.decimal_ascii _ (by decide)) (U.decimal_ascii _ (by decide))

theorem within_digit : (chars isDigit).Within Unquoted := within_chars rfl rfl

theorem phoneNumber_within (U : Classes) : (phoneNumber U).Within Unquoted := by
  have hspace : (chars U.space).Within Unquoted :=
    within_chars (U.space_ascii _ (by decide)) (U.space_ascii _ (by decide))
  have hset : ∀ set, (text set).contains '"'.toNat = false → (text set).contains '\\'.toNat = false →
      (oneOf set).Within Unquoted := fun _ => within_chars
  have hdash : (optional (oneOf "-.")).Within Unquoted := ⟨hset "-." rfl rfl, trivial⟩
  refine ⟨⟨⟨⟨hset "+" rfl rfl, trivial⟩, hset "1" rfl rfl, hdash⟩, trivial⟩, hspace, ⟨⟨hset "(" rfl rfl, ?_,
    hset ")" rfl rfl⟩, ?_⟩, hdash, ?_, hdash, ?_⟩
  all_goals exact within_exactly within_digit _

theorem ssnNumber_within (U : Classes) : (ssnNumber U).Within Unquoted := by
  have hdash : (optional (oneOf "-.")).Within Unquoted := ⟨within_chars rfl rfl, trivial⟩
  refine ⟨?_, hdash, ?_, hdash, ?_⟩
  all_goals exact within_exactly (within_decimal U) _

theorem cardNumber_within (U : Classes) : (cardNumber U).Within Unquoted := by
  have hgroup : (seq (chars U.decimal) (star (chars isSeparator))).Within Unquoted :=
    ⟨within_decimal U, within_chars rfl rfl⟩
  exact within_between hgroup 13 16

theorem ipNumber_within (U : Classes) : (ipNumber U).Within Unquoted := by
  have hbyte : (between (chars U.decimal) 1 3).Within Unquoted := within_between (within_decimal U) 1 3
  have hgroup : (seq (between (chars U.decimal) 1 3) (oneOf ".")).Within Unquoted := ⟨hbyte, within_chars rfl rfl⟩
  exact ⟨within_exactly hgroup 3, hbyte⟩

theorem word_digit {c : Nat} (h : isDigit c = true) : U.word c = true := by
  have hascii : c < 128 := by
    simp [isDigit] at h
    omega
  rw [U.word_ascii c hascii, h]
  rfl

theorem not_word_separator {c : Nat} (h : isSeparator c = true) : U.word c = false := by
  have hc : c = 32 ∨ c = 45 := by simpa [isSeparator, text] using h
  rcases hc with rfl | rfl
  · exact U.word_ascii _ (by decide)
  · exact U.word_ascii _ (by decide)

theorem piiPattern_survives {t : PIIType} (hr : piiPattern U t = some r)
    (h : Matches U r pre mid post) (hsurvives : t = .email ∨ Survives U pre mid) {s text : Text}
    (hs : s = pre ++ (mid ++ post)) (htext : quoted true s <:+: text) : r.found U.word text = true := by
  have hdigit : ∀ c, isDigit c = true → U.word c = true := fun _ => word_digit
  have hnever : ∀ c, (fun _ : Nat => false) c = true → U.word c = false := by simp
  have hsurvives' : t ≠ .email → Survives U pre mid := hsurvives.resolve_left
  cases t with
  | email =>
    cases hr
    exact email_survives h hs htext
  | phone =>
    cases hr
    have hsettles : Settles U.word isDigit (fun _ => false) (phoneNumber U) :=
      ((((((settles_chars.exactly 3).seq).seq).seq).seq).seq).seq
    exact bounded_survives hsettles hdigit hnever (phoneNumber_within U) h (hsurvives' (by decide)) hs htext
  | ssn =>
    cases hr
    have hsettles : Settles U.word U.decimal (fun _ => false) (ssnNumber U) :=
      ((((settles_chars.exactly 3).seq).seq).seq).seq
    exact bounded_survives hsettles U.word_of_decimal hnever (ssnNumber_within U) h (hsurvives' (by decide)) hs htext
  | creditCard =>
    cases hr
    have hsettles : Settles U.word U.decimal isSeparator (cardNumber U) := settles_seq_star.between 12 16
    exact bounded_survives hsettles U.word_of_decimal (fun _ => not_word_separator) (cardNumber_within U) h
      (hsurvives' (by decide)) hs htext
  | ipAddress =>
    cases hr
    have hsettles : Settles U.word U.decimal (fun _ => false) (ipNumber U) := (settles_chars.between 0 3).seq
    exact bounded_survives hsettles U.word_of_decimal hnever (ipNumber_within U) h (hsurvives' (by decide)) hs htext
  | _ => cases hr

theorem quoted_infix_body {F : Type} (floatstr : F → Text) {s : Text} {body : Value F} (h : Occurs s body) :
    quoted true s <:+: dumps defaultStyle floatstr body :=
  @quoted_infix_dumps F defaultStyle floatstr s body h

theorem dumps_ne_nil {F : Type} (floatstr : F → Text) {s : Text} {body : Value F} (h : Occurs s body) :
    dumps defaultStyle floatstr body ≠ [] := by
  intro hnil
  have hwithin := quoted_infix_body floatstr h
  rw [hnil, List.infix_nil] at hwithin
  exact List.cons_ne_nil _ _ hwithin

theorem checkPii_isSome {F : Type} {floatstr : F → Text} {config : PIIConfig} (henabled : config.enabled = true) {t : PIIType}
    (ht : t ∈ patternsToCheck config.piiTypes) (hr : piiPattern U t = some r) {body : Value F}
    (hne : dumps defaultStyle floatstr body ≠ []) (hfound : r.found U.word (dumps defaultStyle floatstr body) = true)
    (initialized : Bool) : (checkPii U floatstr initialized (some config) body).isSome = true := by
  have hmem : t ∈ (patternsToCheck config.piiTypes).filter
      (fun t => (piiPattern U t).any (·.found U.word (dumps defaultStyle floatstr body))) :=
    List.mem_filter.mpr ⟨ht, by simp [hr, hfound]⟩
  simp only [checkPii, henabled, if_true, Option.isSome_map, checkPiiContent, if_neg hne, analyze]
  cases initialized with
  | false => rfl
  | true =>
    simp only [if_true]
    split
    · rfl
    next heq => simp [Option.some.inj heq] at hmem
    · rfl

/-- A match that the encoding leaves whole blocks the request. -/
theorem surviving_match_blocks (U : Classes) {F : Type} (floatstr : F → Text) (initialized : Bool) (config : PIIConfig)
    (henabled : config.enabled = true) {t : PIIType} (ht : t ∈ patternsToCheck config.piiTypes)
    {r : TextPattern Nat} (hr : piiPattern U t = some r) {body : Value F} {pre mid post : Text}
    (hs : Occurs (pre ++ (mid ++ post)) body) (hmatches : Matches U r pre mid post)
    (hsurvives : t = .email ∨ Survives U pre mid) : (checkPii U floatstr initialized (some config) body).isSome = true :=
  checkPii_isSome henabled ht hr (dumps_ne_nil floatstr hs)
    (piiPattern_survives hr hmatches hsurvives rfl (quoted_infix_body floatstr hs)) initialized

end Detection

def asciiClasses : Classes where
  decimal := isDigit
  space := fun c => decide (9 ≤ c ∧ c ≤ 13) || decide (28 ≤ c ∧ c ≤ 32)
  word := fun c => isDigit c || isLetter c || c = '_'.toNat
  decimal_ascii := fun _ _ => rfl
  space_ascii := fun _ _ => rfl
  word_ascii := fun _ _ => rfl
  word_of_decimal := by
    intro c h
    simp [h]

def promptBody (prompt : Text) : Value Empty := .obj [(text "prompt", .str prompt)]

theorem promptBody_occurs (prompt : Text) : Occurs prompt (promptBody prompt) :=
  .field (List.mem_singleton.mpr rfl) .here

theorem spaced_number_blocks :
    (checkPii asciiClasses Empty.elim true (some {}) (promptBody (text "my number: 123-45-6789."))).isSome = true :=
  surviving_match_blocks asciiClasses Empty.elim true {} rfl (t := .ssn) (by decide) rfl
    (promptBody_occurs (text "my number: " ++ (text "123-45-6789" ++ text ".")))
    (show _ ∈ _ by decide +kernel) (.inr ⟨by decide, by decide⟩)

/-- A line break before the number is written as a backslash and an n, and n123 is one word. -/
theorem line_break_hides_number :
    ¬ ∀ (config : PIIConfig) (t : PIIType) (r : TextPattern Nat) (body : Value Empty) (pre mid post : Text),
      config.enabled = true → t ∈ patternsToCheck config.piiTypes → piiPattern asciiClasses t = some r →
      Occurs (pre ++ (mid ++ post)) body → Matches asciiClasses r pre mid post →
      (checkPii asciiClasses Empty.elim true (some config) body).isSome = true := by
  intro h
  have hblocked := h {} .ssn _ (promptBody (text "\n123-45-6789")) (text "\n") (text "123-45-6789") [] rfl (by decide) rfl
    (promptBody_occurs _) (show _ ∈ _ by decide +kernel)
  have hthrough : checkPii asciiClasses Empty.elim true (some {}) (promptBody (text "\n123-45-6789")) = none := by
    decide +kernel
  rw [hthrough] at hblocked
  cases hblocked

end ProductionStack.PiiDetection
