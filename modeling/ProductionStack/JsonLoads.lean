import ProductionStack.Dict
import ProductionStack.JsonText

namespace ProductionStack.JsonText

/-- JSONDecodeError, the ValueError of an integer with too many digits, or the RecursionError of a bracket
that is too deep. -/
inductive LoadError
  | jsonDecodeError
  | valueError
  | recursionError
  deriving DecidableEq, Repr

section Scanning

def isSpace (c : Nat) : Bool := c = ' '.toNat || c = '\t'.toNat || c = '\n'.toNat || c = '\r'.toNat

def skip (t : Text) : Text := t.dropWhile isSpace

def isDigit (c : Nat) : Bool := '0'.toNat ≤ c && c ≤ '9'.toNat

def hexValue (c : Nat) : Option Nat :=
  if isDigit c then some (c - '0'.toNat)
  else if 'a'.toNat ≤ c ∧ c ≤ 'f'.toNat then some (c - 'a'.toNat + 10)
  else if 'A'.toNat ≤ c ∧ c ≤ 'F'.toNat then some (c - 'A'.toNat + 10)
  else none

def backslashes : List (Nat × Nat) := ('/'.toNat, '/'.toNat) :: shortEscapes.map Prod.swap

/-- Where the scanner stands: among characters, after a backslash, or inside an escape with some of its
four digits read. -/
inductive Mode
  | plain
  | escaped
  | hex (digits value : Nat)

def push (cs : Text) (rest : Option (Text × Text)) : Option (Text × Text) := rest.map (fun r => (cs ++ r.1, r.2))

def isHigh (n : Nat) : Bool := 0xD800 ≤ n && n ≤ 0xDBFF

def isLow (n : Nat) : Bool := 0xDC00 ≤ n && n ≤ 0xDFFF

/-- What an escape adds to the string, after a high surrogate that is still pending or none; a high
surrogate is kept back, for it may be the first of a pair. -/
def unit (pending : Option Nat) (n : Nat) : Text × Option Nat :=
  match pending with
  | some high =>
    if isLow n then ([0x10000 + (high - 0xD800) * 1024 + (n - 0xDC00)], none)
    else if isHigh n then ([high], some n)
    else ([high, n], none)
  | none => if isHigh n then ([], some n) else ([n], none)

/-- The string up to its closing quote, and what follows. -/
def scanFrom : Mode → Option Nat → Text → Option (Text × Text)
  | _, _, [] => none
  | .plain, pending, c :: t =>
    if c = '"'.toNat then some (pending.toList, t)
    else if c = '\\'.toNat then scanFrom .escaped pending t
    else if c < 32 then none
    else push (pending.toList ++ [c]) (scanFrom .plain none t)
  | .escaped, pending, c :: t =>
    if c = 'u'.toNat then scanFrom (.hex 0 0) pending t
    else
      match backslashes.lookup c with
      | some e => push (pending.toList ++ [e]) (scanFrom .plain none t)
      | none => none
  | .hex digits value, pending, c :: t =>
    match hexValue c with
    | none => none
    | some d =>
      if digits = 3 then
        push (unit pending (value * 16 + d)).1 (scanFrom .plain (unit pending (value * 16 + d)).2 t)
      else scanFrom (.hex (digits + 1) (value * 16 + d)) pending t

def scanString (t : Text) : Option (Text × Text) := scanFrom .plain none t

def scanSign (signs : Text) : Text → Text × Text
  | [] => ([], [])
  | c :: t => if signs.contains c then ([c], t) else ([], c :: t)

def scanWhole : Text → Option (Text × Text)
  | [] => none
  | c :: t =>
    if c = '0'.toNat then some ([c], t)
    else if isDigit c then some (c :: t.takeWhile isDigit, t.dropWhile isDigit)
    else none

def scanFraction : Text → Text × Text
  | [] => ([], [])
  | c :: t =>
    if c = '.'.toNat ∧ t.takeWhile isDigit ≠ [] then (c :: t.takeWhile isDigit, t.dropWhile isDigit)
    else ([], c :: t)

def scanExponent : Text → Text × Text
  | [] => ([], [])
  | c :: t =>
    let digits := (scanSign (text "+-") t).2
    if (c = 'e'.toNat ∨ c = 'E'.toNat) ∧ digits.takeWhile isDigit ≠ [] then
      (c :: ((scanSign (text "+-") t).1 ++ digits.takeWhile isDigit), digits.dropWhile isDigit)
    else ([], c :: t)

structure Token where
  sign : Text
  whole : Text
  fraction : Text
  exponent : Text
  deriving DecidableEq

def Token.text (k : Token) : Text := k.sign ++ (k.whole ++ (k.fraction ++ k.exponent))

def scanNumber (t : Text) : Option (Token × Text) := do
  let (sign, t) := scanSign (text "-") t
  let (whole, t) ← scanWhole t
  let (fraction, t) := scanFraction t
  let (exponent, t) := scanExponent t
  return (⟨sign, whole, fraction, exponent⟩, t)

def scanLiteral (name t : Text) : Option Text := if name.isPrefixOf t then some (t.drop name.length) else none

end Scanning

section Parsing

def ofDecimal (digits : Text) : Nat := digits.foldl (fun n c => 10 * n + (c - '0'.toNat)) 0

def intOf (k : Token) : Int := if k.sign = [] then ofDecimal k.whole else -ofDecimal k.whole

/-- How many digits an integer may have (sys.get_int_max_str_digits) and how many brackets may be open at
once: the C code of the json module calls itself at each of them, to read as to write. -/
structure Limits where
  digits : Nat
  depth : Nat
  deriving DecidableEq

/-- What is left inside a bracket. -/
def Limits.deeper (limits : Limits) : Limits := ⟨limits.digits, limits.depth - 1⟩

structure Token.WellFormed (k : Token) : Prop where
  sign : k.sign = [] ∨ k.sign = ['-'.toNat]
  whole : k.whole = ['0'.toNat] ∨
    ∃ d ds, k.whole = d :: ds ∧ isDigit d = true ∧ d ≠ '0'.toNat ∧ ∀ c ∈ ds, isDigit c = true
  fraction : k.fraction = [] ∨ ∃ ds, k.fraction = '.'.toNat :: ds ∧ ds ≠ [] ∧ ∀ c ∈ ds, isDigit c = true
  exponent : k.exponent = [] ∨ ∃ e sign ds, k.exponent = e :: (sign ++ ds) ∧ (e = 'e'.toNat ∨ e = 'E'.toNat) ∧
    (sign = [] ∨ sign = ['+'.toNat] ∨ sign = ['-'.toNat]) ∧ ds ≠ [] ∧ ∀ c ∈ ds, isDigit c = true

/-- The interpreter: what its floats are written as, what float reads, and its limits. -/
structure Runtime (F : Type) where
  floatstr : F → Text
  float : Text → F
  nan : F
  infinity : F
  negInfinity : F
  limits : Limits
  float_floatstr : ∀ x,
    (∃ k : Token, floatstr x = k.text ∧ k.WellFormed ∧ (k.fraction ≠ [] ∨ k.exponent ≠ []) ∧ float k.text = x) ∨
    (x = nan ∧ floatstr x = text "NaN") ∨ (x = infinity ∧ floatstr x = text "Infinity") ∨
    (x = negInfinity ∧ floatstr x = text "-Infinity")

def unitFloats : Runtime Unit where
  floatstr := fun _ => text "0.0"
  float := fun _ => ()
  nan := ()
  infinity := ()
  negInfinity := ()
  limits := ⟨4300, 1000⟩
  float_floatstr := fun _ => .inl ⟨⟨[], text "0", text ".0", []⟩, rfl,
    ⟨.inl rfl, .inl rfl, .inr ⟨text "0", rfl, by decide, by decide⟩, .inl rfl⟩, .inl (by decide), rfl⟩

variable {F : Type} (fmt : Runtime F)

def numberOf (limits : Limits) (k : Token) : Except LoadError (Value F) :=
  if k.fraction = [] ∧ k.exponent = [] then
    if limits.digits < k.whole.length then .error .valueError else .ok (.int (intOf k))
  else .ok (.float (fmt.float k.text))

def constants : Fields F :=
  [(text "NaN", .float fmt.nan), (text "Infinity", .float fmt.infinity), (text "-Infinity", .float fmt.negInfinity)]

def scanLiterals (literals : Fields F) (t : Text) : Option (Value F × Text) :=
  literals.findSome? (fun l => (scanLiteral l.1 t).map (fun rest => (l.2, rest)))

def keywords : Fields F := [(text "null", .null), (text "true", .bool true), (text "false", .bool false)]

def parseAtom (limits : Limits) (t : Text) : Except LoadError (Value F × Text) :=
  match scanLiterals keywords t with
  | some found => .ok found
  | none =>
    match scanNumber t with
    | some (k, rest) => (numberOf fmt limits k).map (·, rest)
    | none =>
      match scanLiterals (constants fmt) t with
      | some found => .ok found
      | none => .error .jsonDecodeError

def expect (c : Nat) : Text → Except LoadError Text
  | [] => .error .jsonDecodeError
  | d :: t => if d = c then .ok t else .error .jsonDecodeError

def parseString (t : Text) : Except LoadError (Text × Text) := do
  let t ← expect '"'.toNat t
  match scanString t with
  | some found => return found
  | none => throw .jsonDecodeError

/-- After an item: the end, or a comma and the start of the next item. -/
def separator (close : Nat) (t : Text) : Except LoadError (Bool × Text) :=
  match skip t with
  | [] => .error .jsonDecodeError
  | d :: t => if d = close then .ok (true, t) else (expect ','.toNat (d :: t)).map (fun t => (false, skip t))

/-- A key that comes twice has its last value. -/
def dictOf (fields : Fields F) : Fields F :=
  fields.foldl (fun fields f => Dict.assign f.1 f.2 fields) []

mutual

/-- scan_once. No character uses up more than two of the fuel. -/
def parseValue : Limits → Nat → Text → Except LoadError (Value F × Text)
  | _, 0, _ => .error .jsonDecodeError
  | _, _, [] => .error .jsonDecodeError
  | limits, fuel + 1, c :: t =>
    if c = '"'.toNat then (parseString (c :: t)).map (fun r => (.str r.1, r.2))
    else if c = '['.toNat then
      if limits.depth = 0 then .error .recursionError
      else
        match skip t with
        | [] => .error .jsonDecodeError
        | d :: t =>
          if d = ']'.toNat then .ok (.arr [], t)
          else (parseItems limits.deeper fuel (d :: t)).map (fun r => (.arr r.1, r.2))
    else if c = '\x7b'.toNat then
      if limits.depth = 0 then .error .recursionError
      else
        match skip t with
        | [] => .error .jsonDecodeError
        | d :: t =>
          if d = '\x7d'.toNat then .ok (.obj [], t)
          else (parseFields limits.deeper fuel (d :: t)).map (fun r => (.obj (dictOf r.1), r.2))
    else parseAtom fmt limits (c :: t)

def parseItems : Limits → Nat → Text → Except LoadError (List (Value F) × Text)
  | _, 0, _ => .error .jsonDecodeError
  | limits, fuel + 1, t => do
      let (item, t) ← parseValue limits fuel t
      let (closed, t) ← separator ']'.toNat t
      if closed then return ([item], t)
      else
        let (items, t) ← parseItems limits fuel t
        return (item :: items, t)

def parseFields : Limits → Nat → Text → Except LoadError (Fields F × Text)
  | _, 0, _ => .error .jsonDecodeError
  | limits, fuel + 1, t => do
      let (key, t) ← parseString t
      let t ← expect ':'.toNat (skip t)
      let (value, t) ← parseValue limits fuel (skip t)
      let (closed, t) ← separator '\x7d'.toNat t
      if closed then return ([(key, value)], t)
      else
        let (fields, t) ← parseFields limits fuel t
        return ((key, value) :: fields, t)

end

/-- Whether a text is JSON, with no integer and no nesting beyond the limits, and what it says. -/
def loadsWithin (limits : Limits) (t : Text) : Except LoadError (Value F) := do
  let (value, rest) ← parseValue fmt limits (2 * (skip t).length + 1) (skip t)
  if skip rest = [] then return value else throw .jsonDecodeError

def loads (t : Text) : Except LoadError (Value F) := loadsWithin fmt fmt.limits t

end Parsing

end ProductionStack.JsonText
