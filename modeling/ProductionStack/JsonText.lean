import Mathlib.Data.List.Infix
import Mathlib.Data.List.Lex
import Mathlib.Data.List.Sort

namespace ProductionStack.JsonText

/-- A str as its code points, lone surrogates among them. -/
abbrev Text := List Nat

def text (s : String) : Text := s.toList.map Char.toNat

/-- What the json module reads and writes, over the floats. -/
inductive Value (F : Type)
  | null
  | bool (b : Bool)
  | int (n : Int)
  | float (x : F)
  | str (s : Text)
  | arr (items : List (Value F))
  | obj (fields : List (Text × Value F))

/-- A dict in the order of its keys. -/
abbrev Fields (F : Type) := List (Text × Value F)

section Strings

def hexDigit (n : Nat) : Nat := if n < 10 then '0'.toNat + n else 'a'.toNat + (n - 10)

def unicodeEscape (n : Nat) : Text :=
  ['\\'.toNat, 'u'.toNat, hexDigit (n / 4096 % 16), hexDigit (n / 256 % 16), hexDigit (n / 16 % 16), hexDigit (n % 16)]

def shortEscapes : List (Nat × Nat) :=
  [('\\'.toNat, '\\'.toNat), ('"'.toNat, '"'.toNat), (8, 'b'.toNat), (12, 'f'.toNat), ('\n'.toNat, 'n'.toNat),
    ('\r'.toNat, 'r'.toNat), ('\t'.toNat, 't'.toNat)]

/-- Beyond the basic plane an escape is a pair of surrogates. -/
def escapeCode (ensureAscii : Bool) (c : Nat) : Text :=
  match shortEscapes.lookup c with
  | some e => ['\\'.toNat, e]
  | none =>
    if c < 32 ∨ (ensureAscii = true ∧ 126 < c) then
      if c < 0x10000 then unicodeEscape c
      else unicodeEscape (0xD800 + (c - 0x10000) / 1024) ++ unicodeEscape (0xDC00 + (c - 0x10000) % 1024)
    else [c]

def escape (ensureAscii : Bool) (s : Text) : Text := s.flatMap (escapeCode ensureAscii)

def quoted (ensureAscii : Bool) (s : Text) : Text := '"'.toNat :: (escape ensureAscii s ++ ['"'.toNat])

end Strings

section Dumps

structure Style where
  ensureAscii : Bool
  itemSeparator : Text
  keySeparator : Text

def defaultStyle : Style := ⟨true, text ", ", text ": "⟩

def decimal (n : Nat) : Text := (Nat.toDigits 10 n).map Char.toNat

def intText (n : Int) : Text := if n < 0 then '-'.toNat :: decimal n.natAbs else decimal n.natAbs

variable {F : Type} (style : Style) (floatstr : F → Text)

mutual

def dumps : Value F → Text
  | .null => text "null"
  | .bool b => if b then text "true" else text "false"
  | .int n => intText n
  | .float x => floatstr x
  | .str s => quoted style.ensureAscii s
  | .arr items => '['.toNat :: (dumpsItems items ++ [']'.toNat])
  | .obj fields => '\x7b'.toNat :: (dumpsFields fields ++ ['\x7d'.toNat])

def dumpsItems : List (Value F) → Text
  | [] => []
  | item :: items => dumps item ++ dumpsMoreItems items

def dumpsMoreItems : List (Value F) → Text
  | [] => []
  | item :: items => style.itemSeparator ++ dumps item ++ dumpsMoreItems items

def dumpsFields : Fields F → Text
  | [] => []
  | (key, value) :: fields =>
    quoted style.ensureAscii key ++ style.keySeparator ++ dumps value ++ dumpsMoreFields fields

def dumpsMoreFields : Fields F → Text
  | [] => []
  | (key, value) :: fields =>
    style.itemSeparator ++ quoted style.ensureAscii key ++ style.keySeparator ++ dumps value ++
      dumpsMoreFields fields

end

def sortByKey (fields : Fields F) : Fields F := fields.insertionSort (fun a b => a.1 ≤ b.1)

mutual

/-- What sort_keys writes in place of a value. -/
def sortKeys : Value F → Value F
  | .arr items => .arr (sortItems items)
  | .obj fields => .obj (sortByKey (sortFields fields))
  | v => v

def sortItems : List (Value F) → List (Value F)
  | [] => []
  | item :: items => sortKeys item :: sortItems items

def sortFields : Fields F → Fields F
  | [] => []
  | (key, value) :: fields => (key, sortKeys value) :: sortFields fields

end

inductive Occurs (s : Text) : Value F → Prop
  | here : Occurs s (.str s)
  | item {value : Value F} {items : List (Value F)} (hmem : value ∈ items) (h : Occurs s value) : Occurs s (.arr items)
  | field {key : Text} {value : Value F} {fields : Fields F} (hmem : (key, value) ∈ fields)
      (h : Occurs s value) : Occurs s (.obj fields)

variable {style floatstr}

theorem dumps_infix_dumpsMoreItems {value : Value F} {items : List (Value F)} (h : value ∈ items) :
    dumps style floatstr value <:+: dumpsMoreItems style floatstr items := by
  induction items with
  | nil => cases h
  | cons item items ih =>
    rw [dumpsMoreItems]
    rcases List.mem_cons.mp h with rfl | h
    · exact List.infix_append _ _ _
    · exact (ih h).trans (List.suffix_append _ _).isInfix

theorem dumps_infix_dumpsItems {value : Value F} {items : List (Value F)} (h : value ∈ items) :
    dumps style floatstr value <:+: dumpsItems style floatstr items := by
  cases items with
  | nil => cases h
  | cons item items =>
    rw [dumpsItems]
    rcases List.mem_cons.mp h with rfl | h
    · exact (List.prefix_append _ _).isInfix
    · exact (dumps_infix_dumpsMoreItems h).trans (List.suffix_append _ _).isInfix

theorem field_infix_dumpsMoreFields {f : Text × Value F} {fields : Fields F} (h : f ∈ fields) :
    quoted style.ensureAscii f.1 ++ style.keySeparator ++ dumps style floatstr f.2 <:+:
      dumpsMoreFields style floatstr fields := by
  induction fields with
  | nil => cases h
  | cons field fields ih =>
    obtain ⟨key, value⟩ := field
    rw [dumpsMoreFields]
    rcases List.mem_cons.mp h with rfl | h
    · exact ⟨style.itemSeparator, dumpsMoreFields style floatstr fields, by simp⟩
    · exact (ih h).trans (List.suffix_append _ _).isInfix

theorem field_infix_dumpsFields {f : Text × Value F} {fields : Fields F} (h : f ∈ fields) :
    quoted style.ensureAscii f.1 ++ style.keySeparator ++ dumps style floatstr f.2 <:+: dumpsFields style floatstr fields := by
  cases fields with
  | nil => cases h
  | cons field fields =>
    obtain ⟨key, value⟩ := field
    rw [dumpsFields]
    rcases List.mem_cons.mp h with rfl | h
    · exact (List.prefix_append _ _).isInfix
    · exact (field_infix_dumpsMoreFields h).trans (List.suffix_append _ _).isInfix

theorem dumps_infix_dumpsFields {key : Text} {value : Value F} {fields : Fields F} (h : (key, value) ∈ fields) :
    dumps style floatstr value <:+: dumpsFields style floatstr fields :=
  (List.suffix_append _ _).isInfix.trans (field_infix_dumpsFields h)

theorem infix_brackets {inner : Text} (left right : Nat) : inner <:+: left :: (inner ++ [right]) :=
  ⟨[left], [right], rfl⟩

theorem quoted_infix_dumps {s : Text} {value : Value F} (h : Occurs s value) :
    quoted style.ensureAscii s <:+: dumps style floatstr value := by
  induction h with
  | here => rw [dumps]
  | item hmem _ ih =>
    rw [dumps]
    exact (ih.trans (dumps_infix_dumpsItems hmem)).trans (infix_brackets _ _)
  | field hmem _ ih =>
    rw [dumps]
    exact (ih.trans (dumps_infix_dumpsFields hmem)).trans (infix_brackets _ _)

end Dumps

end ProductionStack.JsonText
