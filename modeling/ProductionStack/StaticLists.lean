import Mathlib.Data.List.Basic
import ProductionStack.Endpoint
import ProductionStack.Regex
import ProductionStack.Separated

namespace ProductionStack.StaticLists

open Regex

/-- The code points of the digit zero in each script that has decimal digits;
the digits of one script are consecutive. -/
def decimalZeros : List Nat :=
  [0x30, 0x660, 0x6f0, 0x7c0, 0x966, 0x9e6, 0xa66, 0xae6, 0xb66, 0xbe6, 0xc66, 0xce6, 0xd66, 0xde6, 0xe50,
    0xed0, 0xf20, 0x1040, 0x1090, 0x17e0, 0x1810, 0x1946, 0x19d0, 0x1a80, 0x1a90, 0x1b50, 0x1bb0, 0x1c40,
    0x1c50, 0xa620, 0xa8d0, 0xa900, 0xa9d0, 0xa9f0, 0xaa50, 0xabf0, 0xff10, 0x104a0, 0x10d30, 0x11066,
    0x110f0, 0x11136, 0x111d0, 0x112f0, 0x11450, 0x114d0, 0x11650, 0x116c0, 0x11730, 0x118e0, 0x11950,
    0x11c50, 0x11d50, 0x11da0, 0x11f50, 0x16a60, 0x16ac0, 0x16b50, 0x1d7ce, 0x1d7d8, 0x1d7e2, 0x1d7ec,
    0x1d7f6, 0x1e140, 0x1e2f0, 0x1e4f0, 0x1e950, 0x1fbf0]

/-- The class `\d` of a pattern on str. -/
def isDecimal (c : Char) : Bool := decimalZeros.any (fun z => z ≤ c.toNat && c.toNat < z + 10)

def isLetter (c : Char) : Bool := ('a' ≤ c && c ≤ 'z') || ('A' ≤ c && c ≤ 'Z')

def isNameChar (c : Char) : Bool := isLetter c || ('0' ≤ c && c ≤ '9') || c = '_' || c = '-'

def domainName : Regex :=
  seq (plus (seq (plus (chars isNameChar)) (char '.'))) (seq (exactly (chars isLetter) 2) (star (chars isLetter)))

def octet : Regex := seq (chars isDecimal) (upTo (chars isDecimal) 2)

def ipv4 : Regex := seq octet (exactly (seq (char '.') octet) 3)

/-- The dollar sign also matches before a last line feed, which the dot does not match. -/
def urlPattern : Regex :=
  seq (alt (literal "http") (literal "https")) <|
  seq (literal "://") <|
  seq (alt domainName (alt (literal "localhost") ipv4)) <|
  seq (optional (seq (char ':') (plus (chars isDecimal)))) <|
  seq (optional (seq (char '/') (star (chars (· ≠ '\n'))))) (optional (char '\n'))

def validateUrl (url : String) : Bool := urlPattern.accepts url

def split (separator : Char) (text : String) : List String :=
  (text.toList.splitOn separator).map String.ofList

section Split

variable {separator : Char} {text part : String} {parts : List String}

theorem split_join (h : parts ≠ []) :
    split separator ((String.singleton separator).intercalate parts) = parts.flatMap (split separator) := by
  have hsep : (String.singleton separator).toList = [separator] := by simp
  rw [split, String.toList_intercalate, hsep, Separated.splitOn_intercalate_eq_flatMap (by simpa using h),
    List.map_flatMap, List.flatMap_map]
  rfl

theorem mem_split : part ∈ split separator text ↔ part.toList ∈ text.toList.splitOn separator := by
  rw [split, List.mem_map]
  constructor
  · rintro ⟨chars, hchars, rfl⟩
    rwa [String.toList_ofList]
  · intro h
    exact ⟨part.toList, h, String.ofList_toList⟩

theorem notMem_of_mem_split (h : part ∈ split separator text) : separator ∉ part.toList :=
  Separated.notMem_of_mem_splitOn (mem_split.mp h)

theorem isInfix_of_mem_split (h : part ∈ split separator text) : part.toList <:+: text.toList :=
  Separated.isInfix_of_mem_splitOn (mem_split.mp h)

theorem split_eq_singleton (h : separator ∉ text.toList) : split separator text = [text] := by
  rw [split, List.splitOn_eq_singleton h, List.map_singleton, String.ofList_toList]

theorem flatMap_split_eq_self : parts.flatMap (split separator) = parts ↔ ∀ part ∈ parts, separator ∉ part.toList := by
  constructor
  · intro h part hpart
    rw [← h] at hpart
    obtain ⟨_, -, hpart⟩ := List.mem_flatMap.mp hpart
    exact notMem_of_mem_split hpart
  · intro h
    calc parts.flatMap (split separator) = parts.flatMap (fun part => [part]) :=
          List.flatMap_congr (fun part hpart => split_eq_singleton (h part hpart))
      _ = parts := List.flatMap_singleton' parts

theorem split_two {first second : String} (hfirst : separator ∉ first.toList) (hsecond : separator ∉ second.toList) :
    split separator (first ++ String.singleton separator ++ second) = [first, second] := by
  have hchars : (first ++ String.singleton separator ++ second).toList = first.toList ++ separator :: second.toList := by
    simp
  rw [split, hchars, List.splitOn_append_cons_self_of_not_mem hfirst, List.splitOn_eq_singleton hsecond]
  simp

end Split

/-- A missing string has no split method. -/
def parseStaticUrls : Option String → Except Exc (List String)
  | none => .error .attributeError
  | some staticBackends => .ok ((split ',' staticBackends).filter validateUrl)

def parseCommaSeparatedArgs (text : Option String) : Option (List String) := text.map (split ',')

def unpackAlias : List String → Except Exc (String × String)
  | [name, model] => .ok (name, model)
  | [] => .error (.valueError "not enough values to unpack (expected 2, got 0)")
  | [_] => .error (.valueError "not enough values to unpack (expected 2, got 1)")
  | _ => .error (.valueError "too many values to unpack (expected 2)")

def parseStaticAliases (staticAliases : String) : Except Exc (Dict String String) := do
  let pairs ← (split ',' staticAliases).mapM (fun aliasAndModel => unpackAlias (split ':' aliasAndModel))
  return .ofList pairs

example : parseStaticUrls (some "http://localhost:8000,ftp://10.0.0.1,https://10.0.0.1/v1") =
    .ok ["http://localhost:8000", "https://10.0.0.1/v1"] := by decide

end ProductionStack.StaticLists
