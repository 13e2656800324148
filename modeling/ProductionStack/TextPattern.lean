import Mathlib.Data.List.Basic
import Mathlib.Logic.Relation

namespace ProductionStack

/-- Regular expressions as re reads them, with the boundary of a word as an assertion. -/
inductive TextPattern (α : Type)
  | epsilon
  | chars (p : α → Bool)
  | seq (r s : TextPattern α)
  | alt (r s : TextPattern α)
  | star (r : TextPattern α)
  | boundary

namespace TextPattern

variable {α : Type}

structure Place (α : Type) where
  before : Option α
  rest : List α
  deriving DecidableEq

section Matching

variable (word : α → Bool)

def Place.atBoundary (a : Place α) : Bool := a.before.any word != a.rest.head?.any word

def iterate (next : Place α → List (Place α)) : Nat → Place α → List (Place α)
  | 0, a => [a]
  | fuel + 1, a => a :: (next a).flatMap (iterate next fuel)

/-- The places where a match that starts at the place may end. -/
def ends : TextPattern α → Place α → List (Place α)
  | epsilon, a => [a]
  | chars p, a =>
    match a.rest with
    | [] => []
    | c :: rest => if p c then [⟨some c, rest⟩] else []
  | seq r s, a => (r.ends a).flatMap s.ends
  | alt r s, a => r.ends a ++ s.ends a
  | star r, a => iterate r.ends a.rest.length a
  | boundary, a => if a.atBoundary word then [a] else []

def places : Option α → List α → List (Place α)
  | before, [] => [⟨before, []⟩]
  | before, c :: rest => ⟨before, c :: rest⟩ :: places (some c) rest

def found (r : TextPattern α) (text : List α) : Bool := (places none text).any (fun a => !(r.ends word a).isEmpty)

end Matching

section Repetition

def optional (r : TextPattern α) : TextPattern α := alt r epsilon

def plus (r : TextPattern α) : TextPattern α := seq r (star r)

def exactly (r : TextPattern α) : Nat → TextPattern α
  | 0 => epsilon
  | n + 1 => seq r (exactly r n)

def upTo (r : TextPattern α) : Nat → TextPattern α
  | 0 => epsilon
  | n + 1 => optional (seq r (upTo r n))

def between (r : TextPattern α) (least most : Nat) : TextPattern α := seq (exactly r least) (upTo r (most - least))

end Repetition

section Consumption

structure Consumes (a b : Place α) (mid : List α) : Prop where
  rest : a.rest = mid ++ b.rest
  before : b.before = mid.getLast?.or a.before

theorem Consumes.refl (a : Place α) : Consumes a a [] := ⟨rfl, rfl⟩

theorem Consumes.trans {a b c : Place α} {mid mid' : List α} (h : Consumes a b mid) (h' : Consumes b c mid') :
    Consumes a c (mid ++ mid') := by
  refine ⟨?_, ?_⟩
  · rw [h.rest, h'.rest, List.append_assoc]
  · rw [h'.before, h.before, List.getLast?_append, Option.or_assoc]

variable {a b : Place α} {next : Place α → List (Place α)}

theorem Consumes.eq_of_nil (h : Consumes a b []) : b = a := by
  obtain ⟨before, rest⟩ := b
  obtain ⟨hrest, hbefore⟩ := h
  simp only [List.nil_append, List.getLast?_nil, Option.none_or] at hrest hbefore
  rw [hbefore, ← hrest]

variable {word : α → Bool}

theorem reflTransGen_of_mem_iterate {fuel : Nat}
    (h : b ∈ iterate next fuel a) : Relation.ReflTransGen (fun x y => y ∈ next x) a b := by
  induction fuel generalizing a with
  | zero =>
    obtain rfl := List.mem_singleton.mp h
    exact .refl
  | succ fuel ih =>
    rcases List.mem_cons.mp h with rfl | h
    · exact .refl
    · obtain ⟨c, hc, hb⟩ := List.mem_flatMap.mp h
      exact .head hc (ih hb)

theorem consumes_of_reflTransGen (hnext : ∀ x y, y ∈ next x → ∃ mid, Consumes x y mid)
    (h : Relation.ReflTransGen (fun x y => y ∈ next x) a b) : ∃ mid, Consumes a b mid := by
  induction h with
  | refl => exact ⟨[], .refl a⟩
  | tail _ hstep ih =>
    obtain ⟨mid, hmid⟩ := ih
    obtain ⟨mid', hmid'⟩ := hnext _ _ hstep
    exact ⟨mid ++ mid', hmid.trans hmid'⟩

theorem ends_consumes {r : TextPattern α} (h : b ∈ r.ends word a) : ∃ mid, Consumes a b mid := by
  induction r generalizing a b with
  | epsilon =>
    obtain rfl := List.mem_singleton.mp h
    exact ⟨[], .refl b⟩
  | chars p =>
    obtain ⟨before, rest⟩ := a
    cases rest with
    | nil => cases h
    | cons c rest =>
      rw [ends] at h
      dsimp only at h
      split at h
      · obtain rfl := List.mem_singleton.mp h
        exact ⟨[c], rfl, rfl⟩
      · cases h
  | seq r s ihr ihs =>
    obtain ⟨c, hc, hb⟩ := List.mem_flatMap.mp h
    obtain ⟨mid, hmid⟩ := ihr hc
    obtain ⟨mid', hmid'⟩ := ihs hb
    exact ⟨mid ++ mid', hmid.trans hmid'⟩
  | alt r s ihr ihs =>
    rcases List.mem_append.mp h with h | h
    · exact ihr h
    · exact ihs h
  | star r ih => exact consumes_of_reflTransGen (fun x y hy => ih hy) (reflTransGen_of_mem_iterate h)
  | boundary =>
    rw [ends] at h
    split at h
    · obtain rfl := List.mem_singleton.mp h
      exact ⟨[], .refl b⟩
    · cases h

theorem mem_iterate_of_reflTransGen (hnext : ∀ x y, y ∈ next x → ∃ mid, Consumes x y mid)
    (h : Relation.ReflTransGen (fun x y => y ∈ next x) a b) {fuel : Nat} (hfuel : a.rest.length ≤ fuel) :
    b ∈ iterate next fuel a := by
  induction h using Relation.ReflTransGen.head_induction_on generalizing fuel with
  | refl => cases fuel <;> simp [iterate]
  | head hstep _ ih =>
    obtain ⟨mid, hmid⟩ := hnext _ _ hstep
    -- A step that reads nothing stays at its place and costs no fuel.
    cases mid with
    | nil =>
      obtain rfl := hmid.eq_of_nil
      exact ih hfuel
    | cons c mid =>
      rw [hmid.rest, List.length_append, List.length_cons] at hfuel
      obtain ⟨fuel, rfl⟩ : ∃ n, fuel = n + 1 := ⟨fuel - 1, by omega⟩
      exact List.mem_cons_of_mem _ (List.mem_flatMap.mpr ⟨_, hstep, ih (by omega)⟩)

end Consumption

section Membership

variable {word : α → Bool} {r s : TextPattern α} {a b : Place α}

@[simp] theorem mem_ends_epsilon : b ∈ (epsilon : TextPattern α).ends word a ↔ b = a := List.mem_singleton

theorem mem_ends_chars {p : α → Bool} :
    b ∈ (chars p).ends word a ↔ ∃ c, a.rest = c :: b.rest ∧ p c = true ∧ b.before = some c := by
  obtain ⟨before, rest⟩ := a
  cases rest with
  | nil => simp [ends]
  | cons c rest =>
    obtain ⟨before', rest'⟩ := b
    by_cases hp : p c = true
    · simp only [ends, hp, if_true, List.mem_singleton, Place.mk.injEq, List.cons.injEq]
      constructor
      · rintro ⟨rfl, rfl⟩
        exact ⟨c, ⟨rfl, rfl⟩, hp, rfl⟩
      · rintro ⟨d, ⟨rfl, rfl⟩, _, rfl⟩
        exact ⟨rfl, rfl⟩
    · simp only [ends, hp, if_false, List.not_mem_nil, List.cons.injEq, false_iff, Bool.false_eq_true]
      rintro ⟨d, ⟨rfl, _⟩, hd, _⟩
      exact hp hd

theorem mem_ends_seq : b ∈ (seq r s).ends word a ↔ ∃ c ∈ r.ends word a, b ∈ s.ends word c := List.mem_flatMap

theorem mem_ends_alt : b ∈ (alt r s).ends word a ↔ b ∈ r.ends word a ∨ b ∈ s.ends word a := List.mem_append

theorem mem_ends_star : b ∈ (star r).ends word a ↔ Relation.ReflTransGen (fun x y => y ∈ r.ends word x) a b :=
  ⟨reflTransGen_of_mem_iterate, fun h => mem_iterate_of_reflTransGen (fun _ _ hy => ends_consumes hy) h (Nat.le_refl _)⟩

theorem mem_ends_boundary : b ∈ (boundary : TextPattern α).ends word a ↔ b = a ∧ a.atBoundary word = true := by
  rw [ends]
  by_cases h : a.atBoundary word = true <;> simp [h]

theorem mem_ends_optional : b ∈ (optional r).ends word a ↔ b ∈ r.ends word a ∨ b = a := by
  rw [optional, mem_ends_alt, mem_ends_epsilon]

theorem places_append (before : Option α) (pre rest : List α) :
    ⟨pre.getLast?.or before, rest⟩ ∈ places before (pre ++ rest) := by
  induction pre generalizing before with
  | nil =>
    cases rest with
    | nil => exact List.mem_singleton.mpr rfl
    | cons c rest => exact List.mem_cons_self ..
  | cons c pre ih =>
    rw [List.cons_append, places, List.getLast?_cons]
    have hlast : (some (pre.getLast?.getD c)).or before = pre.getLast?.or (some c) := by
      cases pre.getLast? <;> rfl
    rw [hlast]
    exact List.mem_cons_of_mem _ (ih (some c))

theorem found_of_mem_ends {pre rest : List α} (h : b ∈ r.ends word ⟨pre.getLast?, rest⟩) :
    r.found word (pre ++ rest) = true := by
  rw [found, List.any_eq_true]
  refine ⟨⟨pre.getLast?, rest⟩, ?_, ?_⟩
  · have hplace := places_append none pre rest
    rwa [Option.or_none] at hplace
  · rw [Bool.not_eq_true', List.isEmpty_eq_false_iff]
    exact List.ne_nil_of_mem h

end Membership

section Context

variable (word : α → Bool)

def asserts : TextPattern α → Bool
  | epsilon => false
  | chars _ => false
  | seq r s => r.asserts || s.asserts
  | alt r s => r.asserts || s.asserts
  | star r => r.asserts
  | boundary => true

structure Alike (before before' : Option α) (x y : List α) : Prop where
  before : before.any word = before'.any word
  after : x.head?.any word = y.head?.any word

variable {word}

theorem Alike.prepend {before before' : Option α} {x y : List α} (h : Alike word before before' x y) (mid : List α) :
    Alike word before before' (mid ++ x) (mid ++ y) := by
  refine ⟨h.before, ?_⟩
  cases mid with
  | nil => exact h.after
  | cons c mid => rfl

theorem Alike.advance {before before' : Option α} {x y : List α} (h : Alike word before before' x y) (mid : List α) :
    Alike word (mid.getLast?.or before) (mid.getLast?.or before') x y := by
  refine ⟨?_, h.after⟩
  cases mid.getLast? with
  | none => exact h.before
  | some c => rfl

theorem star_transfer {r : TextPattern α} {x y : List α}
    (hr : ∀ {before before' : Option α} {mid x y : List α}, (r.asserts = true → Alike word before before' x y) →
      ⟨mid.getLast?.or before, x⟩ ∈ r.ends word ⟨before, mid ++ x⟩ →
      ⟨mid.getLast?.or before', y⟩ ∈ r.ends word ⟨before', mid ++ y⟩)
    {a b : Place α} (h : Relation.ReflTransGen (fun u v => v ∈ r.ends word u) a b) (hb : b.rest = x)
    {before' : Option α} {mid : List α} (ha : a.rest = mid ++ x)
    (halike : r.asserts = true → Alike word a.before before' x y) :
    Relation.ReflTransGen (fun u v => v ∈ r.ends word u) ⟨before', mid ++ y⟩ ⟨mid.getLast?.or before', y⟩ := by
  induction h using Relation.ReflTransGen.head_induction_on generalizing before' mid with
  | refl =>
    have hmid : mid = [] := by simpa [hb] using ha
    subst hmid
    exact .refl
  | head hstep hrun ih =>
    obtain ⟨mid₁, h₁⟩ := ends_consumes hstep
    obtain ⟨mid₂, h₂⟩ := consumes_of_reflTransGen (fun _ _ hy => ends_consumes hy) hrun
    have h₂rest := h₂.rest
    rw [hb] at h₂rest
    have ha' := h₁.rest
    rw [ha, h₂rest, ← List.append_assoc] at ha'
    obtain rfl : mid = mid₁ ++ mid₂ := List.append_cancel_right ha'
    rw [List.append_assoc, List.getLast?_append, Option.or_assoc]
    refine .head (hr (x := mid₂ ++ x) (fun hr => (halike hr).prepend mid₂) ?_)
      (ih h₂rest (fun hr => h₁.before ▸ (halike hr).advance mid₁))
    rw [← List.append_assoc, ← ha, ← h₁.before, ← h₂rest]
    exact hstep

/-- A match does not depend on what stands around it, as far as its boundaries do not. -/
theorem ends_transfer {r : TextPattern α} {before before' : Option α} {mid x y : List α}
    (halike : r.asserts = true → Alike word before before' x y)
    (h : ⟨mid.getLast?.or before, x⟩ ∈ r.ends word ⟨before, mid ++ x⟩) :
    ⟨mid.getLast?.or before', y⟩ ∈ r.ends word ⟨before', mid ++ y⟩ := by
  induction r generalizing before before' mid x y with
  | epsilon =>
    have hmid : mid = [] := by simpa using congrArg Place.rest (mem_ends_epsilon.mp h)
    subst hmid
    exact mem_ends_epsilon.mpr rfl
  | chars p =>
    obtain ⟨c, hrest, hp, -⟩ := mem_ends_chars.mp h
    have hmid : mid = [c] := List.append_cancel_right hrest
    subst hmid
    exact mem_ends_chars.mpr ⟨c, rfl, hp, rfl⟩
  | seq r s ihr ihs =>
    obtain ⟨c, hc, hb⟩ := mem_ends_seq.mp h
    obtain ⟨mid₁, h₁⟩ := ends_consumes hc
    obtain ⟨mid₂, h₂⟩ := ends_consumes hb
    obtain rfl : mid = mid₁ ++ mid₂ := List.append_cancel_right ((h₁.trans h₂).rest)
    obtain rfl : c = ⟨mid₁.getLast?.or before, mid₂ ++ x⟩ := by
      rw [← h₁.before, ← h₂.rest]
    rw [List.append_assoc] at hc ⊢
    rw [List.getLast?_append, Option.or_assoc] at hb ⊢
    rw [asserts, Bool.or_eq_true] at halike
    refine mem_ends_seq.mpr ⟨⟨mid₁.getLast?.or before', mid₂ ++ y⟩, ?_, ?_⟩
    · exact ihr (fun hr => (halike (.inl hr)).prepend mid₂) hc
    · exact ihs (fun hs => (halike (.inr hs)).advance mid₁) hb
  | alt r s ihr ihs =>
    rw [asserts, Bool.or_eq_true] at halike
    rcases mem_ends_alt.mp h with h | h
    · exact mem_ends_alt.mpr (.inl (ihr (fun hr => halike (.inl hr)) h))
    · exact mem_ends_alt.mpr (.inr (ihs (fun hs => halike (.inr hs)) h))
  | star r ih =>
    rw [asserts] at halike
    rw [mem_ends_star] at h ⊢
    exact star_transfer (fun h h' => ih h h') h rfl rfl halike
  | boundary =>
    obtain ⟨heq, hboundary⟩ := mem_ends_boundary.mp h
    have hmid : mid = [] := by simpa using congrArg Place.rest heq
    subst hmid
    refine mem_ends_boundary.mpr ⟨rfl, ?_⟩
    have hside := halike rfl
    simpa [Place.atBoundary, ← hside.before, ← hside.after] using hboundary

end Context

section Alphabet

variable {word : α → Bool}

/-- Every class of the pattern is part of the alphabet. -/
def Within (P : α → Prop) : TextPattern α → Prop
  | epsilon => True
  | chars p => ∀ c, p c = true → P c
  | seq r s => r.Within P ∧ s.Within P
  | alt r s => r.Within P ∧ s.Within P
  | star r => r.Within P
  | boundary => True

variable {r : TextPattern α}

theorem ends_within {P : α → Prop} (hr : r.Within P) {a b : Place α} (h : b ∈ r.ends word a) :
    ∃ mid, Consumes a b mid ∧ ∀ c ∈ mid, P c := by
  have hnil : ∀ a : Place α, ∃ mid, Consumes a a mid ∧ ∀ c ∈ mid, P c := fun a => ⟨[], .refl a, by simp⟩
  have htrans : ∀ {a b c : Place α}, (∃ mid, Consumes a b mid ∧ ∀ c ∈ mid, P c) →
      (∃ mid, Consumes b c mid ∧ ∀ c ∈ mid, P c) → ∃ mid, Consumes a c mid ∧ ∀ c ∈ mid, P c := by
    rintro a b c ⟨mid, hmid, hP⟩ ⟨mid', hmid', hP'⟩
    refine ⟨mid ++ mid', hmid.trans hmid', ?_⟩
    intro d hd
    rcases List.mem_append.mp hd with hd | hd
    · exact hP d hd
    · exact hP' d hd
  induction r generalizing a b with
  | epsilon => exact mem_ends_epsilon.mp h ▸ hnil a
  | chars p =>
    obtain ⟨c, hrest, hp, hbefore⟩ := mem_ends_chars.mp h
    refine ⟨[c], ⟨hrest, hbefore⟩, ?_⟩
    intro d hd
    exact List.mem_singleton.mp hd ▸ hr c hp
  | seq r s ihr ihs =>
    obtain ⟨c, hc, hb⟩ := mem_ends_seq.mp h
    exact htrans (ihr hr.1 hc) (ihs hr.2 hb)
  | alt r s ihr ihs =>
    rcases mem_ends_alt.mp h with h | h
    · exact ihr hr.1 h
    · exact ihs hr.2 h
  | star r ih =>
    have hrun := mem_ends_star.mp h
    clear h
    induction hrun with
    | refl => exact hnil a
    | tail _ hstep ihrun => exact htrans ihrun (ih hr hstep)
  | boundary => exact (mem_ends_boundary.mp h).1 ▸ hnil a

theorem within_exactly {P : α → Prop} (h : r.Within P) (n : Nat) : (exactly r n).Within P := by
  induction n with
  | zero => trivial
  | succ n ih => exact ⟨h, ih⟩

theorem within_upTo {P : α → Prop} (h : r.Within P) (n : Nat) : (upTo r n).Within P := by
  induction n with
  | zero => trivial
  | succ n ih => exact ⟨⟨h, ih⟩, trivial⟩

theorem within_between {P : α → Prop} (h : r.Within P) (least most : Nat) : (between r least most).Within P :=
  ⟨within_exactly h least, within_upTo h (most - least)⟩

end Alphabet

section Trimming

variable (word : α → Bool) (p q : α → Bool)

/-- The match that ends at b can be cut back to one that ends on p, where it stands or before q. -/
def CutBack (r : TextPattern α) (a b : Place α) : Prop :=
  ∃ b' ∈ r.ends word a, ∃ tail, Consumes b' b tail ∧ b'.before.any p = true ∧ ∀ c ∈ tail.head?, q c = true

def Settles (r : TextPattern α) : Prop := ∀ a b, b ∈ r.ends word a → CutBack word p q r a b

structure MaySettle (r : TextPattern α) : Prop where
  skips : ∀ a, a ∈ r.ends word a
  settles : ∀ a b, b ∈ r.ends word a → b = a ∨ CutBack word p q r a b

variable {word p q}

theorem CutBack.mono {r s : TextPattern α} {a c b : Place α} (h : CutBack word p q r c b)
    (hrs : ∀ b', b' ∈ r.ends word c → b' ∈ s.ends word a) : CutBack word p q s a b := by
  obtain ⟨b', hb', hlast⟩ := h
  exact ⟨b', hrs b' hb', hlast⟩

theorem settles_chars : Settles word p q (chars p) := by
  intro a b h
  obtain ⟨c, _, hp, hbefore⟩ := mem_ends_chars.mp h
  exact ⟨b, h, [], .refl b, by simpa [hbefore] using hp, by simp⟩

theorem Settles.seq {r s : TextPattern α} (hs : Settles word p q s) : Settles word p q (seq r s) := by
  intro a b h
  obtain ⟨c, hc, hb⟩ := mem_ends_seq.mp h
  exact (hs c b hb).mono (fun b' hb' => mem_ends_seq.mpr ⟨c, hc, hb'⟩)

theorem Settles.seq_may {r s : TextPattern α} (hr : Settles word p q r) (hs : MaySettle word p q s) :
    Settles word p q (TextPattern.seq r s) := by
  intro a b h
  obtain ⟨c, hc, hb⟩ := mem_ends_seq.mp h
  rcases hs.settles c b hb with rfl | hcut
  · exact (hr a b hc).mono (fun b' hb' => mem_ends_seq.mpr ⟨b', hb', hs.skips b'⟩)
  · exact hcut.mono (fun b' hb' => mem_ends_seq.mpr ⟨c, hc, hb'⟩)

variable {r : TextPattern α}

theorem Settles.optional (hr : Settles word p q r) : MaySettle word p q (optional r) := by
  refine ⟨fun a => mem_ends_optional.mpr (.inr rfl), ?_⟩
  intro a b h
  rcases mem_ends_optional.mp h with h | rfl
  · exact .inr ((hr a b h).mono (fun b' hb' => mem_ends_optional.mpr (.inl hb')))
  · exact .inl rfl

theorem maySettle_epsilon : MaySettle word p q epsilon :=
  ⟨fun _ => mem_ends_epsilon.mpr rfl, fun _ _ h => .inl (mem_ends_epsilon.mp h)⟩

theorem Settles.upTo (hr : Settles word p q r) (n : Nat) : MaySettle word p q (upTo r n) := by
  induction n with
  | zero => exact maySettle_epsilon
  | succ n ih => exact (hr.seq_may ih).optional

theorem Settles.exactly (hr : Settles word p q r) (n : Nat) : Settles word p q (exactly r (n + 1)) := by
  induction n with
  | zero => exact hr.seq_may maySettle_epsilon
  | succ n ih => exact ih.seq

theorem Settles.between (hr : Settles word p q r) (least most : Nat) : Settles word p q (between r (least + 1) most) :=
  (hr.exactly least).seq_may (hr.upTo _)

theorem settles_seq_star : Settles word p q (seq (chars p) (star (chars q))) := by
  intro a b h
  obtain ⟨c, hc, hb⟩ := mem_ends_seq.mp h
  have hlast : c.before.any p = true := by
    obtain ⟨_, _, hp, hbefore⟩ := mem_ends_chars.mp hc
    simpa [hbefore] using hp
  have hcut : c ∈ (TextPattern.seq (chars p) (star (chars q))).ends word a :=
    mem_ends_seq.mpr ⟨c, hc, mem_ends_star.mpr .refl⟩
  have hrun := mem_ends_star.mp hb
  rcases hrun.cases_head with rfl | ⟨d, hd, hrun⟩
  · exact ⟨c, hcut, [], .refl c, hlast, by simp⟩
  · obtain ⟨e, hrest, hq, hbefore⟩ := mem_ends_chars.mp hd
    obtain ⟨tail, htail⟩ := ends_consumes (mem_ends_star.mpr hrun)
    have hfirst : Consumes c d [e] := ⟨hrest, hbefore⟩
    exact ⟨c, hcut, e :: tail, hfirst.trans htail, hlast, by simpa using hq⟩

/-- With p inside the words and q outside, a match up to a boundary has one that ends with a word. -/
theorem Settles.boundary (hr : Settles word p q r) (hp : ∀ c, p c = true → word c = true)
    (hq : ∀ c, q c = true → word c = false) {a b : Place α} (h : b ∈ (TextPattern.seq r boundary).ends word a) :
    ∃ b' ∈ (TextPattern.seq r TextPattern.boundary).ends word a, ∃ tail, Consumes b' b tail ∧
      b'.rest.head?.any word = false := by
  obtain ⟨c, hc, hb⟩ := mem_ends_seq.mp h
  obtain ⟨rfl, hboundary⟩ := mem_ends_boundary.mp hb
  obtain ⟨b', hb', tail, htail, hlast, hhead⟩ := hr a b hc
  have hword : b'.before.any word = true := by
    cases hbefore : b'.before with
    | none => simp [hbefore] at hlast
    | some c => exact hp c (by simpa [hbefore] using hlast)
  have hafter : b'.rest.head?.any word = false := by
    cases tail with
    | nil =>
      obtain rfl := htail.eq_of_nil
      simpa [Place.atBoundary, hword] using hboundary
    | cons e tail => simpa [htail.rest] using hq e (hhead e rfl)
  refine ⟨b', mem_ends_seq.mpr ⟨b', hb', mem_ends_boundary.mpr ⟨rfl, ?_⟩⟩, tail, htail, hafter⟩
  rw [Place.atBoundary, hword, hafter]
  rfl

end Trimming

end TextPattern

end ProductionStack
