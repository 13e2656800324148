import ProductionStack.JsonReads

namespace ProductionStack.JsonText

section Sorting

variable {F : Type}

variable (fields : Fields F)

theorem sortFields_eq_map : sortFields fields = fields.map (fun f => (f.1, sortKeys f.2)) := by
  induction fields with
  | nil => rfl
  | cons field fields ih =>
    obtain ⟨key, value⟩ := field
    rw [sortFields, ih, List.map_cons]

theorem properFields_iff {limits : Limits} {fields : Fields F} :
    ProperFields limits fields ↔ ∀ field ∈ fields, Proper limits field.2 := by
  induction fields with
  | nil => simp [ProperFields]
  | cons field fields ih =>
    obtain ⟨key, value⟩ := field
    rw [ProperFields, ih, List.forall_mem_cons]

theorem sortByKey_perm : (sortByKey fields).Perm fields :=
  List.perm_insertionSort _ fields

theorem sortByKey_sorted : (sortByKey fields).Pairwise (fun a b => a.1 ≤ b.1) := by
  have htotal : Std.Total (fun a b : Text × Value F => a.1 ≤ b.1) := ⟨fun a b => le_total a.1 b.1⟩
  have htrans : IsTrans (Text × Value F) (fun a b => a.1 ≤ b.1) := ⟨fun _ _ _ => le_trans⟩
  exact List.pairwise_insertionSort _ fields

theorem sortFields_sortByKey : sortFields (sortByKey fields) = sortByKey (sortFields fields) := by
  rw [sortFields_eq_map, sortFields_eq_map]
  exact List.map_insertionSort _ _ _ _ (fun _ _ _ _ => Iff.rfl)

theorem sortByKey_idem : sortByKey (sortByKey fields) = sortByKey fields :=
  (sortByKey_sorted fields).insertionSort_eq

mutual

theorem sortKeys_idem : ∀ v : Value F, sortKeys (sortKeys v) = sortKeys v
  | .null | .bool _ | .int _ | .float _ | .str _ => rfl
  | .arr items => congrArg Value.arr (sortItems_idem items)
  | .obj fields => by
      rw [sortKeys, sortKeys, sortFields_sortByKey, sortFields_idem fields, sortByKey_idem]

theorem sortItems_idem : ∀ items : List (Value F), sortItems (sortItems items) = sortItems items
  | [] => rfl
  | item :: items => by rw [sortItems, sortItems, sortKeys_idem item, sortItems_idem items]

theorem sortFields_idem : ∀ fields : Fields F, sortFields (sortFields fields) = sortFields fields
  | [] => rfl
  | (key, value) :: fields => by rw [sortFields, sortFields, sortKeys_idem value, sortFields_idem fields]

end

theorem keys_sortFields : (sortFields fields).map Prod.fst = fields.map Prod.fst := by
  rw [sortFields_eq_map, List.map_map]
  rfl

mutual

theorem proper_sortKeys : ∀ {limits : Limits} (v : Value F), Proper limits v → Proper limits (sortKeys v)
  | _, .null, h | _, .bool _, h | _, .int _, h | _, .float _, h | _, .str _, h => h
  | _, .arr items, h => ⟨h.1, properItems_sortItems items h.2⟩
  | _, .obj fields, h => by
      have hkeys : ((sortByKey (sortFields fields)).map Prod.fst).Perm (fields.map Prod.fst) := by
        have hperm := (sortByKey_perm (sortFields fields)).map Prod.fst
        rwa [keys_sortFields] at hperm
      refine ⟨hkeys.nodup_iff.mpr h.1, h.2.1, properFields_iff.mpr ?_⟩
      intro field hfield
      exact properFields_iff.mp (properFields_sortFields fields h.2.2) field ((sortByKey_perm _).mem_iff.mp hfield)

theorem properItems_sortItems : ∀ {limits : Limits} (items : List (Value F)), ProperItems limits items →
    ProperItems limits (sortItems items)
  | _, [], _ => trivial
  | _, item :: items, h => ⟨proper_sortKeys item h.1, properItems_sortItems items h.2⟩

theorem properFields_sortFields : ∀ {limits : Limits} (fields : Fields F), ProperFields limits fields →
    ProperFields limits (sortFields fields)
  | _, [], _ => trivial
  | _, (_, value) :: fields, h => ⟨proper_sortKeys value h.1, properFields_sortFields fields h.2⟩

end

end Sorting

section Canonical

variable {F : Type}

theorem eq_of_sorted {fields fields' : Fields F} (hperm : fields.Perm fields')
    (hnodup : (fields.map Prod.fst).Nodup) (hsorted : fields.Pairwise (fun a b => a.1 ≤ b.1))
    (hsorted' : fields'.Pairwise (fun a b => a.1 ≤ b.1)) : fields = fields' := by
  refine List.Perm.eq_of_pairwise ?_ hsorted hsorted' hperm
  intro a b ha hb hab hba
  exact List.inj_on_of_nodup_map hnodup ha (hperm.mem_iff.mpr hb) (le_antisymm hab hba)

theorem sortKeys_obj_congr {fields fields' : Fields F} (hnodup : (fields.map Prod.fst).Nodup)
    (hperm : (sortFields fields).Perm (sortFields fields')) : sortKeys (.obj fields) = sortKeys (.obj fields') := by
  have hkeys : ((sortByKey (sortFields fields)).map Prod.fst).Nodup := by
    rw [((sortByKey_perm _).map Prod.fst).nodup_iff, keys_sortFields]
    exact hnodup
  have hsame : (sortByKey (sortFields fields)).Perm (sortByKey (sortFields fields')) :=
    (sortByKey_perm _).trans (hperm.trans (sortByKey_perm _).symm)
  exact congrArg Value.obj (eq_of_sorted hsame hkeys (sortByKey_sorted _) (sortByKey_sorted _))

def without (key : Text) (fields : Fields F) : Fields F :=
  fields.filter (fun f => f.1 ≠ key)

variable {key : Text} {fields : Fields F}

theorem without_nodup (h : (fields.map Prod.fst).Nodup) : ((without key fields).map Prod.fst).Nodup :=
  h.sublist (List.filter_sublist.map Prod.fst)

theorem sortFields_without (key : Text) (fields : Fields F) :
    sortFields (without key fields) = without key (sortFields fields) := by
  rw [sortFields_eq_map, sortFields_eq_map, without, without, List.filter_map]
  rfl

def find (key : Text) (fields : Fields F) : Option (Value F) :=
  @List.lookup Text (Value F) instBEqOfDecidableEq key fields

theorem find_cons (key key' : Text) (value : Value F) (fields : Fields F) :
    find key ((key', value) :: fields) = if key = key' then some value else find key fields :=
  Dict.lookup_cons_ite key' key value fields

theorem find_assign (key key' : Text) (value : Value F) (fields : Fields F) :
    find key (Dict.assign key' value fields) = if key = key' then some value else find key fields :=
  Dict.assign_lookup key' value fields key

theorem find_without (key key' : Text) (fields : Fields F) :
    find key (without key' fields) = if key = key' then none else find key fields :=
  Dict.filter_ne_lookup fields key key'

theorem find_eq_none : find key fields = none ↔ key ∉ fields.map Prod.fst :=
  Dict.lookup_eq_none

theorem without_assign (h : find key fields = none) (value : Value F) :
    without key (Dict.assign key value fields) = fields := by
  rw [find_eq_none] at h
  rw [Dict.assign_of_notMem key value fields h, without, List.filter_append]
  have hall : fields.filter (fun f => f.1 ≠ key) = fields := by
    rw [List.filter_eq_self]
    intro f hf
    exact decide_eq_true (fun heq => h (List.mem_map.mpr ⟨f, hf, heq⟩))
  rw [hall]
  simp

theorem find_sortFields (key : Text) (fields : Fields F) : find key (sortFields fields) = (find key fields).map sortKeys := by
  induction fields with
  | nil => rfl
  | cons field fields ih =>
    obtain ⟨key', value⟩ := field
    rw [sortFields, find_cons, find_cons, ih]
    split <;> rfl

theorem find_sortByKey (h : (fields.map Prod.fst).Nodup) (key : Text) :
    find key (sortByKey (sortFields fields)) = (find key fields).map sortKeys := by
  rw [← find_sortFields]
  have hnodup : ((sortFields fields).map Prod.fst).Nodup := by rwa [keys_sortFields]
  exact (Dict.lookup_perm (sortByKey_perm _).symm hnodup key).symm

theorem sortKeys_without_sorted (h : (fields.map Prod.fst).Nodup) :
    sortKeys (.obj (without key (sortByKey (sortFields fields)))) = sortKeys (.obj (without key fields)) := by
  refine (sortKeys_obj_congr (without_nodup h) ?_).symm
  rw [sortFields_without, sortFields_without, sortFields_sortByKey, sortFields_idem]
  exact ((sortByKey_perm _).filter _).symm

theorem perm_without {value : Value F} (h : (fields.map Prod.fst).Nodup) (hvalue : find key fields = some value) :
    fields.Perm ((key, value) :: without key fields) := by
  have hone : fields.filter (fun f => f.1 = key) = ((find key fields).map (fun v => (key, v))).toList :=
    Dict.filter_eq_lookup fields h key
  rw [hvalue] at hone
  have hsplit := List.filter_append_perm (fun f : Text × Value F => decide (f.1 = key)) fields
  rw [hone] at hsplit
  have hrest : fields.filter (fun f => !decide (f.1 = key)) = without key fields := by
    rw [without]
    exact List.filter_congr (fun f _ => by simp)
  rw [hrest] at hsplit
  exact hsplit.symm

/-- A dict is fixed, up to the order of its keys, by one of its values and the others. -/
theorem sortKeys_eq_of_without {fields fields' : Fields F} {value : Value F} (h : (fields.map Prod.fst).Nodup)
    (h' : (fields'.map Prod.fst).Nodup) (hvalue : find key fields = some value) (hvalue' : find key fields' = some value)
    (hrest : sortKeys (.obj (without key fields)) = sortKeys (.obj (without key fields'))) :
    sortKeys (.obj fields) = sortKeys (.obj fields') := by
  have hsorted : sortByKey (sortFields (without key fields)) = sortByKey (sortFields (without key fields')) :=
    Value.obj.inj hrest
  have hwithout : (sortFields (without key fields)).Perm (sortFields (without key fields')) := by
    have hperm := (sortByKey_perm (sortFields (without key fields))).symm
    rw [hsorted] at hperm
    exact hperm.trans (sortByKey_perm _)
  have hcons : ∀ {fields : Fields F}, (fields.map Prod.fst).Nodup → find key fields = some value →
      (sortFields fields).Perm ((key, sortKeys value) :: sortFields (without key fields)) := by
    intro fields hnodup hfound
    have hperm := perm_without hnodup hfound
    rw [sortFields_eq_map, sortFields_eq_map]
    exact hperm.map _
  refine sortKeys_obj_congr h ?_
  exact (hcons h hvalue).trans ((hwithout.cons _).trans (hcons h' hvalue').symm)

variable (fmt : Runtime F)

/-- json.dumps with sorted keys and no white space. -/
def canonical (v : Value F) : Text := dumps compact fmt.floatstr (sortKeys v)

variable {fmt}

theorem loads_canonical {v : Value F} (hv : Proper fmt.limits v) {t : Text} (ht : ∀ c ∈ t, isSpace c = true) :
    loads fmt (canonical fmt v ++ t) = .ok (sortKeys v) :=
  loadsWithin_dumps fmt (proper_sortKeys v hv) ht

theorem canonical_inj {v w : Value F} (hv : Proper fmt.limits v) (hw : Proper fmt.limits w)
    (h : canonical fmt v = canonical fmt w) : sortKeys v = sortKeys w := by
  have hread : loads fmt (canonical fmt v ++ []) = .ok (sortKeys v) :=
    loads_canonical hv (fun _ hc => absurd hc List.not_mem_nil)
  rw [h, loads_canonical hw (fun _ hc => absurd hc List.not_mem_nil)] at hread
  exact (Except.ok.inj hread).symm

end Canonical

section Characters

variable {F : Type} {fmt : Runtime F}

/-- A character of a string or of a key of the value, at any depth. -/
inductive Spelt (c : Nat) : Value F → Prop
  | str {s : Text} (h : c ∈ s) : Spelt c (.str s)
  | item {value : Value F} {items : List (Value F)} (hmem : value ∈ items) (h : Spelt c value) : Spelt c (.arr items)
  | key {field : Text × Value F} {fields : Fields F} (hmem : field ∈ fields) (h : c ∈ field.1) :
      Spelt c (.obj fields)
  | field {field : Text × Value F} {fields : Fields F} (hmem : field ∈ fields) (h : Spelt c field.2) :
      Spelt c (.obj fields)

def Written (c : Nat) (spelt : Prop) : Prop := 32 ≤ c ∧ (c < 127 ∨ spelt)

variable {c : Nat}

theorem Written.mono {p q : Prop} (h : Written c p) (hpq : p → q) : Written c q := ⟨h.1, h.2.imp_right hpq⟩

theorem written_of_ascii {t : Text} (ht : ∀ c ∈ t, 32 ≤ c ∧ c < 127) (h : c ∈ t) (p : Prop) : Written c p :=
  ⟨(ht c h).1, .inl (ht c h).2⟩

theorem hexDigit_ascii (n : Nat) : 32 ≤ hexDigit (n % 16) ∧ hexDigit (n % 16) < 127 := by
  have hn : n % 16 < 16 := Nat.mod_lt n (by decide)
  rw [hexDigit]
  simp only [Char.reduceToNat]
  split <;> omega

theorem unicodeEscape_ascii (n : Nat) : ∀ c ∈ unicodeEscape n, 32 ≤ c ∧ c < 127 := by
  have hhex := hexDigit_ascii
  simp only [unicodeEscape, List.mem_cons, List.not_mem_nil, or_false, Char.reduceToNat]
  rintro c (rfl | rfl | rfl | rfl | rfl | rfl)
  · decide
  · decide
  all_goals exact hhex _

theorem mem_escapeCode {ensureAscii : Bool} {c d : Nat} (h : c ∈ escapeCode ensureAscii d) :
    Written c (ensureAscii = false ∧ c = d) := by
  have hshort : ∀ e ∈ shortEscapes, 32 ≤ e.2 ∧ e.2 < 127 := by decide
  rw [escapeCode] at h
  split at h
  next e he =>
    obtain ⟨l, r, hsplit, -⟩ := List.lookup_eq_some_iff.mp he
    have hascii := hshort (d, e) (by simp [hsplit])
    refine written_of_ascii ?_ h _
    simpa using hascii
  next =>
    split at h
    next =>
      split at h
      · exact written_of_ascii (unicodeEscape_ascii d) h _
      · rcases List.mem_append.mp h with h | h
        · exact written_of_ascii (unicodeEscape_ascii _) h _
        · exact written_of_ascii (unicodeEscape_ascii _) h _
    next hplain =>
      obtain rfl := List.mem_singleton.mp h
      rw [not_or, not_and] at hplain
      refine ⟨by omega, ?_⟩
      cases ensureAscii with
      | true => exact .inl (by have := hplain.2 rfl; omega)
      | false => exact .inr ⟨rfl, rfl⟩

theorem mem_quoted {ensureAscii : Bool} {s : Text} (h : c ∈ quoted ensureAscii s) :
    Written c (ensureAscii = false ∧ c ∈ s) := by
  rw [quoted, List.mem_cons, List.mem_append, List.mem_singleton] at h
  rcases h with rfl | h | rfl
  · exact ⟨by decide, .inl (by decide)⟩
  · obtain ⟨d, hd, hc⟩ := List.mem_flatMap.mp h
    refine (mem_escapeCode hc).mono ?_
    rintro ⟨hascii, heq⟩
    exact ⟨hascii, heq ▸ hd⟩
  · exact ⟨by decide, .inl (by decide)⟩

theorem isDigit_ascii (h : isDigit c = true) : 32 ≤ c ∧ c < 127 := by
  simp [isDigit] at h
  omega

theorem Token.WellFormed.ascii {k : Token} (hk : k.WellFormed) : ∀ c ∈ k.text, 32 ≤ c ∧ c < 127 := by
  intro c hc
  simp only [Token.text, List.mem_append] at hc
  rcases hc with hc | hc | hc | hc
  · rcases hk.sign with hsign | hsign
    all_goals
      rw [hsign] at hc
      simp at hc
    omega
  · rcases hk.whole with hwhole | ⟨d, ds, hwhole, hd, -, hds⟩
    · rw [hwhole] at hc
      simp at hc
      omega
    · rw [hwhole, List.mem_cons] at hc
      rcases hc with rfl | hc
      · exact isDigit_ascii hd
      · exact isDigit_ascii (hds c hc)
  · rcases hk.fraction with hfraction | ⟨ds, hfraction, -, hds⟩
    · simp [hfraction] at hc
    · rw [hfraction, List.mem_cons] at hc
      rcases hc with rfl | hc
      · decide
      · exact isDigit_ascii (hds c hc)
  · rcases hk.exponent with hexponent | ⟨e, sign, ds, hexponent, he, hsign, -, hds⟩
    · simp [hexponent] at hc
    · rw [hexponent, List.mem_cons, List.mem_append] at hc
      rcases hc with rfl | hc | hc
      · rcases he with rfl | rfl <;> decide
      · rcases hsign with rfl | rfl | rfl
        all_goals simp at hc
        all_goals omega
      · exact isDigit_ascii (hds c hc)

theorem floatstr_ascii (x : F) : ∀ c ∈ fmt.floatstr x, 32 ≤ c ∧ c < 127 := by
  rcases fmt.float_floatstr x with ⟨k, htext, hk, -, -⟩ | ⟨-, htext⟩ | ⟨-, htext⟩ | ⟨-, htext⟩
  · rw [htext]
    exact hk.ascii
  all_goals
    rw [htext]
    decide

theorem intText_ascii (n : Int) : ∀ c ∈ intText n, 32 ≤ c ∧ c < 127 := by
  rw [← intToken_text]
  exact (intToken_wellFormed n).ascii

def Style.Printable (style : Style) : Prop := ∀ c ∈ style.itemSeparator ++ style.keySeparator, 32 ≤ c ∧ c < 127

theorem Style.Printable.item {style : Style} (h : style.Printable) (hc : c ∈ style.itemSeparator) (p : Prop) : Written c p :=
  written_of_ascii h (List.mem_append_left _ hc) p

theorem Style.Printable.key {style : Style} (h : style.Printable) (hc : c ∈ style.keySeparator) (p : Prop) : Written c p :=
  written_of_ascii h (List.mem_append_right _ hc) p

variable (fmt) {style : Style}

theorem dumpsItems_subset {items : List (Value F)} (h : c ∈ dumpsItems style fmt.floatstr items) :
    c ∈ dumpsMoreItems style fmt.floatstr items := by
  cases items with
  | nil => exact h
  | cons item items =>
    rw [dumpsMoreItems, List.append_assoc]
    exact List.mem_append_right _ h

theorem dumpsFields_subset {fields : Fields F} (h : c ∈ dumpsFields style fmt.floatstr fields) :
    c ∈ dumpsMoreFields style fmt.floatstr fields := by
  cases fields with
  | nil => exact h
  | cons f fields =>
    rw [dumpsFields] at h
    rw [dumpsMoreFields]
    simp only [List.append_assoc] at h ⊢
    exact List.mem_append_right _ h

mutual

/-- Nothing that is written is a control character, a line break among them, and with escapes for all
other characters it is ASCII. -/
theorem mem_dumps (hstyle : style.Printable) : ∀ (v : Value F) (c : Nat), c ∈ dumps style fmt.floatstr v →
    Written c (style.ensureAscii = false ∧ Spelt c v)
  | .null, c, h => written_of_ascii (t := text "null") (by decide) h _
  | .bool b, c, h => by
      rw [dumps] at h
      cases b with
      | true => exact written_of_ascii (t := text "true") (by decide) h _
      | false => exact written_of_ascii (t := text "false") (by decide) h _
  | .int n, c, h => written_of_ascii (intText_ascii n) h _
  | .float x, c, h => written_of_ascii (floatstr_ascii x) h _
  | .str s, c, h => (mem_quoted h).mono (fun hs => hs.imp_right .str)
  | .arr items, c, h => by
      rw [dumps, List.mem_cons, List.mem_append, List.mem_singleton] at h
      rcases h with rfl | h | rfl
      · exact ⟨by decide, .inl (by decide)⟩
      · refine (mem_dumpsMoreItems hstyle items c (dumpsItems_subset fmt h)).mono (fun hs => hs.imp_right ?_)
        exact fun ⟨_, hmem, hspelt⟩ => .item hmem hspelt
      · exact ⟨by decide, .inl (by decide)⟩
  | .obj fields, c, h => by
      rw [dumps, List.mem_cons, List.mem_append, List.mem_singleton] at h
      rcases h with rfl | h | rfl
      · exact ⟨by decide, .inl (by decide)⟩
      · refine (mem_dumpsMoreFields hstyle fields c (dumpsFields_subset fmt h)).mono (fun hs => hs.imp_right ?_)
        exact fun ⟨_, hmem, hspelt⟩ => hspelt.elim (.key hmem) (.field hmem)
      · exact ⟨by decide, .inl (by decide)⟩

theorem mem_dumpsMoreItems (hstyle : style.Printable) : ∀ (items : List (Value F)) (c : Nat),
    c ∈ dumpsMoreItems style fmt.floatstr items → Written c (style.ensureAscii = false ∧ ∃ v ∈ items, Spelt c v)
  | [], _, h => by cases h
  | item :: items, c, h => by
      rw [dumpsMoreItems, List.mem_append, List.mem_append] at h
      rcases h with (h | h) | h
      · exact hstyle.item h _
      · exact (mem_dumps hstyle item c h).mono (fun hs => hs.imp_right (fun hspelt => ⟨item, List.mem_cons_self, hspelt⟩))
      · refine (mem_dumpsMoreItems hstyle items c h).mono (fun hs => hs.imp_right ?_)
        exact fun ⟨v, hmem, hspelt⟩ => ⟨v, List.mem_cons_of_mem _ hmem, hspelt⟩

theorem mem_dumpsMoreFields (hstyle : style.Printable) : ∀ (fields : Fields F) (c : Nat),
    c ∈ dumpsMoreFields style fmt.floatstr fields →
      Written c (style.ensureAscii = false ∧ ∃ f ∈ fields, c ∈ f.1 ∨ Spelt c f.2)
  | [], _, h => by cases h
  | (key, value) :: fields, c, h => by
      rw [dumpsMoreFields, List.mem_append, List.mem_append, List.mem_append, List.mem_append] at h
      rcases h with (((h | h) | h) | h) | h
      · exact hstyle.item h _
      · exact (mem_quoted h).mono (fun hs => hs.imp_right (fun hkey => ⟨_, List.mem_cons_self, .inl hkey⟩))
      · exact hstyle.key h _
      · exact (mem_dumps hstyle value c h).mono (fun hs => hs.imp_right (fun hspelt => ⟨_, List.mem_cons_self, .inr hspelt⟩))
      · refine (mem_dumpsMoreFields hstyle fields c h).mono (fun hs => hs.imp_right ?_)
        exact fun ⟨f, hmem, hf⟩ => ⟨f, List.mem_cons_of_mem _ hmem, hf⟩

end

theorem printable_compact : compact.Printable := by
  rw [Style.Printable]
  decide

theorem printable_default : defaultStyle.Printable := by
  rw [Style.Printable]
  decide

variable {fmt}

mutual

theorem spelt_sortKeys (c : Nat) : ∀ v : Value F, Spelt c (sortKeys v) → Spelt c v
  | .null, h | .bool _, h | .int _, h | .float _, h | .str _, h => h
  | .arr items, h => by
      cases h with
      | item hmem h =>
        obtain ⟨v, hv, hspelt⟩ := spelt_sortItems c items _ hmem h
        exact .item hv hspelt
  | .obj fields, h => by
      cases h with
      | key hmem h =>
        rw [(sortByKey_perm _).mem_iff, sortFields_eq_map] at hmem
        obtain ⟨f, hf, rfl⟩ := List.mem_map.mp hmem
        exact .key hf h
      | field hmem h =>
        obtain ⟨f, hf, hspelt⟩ := spelt_sortFields c fields _ ((sortByKey_perm _).mem_iff.mp hmem) h
        exact .field hf hspelt

theorem spelt_sortItems (c : Nat) : ∀ (items : List (Value F)) (w : Value F), w ∈ sortItems items → Spelt c w →
    ∃ v ∈ items, Spelt c v
  | [], _, hmem, _ => by cases hmem
  | item :: items, w, hmem, h => by
      rw [sortItems, List.mem_cons] at hmem
      rcases hmem with rfl | hmem
      · exact ⟨item, List.mem_cons_self, spelt_sortKeys c item h⟩
      · obtain ⟨v, hv, hspelt⟩ := spelt_sortItems c items w hmem h
        exact ⟨v, List.mem_cons_of_mem _ hv, hspelt⟩

theorem spelt_sortFields (c : Nat) : ∀ (fields : Fields F) (g : Text × Value F), g ∈ sortFields fields →
    Spelt c g.2 → ∃ f ∈ fields, Spelt c f.2
  | [], _, hmem, _ => by cases hmem
  | (key, value) :: fields, g, hmem, h => by
      rw [sortFields, List.mem_cons] at hmem
      rcases hmem with rfl | hmem
      · exact ⟨_, List.mem_cons_self, spelt_sortKeys c value h⟩
      · obtain ⟨f, hf, hspelt⟩ := spelt_sortFields c fields g hmem h
        exact ⟨f, List.mem_cons_of_mem _ hf, hspelt⟩

end

theorem mem_canonical {v : Value F} (h : c ∈ canonical fmt v) : Written c (Spelt c v) :=
  (mem_dumps fmt printable_compact _ c h).mono (fun hs => spelt_sortKeys c v hs.2)

theorem mem_quoted_of_mem {s : Text} (h : c ∈ s) (hc : 127 ≤ c) : c ∈ quoted false s := by
  have hlookup : shortEscapes.lookup c = none := by
    have hall : ∀ e ∈ shortEscapes, e.1 < 127 := by decide
    refine List.lookup_eq_none_iff.mpr (fun e he => ?_)
    have := hall e he
    simp
    omega
  have hcode : escapeCode false c = [c] := by
    rw [escapeCode, hlookup]
    dsimp only
    rw [if_neg (by simp; omega)]
  have hescape : c ∈ escape false s := List.mem_flatMap.mpr ⟨c, h, by simp [hcode]⟩
  rw [quoted, List.mem_cons, List.mem_append]
  exact .inr (.inl hescape)

theorem mem_dumps_of_spelt {floatstr : F → Text} (hstyle : style.ensureAscii = false) {v : Value F}
    (h : Spelt c v) (hc : 127 ≤ c) : c ∈ dumps style floatstr v := by
  induction h with
  | str h =>
    rw [dumps, hstyle]
    exact mem_quoted_of_mem h hc
  | item hmem _ ih =>
    rw [dumps]
    exact ((dumps_infix_dumpsItems hmem).trans (infix_brackets _ _)).subset ih
  | key hmem h =>
    rw [dumps]
    have hkey := mem_quoted_of_mem h hc
    rw [← hstyle] at hkey
    exact ((field_infix_dumpsFields hmem).trans (infix_brackets _ _)).subset
      (List.mem_append_left _ (List.mem_append_left _ hkey))
  | field hmem _ ih =>
    rw [dumps]
    exact ((dumps_infix_dumpsFields hmem).trans (infix_brackets _ _)).subset ih

theorem mem_sortItems {v : Value F} {items : List (Value F)} (h : v ∈ items) : sortKeys v ∈ sortItems items := by
  induction items with
  | nil => cases h
  | cons item items ih =>
    rw [sortItems]
    rcases List.mem_cons.mp h with rfl | h
    · exact List.mem_cons_self
    · exact List.mem_cons_of_mem _ (ih h)

theorem spelt_sortKeys_of_spelt {v : Value F} (h : Spelt c v) : Spelt c (sortKeys v) := by
  have hfield : ∀ {f : Text × Value F} {fields : Fields F}, f ∈ fields →
      (f.1, sortKeys f.2) ∈ sortByKey (sortFields fields) := by
    intro f fields hf
    rw [(sortByKey_perm _).mem_iff, sortFields_eq_map]
    exact List.mem_map_of_mem hf
  induction h with
  | str h => exact .str h
  | item hmem _ ih => exact .item (mem_sortItems hmem) ih
  | key hmem h => exact .key (hfield hmem) h
  | field hmem _ ih => exact .field (hfield hmem) ih

theorem mem_canonical_of_spelt {v : Value F} (h : Spelt c v) (hc : 127 ≤ c) : c ∈ canonical fmt v :=
  mem_dumps_of_spelt rfl (spelt_sortKeys_of_spelt h) hc

end Characters

end ProductionStack.JsonText
