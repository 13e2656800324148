import ProductionStack.PosixFiles

namespace ProductionStack.Posix

open JsonText Utf8Text Command

section Normpath

/-- Exactly two slashes in front are kept, any other number of them is one. -/
def initialSlashes (t : Text) : Nat :=
  if isAbsolute t = false then 0
  else if [slash, slash].isPrefixOf t && [slash, slash, slash].isPrefixOf t = false then 2
  else 1

def keepName (initial : Nat) (kept : List Text) (name : Text) : List Text :=
  if name = [] ∨ name = [46] then kept
  else if name ≠ [46, 46] ∨ (initial = 0 ∧ kept = []) ∨ kept.getLast? = some [46, 46] then kept ++ [name]
  else kept.dropLast

def spell (initial : Nat) (names : List Text) : Text := List.replicate initial slash ++ [slash].intercalate names

/-- os.path.normpath. -/
def normpath (t : Text) : Text :=
  if t = [] then [46]
  else
    let path := spell (initialSlashes t) ((components t).foldl (keepName (initialSlashes t)) [])
    if path = [] then [46] else path

/-- os.path.abspath, with the text of os.getcwd. -/
def abspath (getcwd t : Text) : Text := normpath (if isAbsolute t then t else join getcwd t)

def parts (t : Text) : List Text := (components t).filter (fun name => name ≠ [])

end Normpath

section Settling

/-- One name further: the empty name and the dot stay, two dots go up. -/
def settleName (kept : List Text) (name : Text) : List Text :=
  if name = [] ∨ name = [46] then kept else if name = [46, 46] then kept.dropLast else kept ++ [name]

def settle (kept names : List Text) : List Text := names.foldl settleName kept

structure IsPart (name : Text) : Prop where
  nonempty : name ≠ []
  slash : slash ∉ name
  dot : name ≠ [46]
  dots : name ≠ [46, 46]

def Settled (names : List Text) : Prop := ∀ name ∈ names, IsPart name

theorem settled_nil : Settled [] := nofun

theorem settle_append (kept as bs : List Text) : settle kept (as ++ bs) = settle (settle kept as) bs := List.foldl_append

theorem settle_nil_name (kept : List Text) : settle kept [[]] = kept := by simp [settle, settleName]

theorem Settled.settleName {kept : List Text} (h : Settled kept) {name : Text} (hname : Posix.slash ∉ name) :
    Settled (settleName kept name) := by
  rw [Posix.settleName]
  split
  · exact h
  split
  · exact fun part hpart => h part (List.mem_of_mem_dropLast hpart)
  next hdot hdots =>
    rw [not_or] at hdot
    intro part hpart
    rcases List.mem_append.mp hpart with hpart | hpart
    · exact h part hpart
    · rw [List.mem_singleton.mp hpart]
      exact ⟨hdot.1, hname, hdot.2, hdots⟩

theorem Settled.settle {kept names : List Text} (h : Settled kept) (hnames : ∀ name ∈ names, Posix.slash ∉ name) :
    Settled (settle kept names) := by
  induction names generalizing kept with
  | nil => exact h
  | cons name names ih =>
    obtain ⟨hname, hrest⟩ := List.forall_mem_cons.mp hnames
    exact ih (h.settleName hname) hrest

theorem settle_parts {kept names : List Text} (h : Settled names) : settle kept names = kept ++ names := by
  induction names generalizing kept with
  | nil => exact (List.append_nil kept).symm
  | cons name names ih =>
    obtain ⟨hname, hrest⟩ := List.forall_mem_cons.mp h
    have hstep : Posix.settleName kept name = kept ++ [name] := by
      simp [Posix.settleName, hname.nonempty, hname.dot, hname.dots]
    rw [settle, List.foldl_cons, hstep]
    exact (ih hrest).trans (List.append_assoc kept [name] names)

theorem keepName_eq_settleName {initial : Nat} (hinitial : initial ≠ 0) {kept : List Text} (h : Settled kept) (name : Text) :
    keepName initial kept name = settleName kept name := by
  have hlast : kept.getLast? ≠ some [46, 46] := fun hlast => (h _ (List.mem_of_getLast? hlast)).dots rfl
  rw [keepName, settleName]
  split
  · rfl
  · by_cases hdots : name = [46, 46]
    · simp [hdots, hinitial, hlast]
    · simp [hdots]

theorem foldl_keepName {initial : Nat} (hinitial : initial ≠ 0) {kept names : List Text} (h : Settled kept)
    (hnames : ∀ name ∈ names, slash ∉ name) : names.foldl (keepName initial) kept = settle kept names := by
  induction names generalizing kept with
  | nil => rfl
  | cons name names ih =>
    obtain ⟨hname, hrest⟩ := List.forall_mem_cons.mp hnames
    rw [List.foldl_cons, keepName_eq_settleName hinitial h, ih (h.settleName hname) hrest]
    rfl

theorem notMem_of_mem_components {t name : Text} (h : name ∈ components t) : slash ∉ name := by
  induction t generalizing name with
  | nil => simp_all [components]
  | cons c cs ih =>
    rw [components] at h
    split at h
    · rcases List.mem_cons.mp h with rfl | h
      · exact List.not_mem_nil
      · exact ih h
    next hc =>
      cases hcs : components cs with
      | nil => exact absurd hcs (components_ne_nil cs)
      | cons d ds =>
        rw [hcs] at h ih
        rcases List.mem_cons.mp h with rfl | h
        · rw [List.mem_cons, not_or]
          exact ⟨Ne.symm hc, ih List.mem_cons_self⟩
        · exact ih (List.mem_cons_of_mem _ h)

/-- The names that a text which starts with a slash leads along. -/
def steps (t : Text) : List Text := settle [] (components t)

theorem settled_steps (t : Text) : Settled (steps t) := settled_nil.settle (fun _ => notMem_of_mem_components)

theorem initialSlashes_cases {t : Text} (h : isAbsolute t = true) : initialSlashes t = 1 ∨ initialSlashes t = 2 := by
  rw [initialSlashes, if_neg (by simp [h])]
  split
  · exact .inr rfl
  · exact .inl rfl

theorem normpath_absolute {t : Text} (h : isAbsolute t = true) : normpath t = spell (initialSlashes t) (steps t) := by
  have hne : t ≠ [] := by
    rintro rfl
    cases h
  have hinitial : initialSlashes t ≠ 0 := by
    rcases initialSlashes_cases h with hone | htwo <;> omega
  have hspell : spell (initialSlashes t) (steps t) ≠ [] := by
    obtain ⟨n, hn⟩ := Nat.exists_eq_succ_of_ne_zero hinitial
    rw [spell, hn, List.replicate_succ]
    exact List.cons_ne_nil _ _
  rw [normpath, if_neg hne, foldl_keepName hinitial settled_nil (fun _ => notMem_of_mem_components)]
  exact if_neg hspell

end Settling

section Spelling

variable {initial : Nat} {names : List Text}

theorem components_replicate (n : Nat) (t : Text) :
    components (List.replicate n slash ++ t) = List.replicate n [] ++ components t := by
  induction n with
  | zero => rfl
  | succ n ih =>
    rw [List.replicate_succ, List.cons_append, components, if_pos rfl, ih]
    rfl

theorem components_intercalate (hnames : Settled names) (hne : names ≠ []) : components ([slash].intercalate names) = names := by
  induction names with
  | nil => exact absurd rfl hne
  | cons name names ih =>
    obtain ⟨hname, hrest⟩ := List.forall_mem_cons.mp hnames
    by_cases hnil : names = []
    · rw [hnil, List.intercalate_singleton, components_of_notMem hname.slash]
    · rw [List.intercalate_cons_of_ne_nil hnil, List.append_assoc, List.singleton_append, components_append,
        components_of_notMem hname.slash, ih hrest hnil]
      rfl

theorem components_spell (hnames : Settled names) (initial : Nat) :
    ∃ empty : List Text, (∀ name ∈ empty, name = []) ∧ components (spell initial names) = empty ++ names := by
  rw [spell, components_replicate]
  by_cases hne : names = []
  · refine ⟨List.replicate initial [] ++ [[]], ?_, ?_⟩
    · rw [List.forall_mem_append]
      exact ⟨fun name hname => List.eq_of_mem_replicate hname, fun name hname => List.mem_singleton.mp hname⟩
    · simp [hne, components]
  · exact ⟨List.replicate initial [], fun name hname => List.eq_of_mem_replicate hname, by rw [components_intercalate hnames hne]⟩

theorem parts_spell (hnames : Settled names) (initial : Nat) : parts (spell initial names) = names := by
  obtain ⟨empty, hempty, hcomponents⟩ := components_spell hnames initial
  rw [parts, hcomponents, List.filter_append, List.filter_eq_nil_iff.mpr (by simpa using hempty), List.nil_append]
  exact List.filter_eq_self.mpr (fun name hname => by simpa using (hnames name hname).nonempty)

theorem settle_of_empty {kept empty : List Text} (h : ∀ name ∈ empty, name = []) : settle kept empty = kept := by
  induction empty with
  | nil => rfl
  | cons name empty ih =>
    obtain ⟨rfl, hrest⟩ := List.forall_mem_cons.mp h
    exact (settle_append kept [[]] empty).trans (by rw [settle_nil_name, ih hrest])

theorem steps_spell (hnames : Settled names) (initial : Nat) : steps (spell initial names) = names := by
  obtain ⟨empty, hempty, hcomponents⟩ := components_spell hnames initial
  rw [steps, hcomponents, settle_append, settle_of_empty hempty, settle_parts hnames, List.nil_append]

theorem initialSlashes_replicate {n : Nat} (hn : n = 1 ∨ n = 2) {t : Text} (ht : t ≠ []) (hslash : isAbsolute t = false) :
    initialSlashes (List.replicate n slash ++ t) = n := by
  cases t with
  | nil => exact absurd rfl ht
  | cons c t =>
    have hc : c ≠ slash := by simpa [isAbsolute] using hslash
    rcases hn with rfl | rfl <;> simp [initialSlashes, isAbsolute, Ne.symm hc]

theorem intercalate_ne_nil (hnames : Settled names) (hne : names ≠ []) : [slash].intercalate names ≠ [] := by
  cases names with
  | nil => exact absurd rfl hne
  | cons name names =>
    have hname := (hnames name List.mem_cons_self).nonempty
    by_cases hnil : names = []
    · rwa [hnil, List.intercalate_singleton]
    · rw [List.intercalate_cons_of_ne_nil hnil]
      simp

theorem isAbsolute_intercalate (hnames : Settled names) : isAbsolute ([slash].intercalate names) = false := by
  cases names with
  | nil => rfl
  | cons name names =>
    have hname := hnames name List.mem_cons_self
    obtain ⟨c, cs, rfl⟩ := List.exists_cons_of_ne_nil hname.nonempty
    have hc : isAbsolute (c :: cs) = false := isAbsolute_of_notMem hname.slash
    by_cases hnil : names = []
    · rwa [hnil, List.intercalate_singleton]
    · rw [List.intercalate_cons_of_ne_nil hnil]
      exact hc

end Spelling

section Prefixes

theorem isPrefix_of_notMem {name part rest : Text} (hname : slash ∉ name) (h : name <+: part ++ slash :: rest) : name <+: part := by
  obtain ⟨more, hmore⟩ := h
  rcases List.append_eq_append_iff.mp hmore with ⟨as, rfl, -⟩ | ⟨bs, rfl, hbs⟩
  · exact List.prefix_append _ _
  · cases bs with
    | nil =>
      rw [List.append_nil]
    | cons b bs =>
      obtain ⟨rfl, -⟩ := List.cons.inj hbs
      exact absurd (List.mem_append_right _ List.mem_cons_self) hname

theorem intercalate_isPrefix_of_parent (parent : List Text) (name more : Text) (below : List Text) :
    [slash].intercalate (parent ++ [name]) <+: [slash].intercalate (parent ++ (name ++ more) :: below) := by
  induction parent with
  | nil =>
    rw [List.nil_append, List.nil_append, List.intercalate_singleton]
    by_cases hnil : below = []
    · rw [hnil, List.intercalate_singleton]
      exact List.prefix_append _ _
    · rw [List.intercalate_cons_of_ne_nil hnil, List.append_assoc, List.append_assoc]
      exact List.prefix_append _ _
  | cons first parent ih =>
    rw [List.cons_append, List.cons_append, List.intercalate_cons_of_ne_nil (by simp), List.intercalate_cons_of_ne_nil (by simp)]
    exact (List.prefix_append_right_inj _).mpr ih

theorem intercalate_isPrefix {names others : List Text} (hnames : Settled names) (hne : names ≠ []) (hothers : Settled others) :
    [slash].intercalate names <+: [slash].intercalate others ↔
      ∃ parent name more below, names = parent ++ [name] ∧ others = parent ++ (name ++ more) :: below := by
  constructor
  · intro h
    induction names generalizing others with
    | nil => exact absurd rfl hne
    | cons name names ih =>
      obtain ⟨hname, hrest⟩ := List.forall_mem_cons.mp hnames
      cases others with
      | nil => exact absurd (List.prefix_nil.mp h) (intercalate_ne_nil hnames hne)
      | cons other others =>
        obtain ⟨hother, hbelow⟩ := List.forall_mem_cons.mp hothers
        by_cases hnil : names = []
        · -- the last name: the text of the others goes on with a slash, which is not in it
          subst hnil
          rw [List.intercalate_singleton] at h
          have hstarts : name <+: other := by
            by_cases hlast : others = []
            · rwa [hlast, List.intercalate_singleton] at h
            · rw [List.intercalate_cons_of_ne_nil hlast, List.append_assoc, List.singleton_append] at h
              exact isPrefix_of_notMem hname.slash h
          obtain ⟨more, rfl⟩ := hstarts
          exact ⟨[], name, more, others, rfl, rfl⟩
        · rw [List.intercalate_cons_of_ne_nil hnil, List.append_assoc, List.singleton_append] at h
          obtain ⟨more, hmore⟩ := h
          rw [List.append_assoc, List.cons_append] at hmore
          by_cases hlast : others = []
          · rw [hlast, List.intercalate_singleton] at hmore
            exact absurd (hmore ▸ List.mem_append_right _ List.mem_cons_self) hother.slash
          · rw [List.intercalate_cons_of_ne_nil hlast, List.append_assoc, List.singleton_append] at hmore
            obtain ⟨rfl, htail⟩ := append_cons_inj hname.slash hother.slash hmore
            obtain ⟨parent, last, more, below, rfl, rfl⟩ := ih hrest hnil hbelow ⟨more, htail⟩
            exact ⟨name :: parent, last, more, below, rfl, rfl⟩
  · rintro ⟨parent, name, more, below, rfl, rfl⟩
    exact intercalate_isPrefix_of_parent parent name more below

theorem replicate_isPrefix {m n : Nat} {s t : Text} (hs : s ≠ []) (hslash : isAbsolute s = false)
    (htslash : isAbsolute t = false) : List.replicate m slash ++ s <+: List.replicate n slash ++ t ↔ m = n ∧ s <+: t := by
  induction m generalizing n with
  | zero =>
    cases n with
    | zero => simp
    | succ n =>
      refine iff_of_false ?_ (by simp)
      rintro ⟨more, hmore⟩
      cases s with
      | nil => exact hs rfl
      | cons c s =>
        obtain ⟨rfl, -⟩ := List.cons.inj hmore
        cases hslash
  | succ m ih =>
    cases n with
    | zero =>
      refine iff_of_false ?_ (by simp)
      rintro ⟨more, hmore⟩
      cases t with
      | nil => cases hmore
      | cons c t =>
        obtain ⟨rfl, -⟩ := List.cons.inj hmore
        cases htslash
    | succ n =>
      rw [List.replicate_succ, List.replicate_succ, List.cons_append, List.cons_append, List.cons_prefix_cons, ih]
      simp

/-- The text of a directory is a prefix of another text exactly when this leads to or below the directory, or a sibling of it
whose name its name starts. -/
theorem spell_isPrefix {m n : Nat} {names others : List Text} (hnames : Settled names) (hne : names ≠ [])
    (hothers : Settled others) :
    spell m names <+: spell n others ↔
      m = n ∧ ∃ parent name more below, names = parent ++ [name] ∧ others = parent ++ (name ++ more) :: below := by
  rw [spell, spell, replicate_isPrefix (intercalate_ne_nil hnames hne) (isAbsolute_intercalate hnames)
    (isAbsolute_intercalate hothers), intercalate_isPrefix hnames hne hothers]

end Prefixes

section Joins

variable {initial : Nat} {base : List Text} {b : Text}

theorem steps_stem (t : Text) : steps (stem t) = steps t := by
  rcases stem_cases t with h | h
  · rw [← h]
  · have hcomponents : components t = components (stem t) ++ [[]] :=
      (congrArg components h).trans (components_append (stem t) [])
    rw [steps, steps, hcomponents, settle_append, settle_nil_name]

theorem steps_join {a : Text} (ha : a ≠ []) (hb : isAbsolute b = false) : steps (join a b) = settle (steps a) (components b) := by
  rw [join_eq_stem ha hb, steps, components_append, settle_append, ← steps_stem a]
  rfl

theorem spell_ne_nil (hinitial : initial ≠ 0) (base : List Text) : spell initial base ≠ [] := by
  obtain ⟨n, rfl⟩ := Nat.exists_eq_succ_of_ne_zero hinitial
  rw [spell, List.replicate_succ]
  exact List.cons_ne_nil _ _

theorem isAbsolute_spell (hinitial : initial ≠ 0) (base : List Text) : isAbsolute (spell initial base) = true := by
  obtain ⟨n, rfl⟩ := Nat.exists_eq_succ_of_ne_zero hinitial
  rw [spell, List.replicate_succ]
  rfl

theorem join_eq_append (a : Text) (hb : isAbsolute b = false) : ∃ rest, join a b = a ++ rest := by
  rw [join, hb, if_neg Bool.false_ne_true]
  split
  · exact ⟨b, rfl⟩
  · exact ⟨slash :: b, rfl⟩

theorem isAbsolute_append {a : Text} (ha : a ≠ []) (rest : Text) : isAbsolute (a ++ rest) = isAbsolute a := by
  rw [isAbsolute, isAbsolute, List.head?_append_of_ne_nil _ ha]

theorem initialSlashes_join (hinitial : initial = 1 ∨ initial = 2) (hbase : Settled base) (hne : base ≠ [])
    (hb : isAbsolute b = false) : initialSlashes (join (spell initial base) b) = initial := by
  obtain ⟨rest, hrest⟩ := join_eq_append (spell initial base) hb
  have hnonempty := intercalate_ne_nil hbase hne
  rw [hrest, spell, List.append_assoc]
  refine initialSlashes_replicate hinitial (by simp [hnonempty]) ?_
  rw [isAbsolute_append hnonempty, isAbsolute_intercalate hbase]

end Joins

section Usable

def Usable (name : Text) : Prop := 0 ∉ name ∧ ∃ n, fsencode name = some n

theorem mem_iff_mem_components {c : Nat} (hc : c ≠ slash) (t : Text) : c ∈ t ↔ ∃ name ∈ components t, c ∈ name := by
  induction t with
  | nil => simp [components]
  | cons d t ih =>
    rw [components]
    split
    next hd => simp [ih, hd, hc]
    · cases h : components t with
      | nil => exact absurd h (components_ne_nil t)
      | cons name names =>
        rw [h] at ih
        simp [ih, or_assoc]

theorem exists_mapM_fsencode (ts : List Text) : (∃ ns, ts.mapM fsencode = some ns) ↔ ∀ t ∈ ts, ∃ n, fsencode t = some n := by
  induction ts with
  | nil => simp
  | cons t ts ih =>
    rw [List.forall_mem_cons, ← ih]
    constructor
    · rintro ⟨ns, hns⟩
      obtain ⟨n, hn, hrest⟩ := Option.bind_eq_some_iff.mp ((List.mapM_cons ..).symm.trans hns)
      obtain ⟨ns', hns', -⟩ := Option.bind_eq_some_iff.mp hrest
      exact ⟨⟨n, hn⟩, ns', hns'⟩
    · rintro ⟨⟨n, hn⟩, ns, hns⟩
      refine ⟨n :: ns, ?_⟩
      rw [List.mapM_cons, hn, hns]
      rfl

theorem exists_names_iff (t : Text) : (∃ ns, names t = .ok ns) ↔ ∀ name ∈ components t, Usable name := by
  simp only [names_ok_iff, exists_and_left, exists_mapM_fsencode, Usable]
  rw [mem_iff_mem_components (by decide)]
  constructor
  · rintro ⟨hzero, hsome⟩ name hname
    exact ⟨fun hmem => hzero ⟨name, hname, hmem⟩, hsome name hname⟩
  · intro h
    refine ⟨?_, fun name hname => (h name hname).2⟩
    rintro ⟨name, hname, hmem⟩
    exact (h name hname).1 hmem

theorem exists_names_spell {ps : List Text} (hps : Settled ps) (initial : Nat) :
    (∃ ns, names (spell initial ps) = .ok ns) ↔ ∀ name ∈ ps, Usable name := by
  obtain ⟨empty, hempty, hcomponents⟩ := components_spell hps initial
  have husable : ∀ name ∈ empty, Usable name := by
    intro name hname
    rw [hempty name hname]
    exact ⟨List.not_mem_nil, [], rfl⟩
  rw [exists_names_iff, hcomponents, List.forall_mem_append]
  exact and_iff_right husable

theorem intercalate_concat {parent : List Text} (h : parent ≠ []) (last : Text) :
    [slash].intercalate (parent ++ [last]) = [slash].intercalate parent ++ slash :: last := by
  induction parent with
  | nil => exact absurd rfl h
  | cons first parent ih =>
    rw [List.cons_append, List.intercalate_cons_of_ne_nil (by simp)]
    by_cases hnil : parent = []
    · simp [hnil]
    · rw [ih hnil, List.intercalate_cons_of_ne_nil hnil, List.append_assoc, List.append_assoc, List.append_assoc]

theorem headAndTail_spell {initial : Nat} (hinitial : initial ≠ 0) (parent : List Text) {last : Text} (hlast : IsPart last) :
    (headAndTail (spell initial (parent ++ [last]))).2 = last := by
  have hfront : ∃ front, spell initial (parent ++ [last]) = front ++ slash :: last := by
    obtain ⟨n, rfl⟩ := Nat.exists_eq_succ_of_ne_zero hinitial
    by_cases hnil : parent = []
    · refine ⟨List.replicate n slash, ?_⟩
      rw [hnil, spell, List.nil_append, List.intercalate_singleton, Nat.succ_eq_add_one, List.replicate_succ', List.append_assoc,
        List.singleton_append]
    · refine ⟨List.replicate (n + 1) slash ++ [slash].intercalate parent, ?_⟩
      rw [spell, intercalate_concat hnil, List.append_assoc]
  obtain ⟨front, hfront⟩ := hfront
  have htail : (splitPath (spell initial (parent ++ [last]))).2 = last := by rw [hfront, splitPath_append hlast.slash]
  rw [headAndTail, htail, if_neg hlast.nonempty, htail]

theorem usable_of_makedirs {initial : Nat} (hinitial : initial ≠ 0) {ps : List Text} (hps : Settled ps) (hne : ps ≠ [])
    {cwd : Path} {d : Disk} (h : (makedirs cwd (spell initial ps) d).1 = .ok ()) : ∀ name ∈ ps, Usable name := by
  obtain ⟨parent, last, rfl⟩ := (List.eq_nil_or_concat' ps).resolve_left hne
  have hlast : IsPart last := hps last (List.mem_append_right _ List.mem_cons_self)
  have htail : (headAndTail (spell initial (parent ++ [last]))).2 ≠ [46] := by
    rw [headAndTail_spell hinitial parent hlast]
    exact hlast.dot
  obtain ⟨q, hq, -⟩ := makedirs_ok htail (Prod.ext h rfl)
  obtain ⟨ns, hns, -⟩ := bind_eq_ok.mp hq
  exact (exists_names_spell hps initial).mp ⟨ns, hns⟩

theorem makedirs_full_spell {initial : Nat} (hinitial : initial ≠ 0) {ps : List Text} (hps : Settled ps)
    (h : ∀ name ∈ ps, Usable name) (cwd : Path) : (makedirs cwd (spell initial ps) (full [])).1 = .ok () := by
  obtain ⟨ns, hns⟩ := (exists_names_spell hps initial).mpr h
  have hlocation : location cwd (spell initial ps) = .ok _ := map_eq_ok.mpr ⟨ns, hns, rfl⟩
  rw [makedirs_of_dir (resolve_full (spell_ne_nil hinitial ps) hlocation []) rfl]

end Usable

end ProductionStack.Posix
