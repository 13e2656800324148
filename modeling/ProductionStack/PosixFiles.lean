import ProductionStack.Posix

namespace ProductionStack.Posix

open JsonText Utf8Text Command

section Growth

variable {α β : Type} {cwd : Path}

def Grows (d d' : Disk) : Prop := ∀ q, d.fs.node q ≠ none → d'.fs.node q = d.fs.node q

theorem Grows.refl (d : Disk) : Grows d d := fun _ _ => rfl

theorem Grows.trans {d d' d'' : Disk} (h : Grows d d') (h' : Grows d' d'') : Grows d d'' := by
  intro q hq
  have hsame := h q hq
  rw [← hsame] at hq
  exact (h' q hq).trans hsame

def Growing (c : Sys α) : Prop := ∀ d, Grows d (c d).2

theorem Growing.bind {c : Sys α} {f : α → Sys β} (h : Growing c) (hf : ∀ a, Growing (f a)) : Growing (c >>= f) := by
  intro d
  have hfirst := h d
  rw [bind_apply]
  rcases hrun : c d with ⟨e | a, d'⟩ <;> rw [hrun] at hfirst
  · exact hfirst
  · exact hfirst.trans (hf a d')

theorem growing_pure (a : α) : Growing (pure a : Sys α) := fun d => .refl d

theorem growing_fail (e : Fault) : Growing (fail e : Sys α) := fun d => .refl d

theorem growing_attempt {c : Sys α} (h : Growing c) : Growing (attempt c) := fun d => h d

theorem growing_isThereAt (t : Text) : Growing (isThereAt cwd t) := fun d => .refl d

theorem growing_isdirAt (t : Text) : Growing (isdirAt cwd t) := fun d => .refl d

theorem growing_mkdir (t : Text) : Growing (mkdir cwd t) := by
  intro d
  rw [mkdir, bind_apply, resolveAt]
  cases resolve d.fs cwd (unslashed t) with
  | error e => exact .refl d
  | ok p =>
    dsimp only
    rw [bind_apply, nodeAt]
    cases hp : d.fs.node p with
    | some node => exact .refl d
    | none =>
      intro q hq
      have hne : q ≠ p := by
        rintro rfl
        exact hq hp
      refine (place_node p .dir _ q).trans ?_
      rw [if_neg (fun h => hne h.2)]

theorem growing_mkdirUnlessDir (t : Text) : Growing (mkdirUnlessDir cwd t) := by
  refine (growing_attempt (growing_mkdir t)).bind (fun result => ?_)
  cases result with
  | ok _ => exact growing_pure ()
  | error e =>
    refine (growing_isdirAt t).bind (fun isDir => ?_)
    split
    · exact growing_pure ()
    · exact growing_fail e

theorem growing_makedirsFrom (fuel : Nat) (t : Text) : Growing (makedirsFrom cwd fuel t) := by
  induction fuel generalizing t with
  | zero => exact growing_mkdirUnlessDir t
  | succ fuel ih =>
    refine (growing_isThereAt _).bind (fun headThere => ?_)
    split
    · refine (growing_attempt (ih _)).bind (fun result => ?_)
      split
      · split
        · exact growing_pure ()
        · exact growing_mkdirUnlessDir t
      · split
        · exact growing_pure ()
        · exact growing_mkdirUnlessDir t
      · exact growing_fail _
    · exact growing_mkdirUnlessDir t

theorem growing_makedirs (t : Text) : Growing (makedirs cwd t) := growing_makedirsFrom _ t

theorem Grows.dirs {d d' : Disk} (h : Grows d d') (q : Path) (hq : d.fs.node q = some .dir) : d'.fs.node q = some .dir := by
  rw [h q (by rw [hq]; exact Option.some_ne_none _), hq]

end Growth

section Ascii

theorem encodeChar_ascii : ∀ c < 128, encodeChar c = some [UInt8.ofNat c] := by decide

theorem fsencode_ascii {t : Text} (h : ∀ c ∈ t, c < 128) : fsencode t = some (t.map UInt8.ofNat) := by
  induction t with
  | nil => rfl
  | cons c t ih =>
    obtain ⟨hc, ht⟩ := List.forall_mem_cons.mp h
    obtain ⟨bytes, hbytes, hflat⟩ := Option.map_eq_some_iff.mp (ih ht)
    rw [fsencode, List.mapM_cons, encodeChar_ascii c hc, hbytes, List.map_cons, ← hflat]
    rfl

theorem map_ofNat_injOn {s t : Text} (hs : ∀ c ∈ s, c < 128) (ht : ∀ c ∈ t, c < 128) (h : s.map UInt8.ofNat = t.map UInt8.ofNat) :
    s = t := by
  have hback : ∀ u : Text, (∀ c ∈ u, c < 128) → (u.map UInt8.ofNat).map UInt8.toNat = u := by
    intro u hu
    rw [List.map_map]
    refine (List.map_congr_left (fun c hc => ?_)).trans (List.map_id u)
    exact UInt8.toNat_ofNat_of_lt (Nat.lt_trans (hu c hc) (by decide))
  rw [← hback s hs, h, hback t ht]

end Ascii

section Directories

variable {fs : FileSystem} {cwd p : Path}

theorem start_append_slash (s u v : Text) : start cwd (s ++ slash :: u) = start cwd (s ++ slash :: v) := by
  cases s <;> rfl

theorem walk_nil_name {q : Path} (h : fs.node q = some .dir) : walk fs q [[]] = .ok q := by
  simp [walk, enter, h, follow, bind, Except.bind]

theorem names_ne_nil {t : Text} {ns : List Name} (h : names t = .ok ns) : ns ≠ [] := by
  rintro rfl
  have hnames := (names_ok_iff.mp h).2
  cases hcomponents : components t with
  | nil => exact components_ne_nil t hcomponents
  | cons c cs =>
    rw [hcomponents, List.mapM_cons] at hnames
    obtain ⟨n, -, hrest⟩ := Option.bind_eq_some_iff.mp hnames
    obtain ⟨ns, -, hpure⟩ := Option.bind_eq_some_iff.mp hrest
    cases hpure

theorem resolve_before_slash {s u : Text} (h : resolve fs cwd (s ++ slash :: u) = .ok p) :
    ∃ q, resolve fs cwd (s ++ [slash]) = .ok q ∧ fs.node q = some .dir := by
  have hne : ∀ v : Text, s ++ slash :: v ≠ [] := fun v => List.append_ne_nil_of_right_ne_nil _ (List.cons_ne_nil _ _)
  obtain ⟨ns, hns, -⟩ := bind_eq_ok.mp h
  obtain ⟨as, bs, has, hbs, rfl⟩ := names_append.mp hns
  rw [resolve_eq_walk (hne u) hns, walk_append] at h
  obtain ⟨q, hq, hwalk⟩ := bind_eq_ok.mp h
  have hdir : fs.node q = some .dir := by
    cases bs with
    | nil => exact absurd rfl (names_ne_nil hbs)
    | cons b bs =>
      obtain ⟨next, hnext, -⟩ := bind_eq_ok.mp hwalk
      rw [enter] at hnext
      split at hnext
      · assumption
      · cases hnext
      · cases hnext
  refine ⟨q, ?_, hdir⟩
  have hlast := names_append.mpr ⟨as, [[]], has, names_nil, rfl⟩
  rw [resolve_eq_walk (hne []) hlast, walk_append, start_append_slash s [] u, hq]
  exact walk_nil_name hdir

theorem resolve_before_join {a b : Text} (ha : a ≠ []) (hb : isAbsolute b = false) (h : resolve fs cwd (join a b) = .ok p) :
    ∃ q, resolve fs cwd a = .ok q ∧ fs.node q = some .dir := by
  rw [join_eq_stem ha hb] at h
  obtain ⟨q, hq, hdir⟩ := resolve_before_slash h
  rcases stem_cases a with hstem | hstem
  · rw [← hstem] at hq
    exact ⟨q, ((resolve_append_slash ha).mp hq).1, hdir⟩
  · rw [← hstem] at hq
    exact ⟨q, hq, hdir⟩

theorem resolve_join_name {a b : Text} {q : Path} {k : Name} (ha : resolve fs cwd a = .ok q) (hdir : fs.node q = some .dir)
    (hb : names b = .ok [k]) (hrel : isAbsolute b = false) (hk : Proper k) : resolve fs cwd (join a b) = .ok (q ++ [k]) := by
  have hane := ne_nil_of_resolve ha
  have hslash : resolve fs cwd (stem a ++ [slash]) = .ok q := by
    rcases stem_cases a with hstem | hstem
    · rw [← hstem]
      exact (resolve_append_slash hane).mpr ⟨ha, hdir⟩
    · rwa [← hstem]
  obtain ⟨ns, hns, -⟩ := bind_eq_ok.mp hslash
  obtain ⟨as, last, has, hlast, rfl⟩ := names_append.mp hns
  obtain rfl : last = [[]] := Except.ok.inj (hlast.symm.trans names_nil)
  have hne : ∀ v : Text, stem a ++ slash :: v ≠ [] := fun v => List.append_ne_nil_of_right_ne_nil _ (List.cons_ne_nil _ _)
  rw [resolve_eq_walk (hne []) hns, walk_append] at hslash
  obtain ⟨q', hq', hwalk⟩ := bind_eq_ok.mp hslash
  have hqq : q' = q := by
    have hlocate := walk_eq_locate hwalk
    rw [locate_nil_name] at hlocate
    exact hlocate.symm
  subst hqq
  have hnames := names_append.mpr ⟨as, [k], has, hb, rfl⟩
  rw [join_eq_stem hane hrel, resolve_eq_walk (hne b) hnames, walk_append, start_append_slash (stem a) b [], hq']
  have hfollow : follow q' k = q' ++ [k] := locate_proper q' hk
  simp [walk, enter, hdir, hfollow, bind, Except.bind]

theorem splitPath_of_notMem {t : Text} (h : slash ∉ t) : splitPath t = ([], t) := by
  have htail : (t.reverse.takeWhile (fun c => c ≠ slash)).reverse = t := by
    have hmem : ∀ c ∈ t.reverse, decide (c ≠ slash) = true := by
      intro c hc
      exact decide_eq_true (fun heq => h (heq ▸ List.mem_reverse.mp hc))
    rw [← List.append_nil t.reverse, List.takeWhile_append_of_pos hmem, List.takeWhile_nil, List.append_nil,
      List.reverse_reverse]
  simp only [splitPath, htail, Nat.sub_self, List.take_zero]
  rfl

theorem resolve_splitPath {t : Text} (h : resolve fs cwd t = .ok p) :
    (splitPath t).1 = [] ∨ ∃ q, resolve fs cwd (splitPath t).1 = .ok q ∧ fs.node q = some .dir := by
  by_cases hslash : slash ∈ t
  · obtain ⟨u, s, hsplit, hu⟩ := List.eq_append_cons_of_mem (List.mem_reverse.mpr hslash)
    -- the text up to its last slash, and the rest
    have ht : t = s.reverse ++ slash :: u.reverse := by
      rw [← List.reverse_reverse t, hsplit, List.reverse_append, List.reverse_cons, List.append_assoc, List.singleton_append]
    rw [ht] at h
    obtain ⟨q, hq, hdir⟩ := resolve_before_slash h
    rw [ht, splitPath_append (fun hmem => hu (List.mem_reverse.mp hmem))]
    exact .inr ⟨q, (resolve_unslashed hdir).mpr hq, hdir⟩
  · exact .inl (by rw [splitPath_of_notMem hslash])

theorem resolve_headAndTail {t : Text} (h : resolve fs cwd t = .ok p) :
    (headAndTail t).1 = [] ∨ ∃ q, resolve fs cwd (headAndTail t).1 = .ok q ∧ fs.node q = some .dir := by
  rw [headAndTail]
  split
  · rcases resolve_splitPath h with hnil | ⟨q, hq, -⟩
    · rw [hnil]
      exact .inl rfl
    · exact resolve_splitPath hq
  · exact resolve_splitPath h

theorem mkdirUnlessDir_of_dir {t : Text} {d : Disk} (h : resolve d.fs cwd t = .ok p) (hp : d.fs.node p = some .dir) :
    mkdirUnlessDir cwd t d = (.ok (), d) := by
  have hmkdir : mkdir cwd t d = (.error .fileExistsError, d) := by
    simp only [mkdir, bind_apply, resolveAt, (resolve_unslashed hp).mpr h, nodeAt, hp]
    rfl
  have hisdir : isdir d.fs cwd t = true := by
    simp only [isdir, h, hp, decide_true]
  simp only [mkdirUnlessDir, bind_apply, attempt, hmkdir, isdirAt, hisdir]
  rfl

theorem makedirs_of_dir {t : Text} {d : Disk} (h : resolve d.fs cwd t = .ok p) (hp : d.fs.node p = some .dir) :
    makedirs cwd t d = (.ok (), d) := by
  rw [makedirs]
  cases t.length with
  | zero => exact mkdirUnlessDir_of_dir h hp
  | succ fuel =>
    have hhead : ¬((headAndTail t).1 ≠ [] ∧ (headAndTail t).2 ≠ [] ∧ isThere d.fs cwd (headAndTail t).1 = false) := by
      rintro ⟨hne, -, hthere⟩
      rcases resolve_headAndTail h with hnil | ⟨q, hq, hdir⟩
      · exact hne hnil
      · simp [isThere, hq, hdir] at hthere
    rw [makedirsFrom, bind_apply]
    simp only [isThereAt]
    rw [if_neg hhead]
    exact mkdirUnlessDir_of_dir h hp

theorem mkdir_ok {t : Text} {d d' : Disk} (h : mkdir cwd t d = (.ok (), d')) :
    ∃ q, resolve d'.fs cwd t = .ok q ∧ d'.fs.node q = some .dir := by
  have hgrows : Grows d (mkdir cwd t d).2 := growing_mkdir t d
  rw [h] at hgrows
  obtain ⟨q, d₁, hresolve, hrest⟩ := exists_of_bind_ok h
  obtain ⟨hq, rfl⟩ : resolve d.fs cwd (unslashed t) = .ok q ∧ d = d₁ := Prod.mk.inj hresolve
  suffices hdir : d'.fs.node q = some .dir from ⟨q, (resolve_unslashed hdir).mp (resolve_of_dirs hgrows.dirs hq), hdir⟩
  obtain ⟨node, d₂, hnode, hmade⟩ := exists_of_bind_ok hrest
  obtain ⟨-, rfl⟩ := Prod.mk.inj hnode
  cases node with
  | some node => cases hmade
  | none =>
    obtain ⟨_, d₃, htouch, hplace⟩ := exists_of_bind_ok hmade
    have hplaced := place_node q .dir d₃ q
    rw [hplace, if_pos ⟨rfl, rfl⟩] at hplaced
    exact hplaced

theorem mkdirUnlessDir_ok {t : Text} {d d' : Disk} (h : mkdirUnlessDir cwd t d = (.ok (), d')) :
    ∃ q, resolve d'.fs cwd t = .ok q ∧ d'.fs.node q = some .dir := by
  obtain ⟨result, d₁, hmkdir, hrest⟩ := exists_of_bind_ok h
  have hrun : mkdir cwd t d = (result, d₁) := by
    obtain ⟨hresult, hdisk⟩ := Prod.mk.inj hmkdir
    exact Prod.ext (Except.ok.inj hresult) hdisk
  cases result with
  | ok _ =>
    cases hrest
    exact mkdir_ok hrun
  | error e =>
    obtain ⟨isDir, d₂, hisdir, hdone⟩ := exists_of_bind_ok hrest
    obtain ⟨rfl, rfl⟩ : isdir d₁.fs cwd t = isDir ∧ d₁ = d₂ := by
      obtain ⟨hresult, hdisk⟩ := Prod.mk.inj hisdir
      exact ⟨Except.ok.inj hresult, hdisk⟩
    split at hdone
    next hand =>
      cases hdone
      have hdir := (Bool.and_eq_true_iff.mp hand).2
      rw [isdir] at hdir
      split at hdir
      next q hq => exact ⟨q, hq, of_decide_eq_true hdir⟩
      · cases hdir
    · cases hdone

theorem makedirs_ok {t : Text} {d d' : Disk} (htail : (headAndTail t).2 ≠ [46]) (h : makedirs cwd t d = (.ok (), d')) :
    ∃ q, resolve d'.fs cwd t = .ok q ∧ d'.fs.node q = some .dir := by
  rw [makedirs] at h
  cases hfuel : t.length with
  | zero =>
    rw [hfuel] at h
    exact mkdirUnlessDir_ok h
  | succ fuel =>
    rw [hfuel] at h
    obtain ⟨headThere, d₁, -, hrest⟩ := exists_of_bind_ok h
    split at hrest
    · obtain ⟨result, d₂, -, hmade⟩ := exists_of_bind_ok hrest
      split at hmade
      · exact mkdirUnlessDir_ok hmade
      · exact mkdirUnlessDir_ok hmade
      · cases hmade
    · exact mkdirUnlessDir_ok hrest

end Directories

section Reading

variable {α β : Type} {cwd p : Path} {t : Text} {d : Disk}

def Reading (c : Sys α) : Prop := ∀ d, (c d).2.fs = d.fs

theorem reading_pure (a : α) : Reading (pure a : Sys α) := fun _ => rfl

theorem reading_fail (e : Fault) : Reading (fail e : Sys α) := fun _ => rfl

theorem bind_reading_fs (c : Sys α) {f : α → Sys β} (hf : ∀ a, Reading (f a)) (d : Disk) : ((c >>= f) d).2.fs = (c d).2.fs := by
  rw [bind_apply]
  rcases c d with ⟨e | a, d'⟩
  · rfl
  · exact hf a d'

theorem Reading.bind {c : Sys α} {f : α → Sys β} (h : Reading c) (hf : ∀ a, Reading (f a)) : Reading (c >>= f) :=
  fun d => (bind_reading_fs c hf d).trans (h d)

theorem lookUp_error {e : Fault} (h : resolve d.fs cwd t = .error e) : lookUp cwd t d = (.error e, d) := by
  rw [lookUp, bind_apply, resolveAt, h]

theorem lookUp_ok (h : resolve d.fs cwd t = .ok p) :
    lookUp cwd t d = (.ok (p, d.fs.node p), { d with touched := p :: d.touched }) := by
  rw [lookUp, bind_apply, resolveAt, h]
  rfl

theorem reading_lookUp : Reading (lookUp cwd t) := by
  intro d
  cases h : resolve d.fs cwd t with
  | error e => rw [lookUp_error h]
  | ok p => rw [lookUp_ok h]

theorem reading_stat : Reading (stat cwd t) := by
  refine reading_lookUp.bind ?_
  rintro ⟨p, node⟩
  cases node with
  | none => exact reading_fail _
  | some node => exact reading_pure node

theorem reading_getctime {proc : Process} : Reading (getctime proc t) := by
  refine reading_stat.bind ?_
  rintro (_ | _)
  · exact reading_pure _
  · exact reading_pure _

theorem reading_getsize {proc : Process} : Reading (getsize proc t) := by
  refine reading_stat.bind ?_
  rintro (_ | _)
  · exact reading_pure _
  · exact reading_pure _

theorem reading_openRead : Reading (openRead cwd t) := by
  refine reading_stat.bind ?_
  rintro (_ | _)
  · exact reading_fail _
  · exact reading_pure _

theorem stat_ok {node : Node} (h : resolve d.fs cwd t = .ok p) (hp : d.fs.node p = some node) :
    stat cwd t d = (.ok node, { d with touched := p :: d.touched }) := by
  rw [stat, bind_apply, lookUp_ok h, hp]
  rfl

theorem stat_error (h : isThere d.fs cwd t = false) : ∃ e, (stat cwd t d).1 = .error e := by
  rw [isThere] at h
  cases hresolve : resolve d.fs cwd t with
  | error e =>
    refine ⟨e, ?_⟩
    rw [stat, bind_apply, lookUp_error hresolve]
  | ok p =>
    rw [hresolve] at h
    refine ⟨.fileNotFoundError, ?_⟩
    rw [stat, bind_apply, lookUp_ok hresolve, Option.not_isSome_iff_eq_none.mp (Bool.eq_false_iff.mp h)]
    rfl

theorem reading_pathExists : Reading (pathExists cwd t) := by
  have hattempt : Reading (attempt (stat cwd t)) := fun d => reading_stat d
  refine hattempt.bind ?_
  rintro (e | node)
  · exact reading_pure _
  · exact reading_pure _

theorem pathExists_result : (pathExists cwd t d).1 = .ok (isThere d.fs cwd t) := by
  cases hthere : isThere d.fs cwd t with
  | false =>
    obtain ⟨e, he⟩ := stat_error hthere
    simp only [pathExists, bind_apply, attempt, he]
    rfl
  | true =>
    rw [isThere] at hthere
    split at hthere
    next p hp =>
      obtain ⟨node, hnode⟩ := Option.isSome_iff_exists.mp hthere
      simp only [pathExists, bind_apply, attempt, stat_ok hp hnode]
      rfl
    · cases hthere

theorem pathExists_run (cwd : Path) (t : Text) (d : Disk) :
    ∃ d', d'.fs = d.fs ∧ pathExists cwd t d = (.ok (isThere d.fs cwd t), d') :=
  ⟨(pathExists cwd t d).2, reading_pathExists d, Prod.ext pathExists_result rfl⟩

theorem getsize_ok {proc : Process} {content : Bytes} {ctime : Int} (h : resolve d.fs proc.cwd t = .ok p)
    (hp : d.fs.node p = some (.file content ctime)) :
    getsize proc t d = (.ok content.length, { d with touched := p :: d.touched }) := by
  rw [getsize, bind_apply, stat_ok h hp]
  rfl

theorem getctime_ok {proc : Process} {content : Bytes} {ctime : Int} (h : resolve d.fs proc.cwd t = .ok p)
    (hp : d.fs.node p = some (.file content ctime)) :
    getctime proc t d = (.ok ctime, { d with touched := p :: d.touched }) := by
  rw [getctime, bind_apply, stat_ok h hp]
  rfl

end Reading

section Writing

variable {proc : Process} {cwd q : Path} {t : Text} {d : Disk} {content : Bytes} {ctime : Int}

theorem place_on_file {node : Node} (hq : d.fs.node q = some (.file content ctime)) : (place q node d).1 = .ok () := by
  have hne : q ≠ [] := by
    rintro rfl
    cases d.fs.root.symm.trans hq
  have hparent : d.fs.node q.dropLast = some .dir := by
    refine d.fs.parent _ (q.getLast hne) ?_
    rw [List.dropLast_append_getLast hne, hq]
    exact Option.some_ne_none _
  rw [place_result, if_neg hne, if_pos hparent, hq]
  rfl

/-- A command that follows a text changes at most the place that the text leads to. -/
theorem confined_node {α : Type} {c : Sys α} {R : α → Prop} {node : Node} {changed : Option Node}
    (hc : ∀ {P : Path → Prop}, (∀ q, location cwd t = .ok q → P q) → Confined P c R) (hq : d.fs.node q = some node)
    (herror : ∀ e, resolve d.fs cwd t = .error e → (c d).2.fs = d.fs)
    (hfound : resolve d.fs cwd t = .ok q → (c d).2.fs.node q = changed) :
    (c d).2.fs.node q = if resolve d.fs cwd t = .ok q then changed else some node := by
  split
  next h => exact hfound h
  next hother =>
    rw [← hq]
    cases h : resolve d.fs cwd t with
    | error e => rw [herror e h]
    | ok p =>
      have hlocation := resolve_location h
      have hconfined : Confined (· = p) c R := hc (fun r hr => Except.ok.inj (hr.symm.trans hlocation))
      exact (hconfined.frames d).1.frame q (fun heq => hother (by rw [h, heq]))

theorem openWrite_node (hq : d.fs.node q = some (.file content ctime)) (new : Bytes) :
    (openWrite proc t new d).2.fs.node q =
      if resolve d.fs proc.cwd t = .ok q then some (.file new proc.now) else some (.file content ctime) := by
  refine confined_node confined_openWrite hq (fun e h => ?_) (fun h => ?_)
  · rw [openWrite, bind_apply, lookUp_error h]
  · rw [openWrite, bind_apply, lookUp_ok h]
    dsimp only
    rw [place_node, if_pos ⟨place_on_file hq, rfl⟩]

theorem openWrite_ok {new : Bytes} {d' : Disk} (h : openWrite proc t new d = (.ok (), d')) :
    ∃ p, resolve d'.fs proc.cwd t = .ok p ∧ d'.fs.node p = some (.file new proc.now) := by
  have hconfined : Confined (fun _ => True) (openWrite proc t new) (fun _ => True) := confined_openWrite (fun _ _ => trivial)
  have hdirs := (hconfined.frames d).1.dirs
  rw [h] at hdirs
  cases hresolve : resolve d.fs proc.cwd t with
  | error e =>
    rw [openWrite, bind_apply, lookUp_error hresolve] at h
    cases h
  | ok p =>
    refine ⟨p, resolve_of_dirs hdirs hresolve, ?_⟩
    rw [openWrite, bind_apply, lookUp_ok hresolve] at h
    dsimp only at h
    have hnode := place_node p (.file new proc.now) { d with touched := p :: d.touched } p
    rw [h, if_pos ⟨rfl, rfl⟩] at hnode
    exact hnode

def updated (offset : Int) (chunk : Option Bytes) (content : Bytes) : Option Bytes :=
  if offset < 0 then none else chunk.bind (fun chunk => if chunk = [] then none else some (overwrite content offset.toNat chunk))

theorem openUpdate_node (hq : d.fs.node q = some (.file content ctime)) (offset : Int) (chunk : Option Bytes) :
    (openUpdate proc t offset chunk d).2.fs.node q =
      if resolve d.fs proc.cwd t = .ok q then
        some (((updated offset chunk content).map (Node.file · proc.now)).getD (.file content ctime))
      else some (.file content ctime) := by
  refine confined_node confined_openUpdate hq (fun e h => ?_) (fun h => ?_)
  · rw [openUpdate, bind_apply, lookUp_error h]
  · rw [openUpdate, bind_apply, lookUp_ok h, hq, updated]
    dsimp only
    by_cases hoffset : offset < 0
    · rw [if_pos hoffset, if_pos hoffset]
      exact hq
    · rw [if_neg hoffset, if_neg hoffset]
      cases chunk with
      | none => exact hq
      | some chunk =>
        rw [Option.bind_some]
        by_cases hempty : chunk = []
        · rw [if_pos hempty]
          dsimp only
          rw [if_pos hempty]
          exact hq
        · rw [if_neg hempty]
          dsimp only
          rw [if_neg hempty, place_node, if_pos ⟨place_on_file hq, rfl⟩]
          rfl

theorem openUpdate_ok {offset : Nat} {chunk : Bytes} (h : resolve d.fs proc.cwd t = .ok q)
    (hq : d.fs.node q = some (.file content ctime)) : (openUpdate proc t offset (some chunk) d).1 = .ok () := by
  rw [openUpdate, bind_of_ok (lookUp_ok h), hq]
  dsimp only
  rw [if_neg (by omega)]
  split
  · rfl
  · exact place_on_file hq

theorem remove_node (hq : d.fs.node q = some (.file content ctime)) :
    (remove cwd t d).2.fs.node q = if resolve d.fs cwd t = .ok q then none else some (.file content ctime) := by
  refine confined_node confined_remove hq (fun e h => ?_) (fun h => ?_)
  · rw [remove, bind_apply, lookUp_error h]
  · rw [remove, bind_apply, lookUp_ok h, hq]
    dsimp only
    rw [unlink, dif_neg (by rw [hq]; simp)]
    exact if_pos rfl

end Writing

end ProductionStack.Posix
