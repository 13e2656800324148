import ProductionStack.Command
import ProductionStack.Utf8Text

namespace ProductionStack.Posix

open JsonText Utf8Text Command

section Paths

abbrev Name := Bytes

abbrev Path := List Name

def slash : Nat := '/'.toNat

def isAbsolute (t : Text) : Bool := t.head? = some slash

/-- os.path.join of two texts. -/
def join (a b : Text) : Text :=
  if isAbsolute b then b else if a = [] ∨ a.getLast? = some slash then a ++ b else a ++ slash :: b

def components : Text → List Text
  | [] => [[]]
  | c :: cs =>
    if c = slash then [] :: components cs
    else
      match components cs with
      | [] => [[c]]
      | d :: ds => (c :: d) :: ds

/-- The code points that stand for a single byte are written as this byte. -/
def encodeChar (c : Nat) : Option Bytes :=
  if scalar c then some (String.utf8EncodeChar (Char.ofNat c))
  else if 0xDC80 ≤ c ∧ c ≤ 0xDCFF then some [UInt8.ofNat (c - 0xDC00)]
  else none

def fsencode (t : Text) : Option Name := (t.mapM encodeChar).map List.flatten

inductive Fault
  | valueError
  | unicodeEncodeError
  | fileNotFoundError
  | notADirectoryError
  | isADirectoryError
  | fileExistsError
  | osError
  | typeError
  deriving DecidableEq, Repr

def names (t : Text) : Except Fault (List Name) :=
  if 0 ∈ t then .error .valueError
  else
    match (components t).mapM fsencode with
    | none => .error .unicodeEncodeError
    | some ns => .ok ns

/-- One name further on the way: the empty name and the dot stay, two dots go up. -/
def follow (cur : Path) (n : Name) : Path :=
  if n = [] ∨ n = [46] then cur else if n = [46, 46] then cur.dropLast else cur ++ [n]

def locate (start : Path) (ns : List Name) : Path := ns.foldl follow start

def start (cwd : Path) (t : Text) : Path := if isAbsolute t then [] else cwd

/-- Where a text leads to, if all directories on its way are there. -/
def location (cwd : Path) (t : Text) : Except Fault Path := (names t).map (locate (start cwd t))

theorem components_ne_nil (t : Text) : components t ≠ [] := by
  cases t with
  | nil => exact List.cons_ne_nil _ _
  | cons c cs =>
    rw [components]
    split
    · exact List.cons_ne_nil _ _
    · split <;> exact List.cons_ne_nil _ _

theorem components_append (a b : Text) : components (a ++ slash :: b) = components a ++ components b := by
  induction a with
  | nil => simp [components]
  | cons c cs ih =>
    rw [List.cons_append, components, components, ih]
    split
    · rfl
    · cases h : components cs with
      | nil => exact absurd h (components_ne_nil cs)
      | cons d ds => rfl

theorem components_of_notMem {t : Text} (h : slash ∉ t) : components t = [t] := by
  induction t with
  | nil => rfl
  | cons c cs ih =>
    rw [List.mem_cons, not_or] at h
    rw [components, if_neg (Ne.symm h.1), ih h.2]

theorem names_ok_iff {t : Text} {ns : List Name} : names t = .ok ns ↔ 0 ∉ t ∧ (components t).mapM fsencode = some ns := by
  rw [names]
  by_cases h : 0 ∈ t
  · simp [h]
  · rw [if_neg h]
    cases (components t).mapM fsencode <;> simp [h]

theorem names_append {a b : Text} {ns : List Name} :
    names (a ++ slash :: b) = .ok ns ↔ ∃ as bs, names a = .ok as ∧ names b = .ok bs ∧ ns = as ++ bs := by
  have hslash : (0 : Nat) ≠ slash := by decide
  rw [names_ok_iff, components_append, List.mapM_append]
  constructor
  · rintro ⟨hzero, hsome⟩
    rw [List.mem_append, List.mem_cons, not_or, not_or] at hzero
    obtain ⟨as, has, hrest⟩ := Option.bind_eq_some_iff.mp hsome
    obtain ⟨bs, hbs, hns⟩ := Option.bind_eq_some_iff.mp hrest
    cases hns
    exact ⟨as, bs, names_ok_iff.mpr ⟨hzero.1, has⟩, names_ok_iff.mpr ⟨hzero.2.2, hbs⟩, rfl⟩
  · rintro ⟨as, bs, has, hbs, rfl⟩
    obtain ⟨hza, has⟩ := names_ok_iff.mp has
    obtain ⟨hzb, hbs⟩ := names_ok_iff.mp hbs
    refine ⟨?_, by rw [has, hbs]; rfl⟩
    rw [List.mem_append, List.mem_cons, not_or, not_or]
    exact ⟨hza, hslash, hzb⟩

theorem names_nil : names [] = .ok [[]] := rfl

theorem locate_append (s : Path) (as bs : List Name) : locate s (as ++ bs) = locate (locate s as) bs :=
  List.foldl_append

theorem locate_nil_name (s : Path) : locate s [[]] = s := by simp [locate, follow]

theorem start_append {cwd : Path} {a b : Text} (ha : a ≠ []) : start cwd (a ++ b) = start cwd a := by
  cases a with
  | nil => exact absurd rfl ha
  | cons c cs => rfl

/-- A text without the one slash that it may end with. -/
def stem (a : Text) : Text := if a.getLast? = some slash then a.dropLast else a

theorem stem_cases (a : Text) : a = stem a ∨ a = stem a ++ [slash] := by
  rw [stem]
  split
  next h =>
    obtain ⟨a', rfl⟩ := List.getLast?_eq_some_iff.mp h
    exact .inr (by rw [List.dropLast_concat])
  · exact .inl rfl

theorem join_eq_stem {a b : Text} (ha : a ≠ []) (hb : isAbsolute b = false) : join a b = stem a ++ slash :: b := by
  rw [join, hb, if_neg Bool.false_ne_true, stem]
  by_cases hlast : a.getLast? = some slash
  · obtain ⟨a', rfl⟩ := List.getLast?_eq_some_iff.mp hlast
    rw [if_pos (.inr hlast), if_pos hlast, List.dropLast_concat, List.append_assoc, List.singleton_append]
  · rw [if_neg (by simp [ha, hlast]), if_neg hlast]

theorem join_ne_nil {a : Text} (ha : a ≠ []) (b : Text) : join a b ≠ [] := by
  rw [join]
  split
  next h =>
    rintro rfl
    cases h
  · split <;> simp [ha]

theorem isAbsolute_of_notMem {t : Text} (h : slash ∉ t) : isAbsolute t = false := by
  rw [isAbsolute, decide_eq_false_iff_not]
  exact fun hhead => h (List.mem_of_mem_head? hhead)

theorem start_join {cwd : Path} {a b : Text} (ha : a ≠ []) (hb : isAbsolute b = false) :
    start cwd (join a b) = start cwd a := by
  rw [join, hb, if_neg Bool.false_ne_true]
  split <;> exact start_append ha

theorem location_stem {cwd q : Path} {a : Text} :
    location cwd a = .ok q ↔ ∃ as, names (stem a) = .ok as ∧ q = locate (start cwd a) as := by
  rw [location, map_eq_ok]
  rcases stem_cases a with h | h
  · rw [← h]
    constructor <;> rintro ⟨as, has, rfl⟩ <;> exact ⟨as, has, rfl⟩
  · constructor
    · rintro ⟨ns, hns, rfl⟩
      rw [h] at hns
      obtain ⟨as, last, has, hlast, rfl⟩ := names_append.mp hns
      obtain rfl : last = [[]] := Except.ok.inj (hlast.symm.trans names_nil)
      exact ⟨as, has, by rw [locate_append, locate_nil_name]⟩
    · rintro ⟨as, has, rfl⟩
      refine ⟨as ++ [[]], ?_, by rw [locate_append, locate_nil_name]⟩
      rw [h]
      exact names_append.mpr ⟨as, [[]], has, names_nil, rfl⟩

theorem location_join {cwd p : Path} {a b : Text} (ha : a ≠ []) (hb : isAbsolute b = false) :
    location cwd (join a b) = .ok p ↔ ∃ q ns, location cwd a = .ok q ∧ names b = .ok ns ∧ p = locate q ns := by
  rw [location, start_join ha hb, join_eq_stem ha hb, map_eq_ok]
  constructor
  · rintro ⟨ns, hns, rfl⟩
    obtain ⟨as, bs, has, hbs, rfl⟩ := names_append.mp hns
    exact ⟨_, bs, location_stem.mpr ⟨as, has, rfl⟩, hbs, locate_append _ _ _⟩
  · rintro ⟨q, bs, hq, hbs, rfl⟩
    obtain ⟨as, has, rfl⟩ := location_stem.mp hq
    exact ⟨as ++ bs, names_append.mpr ⟨as, bs, has, hbs, rfl⟩, locate_append _ _ _⟩

def Proper (n : Name) : Prop := n ≠ [] ∧ n ≠ [46] ∧ n ≠ [46, 46]

instance (n : Name) : Decidable (Proper n) := inferInstanceAs (Decidable (_ ∧ _ ∧ _))

theorem names_of_notMem {t : Text} {n : Name} (hslash : slash ∉ t) (hzero : 0 ∉ t) (hn : fsencode t = some n) :
    names t = .ok [n] := by
  rw [names_ok_iff, components_of_notMem hslash]
  exact ⟨hzero, by simp [hn]⟩

theorem locate_proper (s : Path) {n : Name} (h : Proper n) : locate s [n] = s ++ [n] := by
  simp [locate, follow, h.1, h.2.1, h.2.2]

end Paths

section FileSystems

inductive Node
  | dir
  | file (content : Bytes) (ctime : Int)
  deriving DecidableEq, Repr

/-- A tree of directories and files without symbolic links. -/
structure FileSystem where
  node : Path → Option Node
  root : node [] = some .dir
  parent : ∀ p n, node (p ++ [n]) ≠ none → node p = some .dir

namespace FileSystem

/-- Nothing is below anything but a directory, so that a file may be put where there is no directory. -/
def put (fs : FileSystem) (p : Path) (n : Name) (node : Node) (hdir : fs.node p = some .dir)
    (hfree : fs.node (p ++ [n]) ≠ some .dir) : FileSystem where
  node q := if q = p ++ [n] then some node else fs.node q
  root := by
    rw [if_neg (by simp)]
    exact fs.root
  parent q m h := by
    by_cases hq : q = p ++ [n]
    · subst hq
      have hne : p ++ [n] ++ [m] ≠ p ++ [n] := by simp
      rw [if_neg hne] at h
      exact absurd (fs.parent (p ++ [n]) m h) hfree
    · rw [if_neg hq]
      by_cases hqm : q ++ [m] = p ++ [n]
      · obtain ⟨rfl, -⟩ := List.append_inj' hqm rfl
        exact hdir
      · rw [if_neg hqm] at h
        exact fs.parent q m h

def erase (fs : FileSystem) (p : Path) (hfile : fs.node p ≠ some .dir) : FileSystem where
  node q := if q = p then none else fs.node q
  root := by
    by_cases hp : [] = p
    · subst hp
      exact absurd fs.root hfile
    · rw [if_neg hp]
      exact fs.root
  parent q n h := by
    by_cases hqn : q ++ [n] = p
    · rw [if_pos hqn] at h
      exact absurd rfl h
    · rw [if_neg hqn] at h
      have hdir := fs.parent q n h
      have hq : q ≠ p := by
        rintro rfl
        exact hfile hdir
      rw [if_neg hq, hdir]

end FileSystem

def enter (fs : FileSystem) (cur : Path) (n : Name) : Except Fault Path :=
  match fs.node cur with
  | some .dir => .ok (follow cur n)
  | some (.file _ _) => .error .notADirectoryError
  | none => .error .fileNotFoundError

/-- All but the last place on the way have to be directories. -/
def walk (fs : FileSystem) : Path → List Name → Except Fault Path
  | cur, [] => .ok cur
  | cur, n :: ns => do
      let next ← enter fs cur n
      walk fs next ns

def resolve (fs : FileSystem) (cwd : Path) (t : Text) : Except Fault Path := do
  let ns ← names t
  if t = [] then .error .fileNotFoundError else walk fs (start cwd t) ns

theorem walk_eq_locate {fs : FileSystem} {cur p : Path} {ns : List Name} (h : walk fs cur ns = .ok p) :
    p = locate cur ns := by
  induction ns generalizing cur with
  | nil => exact (Except.ok.inj h).symm
  | cons n ns ih =>
    obtain ⟨next, hnext, hrest⟩ := bind_eq_ok.mp h
    rw [enter] at hnext
    split at hnext
    · cases hnext
      exact ih hrest
    · cases hnext
    · cases hnext

theorem resolve_location {fs : FileSystem} {cwd p : Path} {t : Text} (h : resolve fs cwd t = .ok p) :
    location cwd t = .ok p := by
  obtain ⟨ns, hns, hwalk⟩ := bind_eq_ok.mp h
  split at hwalk
  · cases hwalk
  · exact map_eq_ok.mpr ⟨ns, hns, (walk_eq_locate hwalk).symm⟩

theorem walk_append (fs : FileSystem) (cur : Path) (as bs : List Name) :
    walk fs cur (as ++ bs) = walk fs cur as >>= fun q => walk fs q bs := by
  induction as generalizing cur with
  | nil => rfl
  | cons a as ih =>
    rw [List.cons_append, walk, walk]
    cases enter fs cur a with
    | error e => rfl
    | ok next => exact ih next

theorem ne_nil_of_resolve {fs : FileSystem} {cwd p : Path} {t : Text} (h : resolve fs cwd t = .ok p) : t ≠ [] := by
  rintro rfl
  cases h

theorem resolve_eq_walk {fs : FileSystem} {cwd : Path} {t : Text} {ns : List Name} (ht : t ≠ []) (hns : names t = .ok ns) :
    resolve fs cwd t = walk fs (start cwd t) ns := by
  rw [resolve, hns]
  exact if_neg ht

end FileSystems

section Calls

/-- The file system, and the places that calls have read, made, written or removed. -/
structure Disk where
  fs : FileSystem
  touched : List Path := []

/-- What the calls of a process depend on besides: its directory, the time, and what the size and the
time of a directory are. -/
structure Process where
  cwd : Path
  now : Int
  dirSize : Nat
  dirCtime : Int

abbrev Sys := Command Disk Fault

def FileSystem.place (fs : FileSystem) (p : Path) (node : Node) : Except Fault FileSystem :=
  if hne : p = [] then .error .isADirectoryError
  else if hdir : fs.node p.dropLast = some .dir then
    if hfree : fs.node (p.dropLast ++ [p.getLast hne]) = some .dir then .error .isADirectoryError
    else .ok (fs.put p.dropLast (p.getLast hne) node hdir hfree)
  else .error .fileNotFoundError

def touch (p : Path) : Sys Unit := modify (fun d => { d with touched := p :: d.touched })

def resolveAt (cwd : Path) (t : Text) : Sys Path := fun d => (resolve d.fs cwd t, d)

def nodeAt (p : Path) : Sys (Option Node) := fun d => (.ok (d.fs.node p), d)

def place (p : Path) (node : Node) : Sys Unit := fun d =>
  match d.fs.place p node with
  | .ok fs => (.ok (), { d with fs := fs })
  | .error e => (.error e, d)

def unlink (p : Path) : Sys Unit := fun d =>
  if h : d.fs.node p = some .dir then (.error .isADirectoryError, d)
  else (.ok (), { d with fs := d.fs.erase p h })

def lookUp (cwd : Path) (t : Text) : Sys (Path × Option Node) := do
  let p ← resolveAt cwd t
  touch p
  let node ← nodeAt p
  return (p, node)

def stat (cwd : Path) (t : Text) : Sys Node := do
  let (_, node) ← lookUp cwd t
  match node with
  | none => fail .fileNotFoundError
  | some node => return node

/-- os.path.exists: whatever is raised, there is nothing. -/
def pathExists (cwd : Path) (t : Text) : Sys Bool := do
  let found ← attempt (stat cwd t)
  match found with
  | .ok _ => return true
  | .error _ => return false

def getsize (proc : Process) (t : Text) : Sys Nat := do
  match ← stat proc.cwd t with
  | .dir => return proc.dirSize
  | .file content _ => return content.length

def getctime (proc : Process) (t : Text) : Sys Int := do
  match ← stat proc.cwd t with
  | .dir => return proc.dirCtime
  | .file _ ctime => return ctime

/-- A file opened with mode wb, and its content written. -/
def openWrite (proc : Process) (t : Text) (content : Bytes) : Sys Unit := do
  let (p, _) ← lookUp proc.cwd t
  place p (.file content proc.now)

/-- What is after the end of a file when something is written there are zeros. -/
def overwrite (content : Bytes) (offset : Nat) (chunk : Bytes) : Bytes :=
  content.take offset ++ List.replicate (offset - content.length) 0 ++ chunk ++ content.drop (offset + chunk.length)

/-- A file opened with mode r+b, and written to at an offset. Where nothing is written, the file stays as it is. -/
def openUpdate (proc : Process) (t : Text) (offset : Int) (chunk : Option Bytes) : Sys Unit := do
  let (p, node) ← lookUp proc.cwd t
  match node with
  | none => fail .fileNotFoundError
  | some .dir => fail .isADirectoryError
  | some (.file content _) =>
    if offset < 0 then fail .osError
    else
      match chunk with
      | none => fail .typeError
      | some chunk =>
        if chunk = [] then return () else place p (.file (overwrite content offset.toNat chunk) proc.now)

def openRead (cwd : Path) (t : Text) : Sys Bytes := do
  match ← stat cwd t with
  | .dir => fail .isADirectoryError
  | .file content _ => return content

def remove (cwd : Path) (t : Text) : Sys Unit := do
  let (p, node) ← lookUp cwd t
  match node with
  | none => fail .fileNotFoundError
  | some _ => unlink p

def rstrip (t : Text) : Text := (t.reverse.dropWhile (fun c => c = slash)).reverse

def unslashed (t : Text) : Text := if t.all (fun c => c = slash) then t else rstrip t

/-- Slashes at the end of the text do not matter. Only a directory that is made counts as touched. -/
def mkdir (cwd : Path) (t : Text) : Sys Unit := do
  let p ← resolveAt cwd (unslashed t)
  match ← nodeAt p with
  | some _ => fail .fileExistsError
  | none =>
    touch p
    place p .dir

end Calls

section Makedirs

def Fault.isOSError : Fault → Bool
  | .valueError => false
  | .unicodeEncodeError => false
  | .typeError => false
  | _ => true

def isThere (fs : FileSystem) (cwd : Path) (t : Text) : Bool :=
  match resolve fs cwd t with
  | .ok p => (fs.node p).isSome
  | .error _ => false

def isdir (fs : FileSystem) (cwd : Path) (t : Text) : Bool :=
  match resolve fs cwd t with
  | .ok p => fs.node p = some .dir
  | .error _ => false

def isThereAt (cwd : Path) (t : Text) : Sys Bool := fun d => (.ok (isThere d.fs cwd t), d)

def isdirAt (cwd : Path) (t : Text) : Sys Bool := fun d => (.ok (isdir d.fs cwd t), d)

def splitPath (t : Text) : Text × Text :=
  let tail := (t.reverse.takeWhile (fun c => c ≠ slash)).reverse
  let head := t.take (t.length - tail.length)
  (unslashed head, tail)

def headAndTail (t : Text) : Text × Text :=
  if (splitPath t).2 = [] then splitPath (splitPath t).1 else splitPath t

def mkdirUnlessDir (cwd : Path) (t : Text) : Sys Unit := do
  match ← attempt (mkdir cwd t) with
  | .ok _ => return ()
  | .error e =>
    let isDir ← isdirAt cwd t
    if e.isOSError && isDir then return () else fail e

/-- os.makedirs with exist_ok. The head of a text is shorter than the text. -/
def makedirsFrom (cwd : Path) : Nat → Text → Sys Unit
  | 0, t => mkdirUnlessDir cwd t
  | fuel + 1, t => do
      let headThere ← isThereAt cwd (headAndTail t).1
      if (headAndTail t).1 ≠ [] ∧ (headAndTail t).2 ≠ [] ∧ headThere = false then
        match ← attempt (makedirsFrom cwd fuel (headAndTail t).1) with
        | .ok _ | .error .fileExistsError => if (headAndTail t).2 = [46] then return () else mkdirUnlessDir cwd t
        | .error e => fail e
      else mkdirUnlessDir cwd t

def makedirs (cwd : Path) (t : Text) : Sys Unit := makedirsFrom cwd t.length t

theorem resolve_append_slash {fs : FileSystem} {cwd q : Path} {t : Text} (ht : t ≠ []) :
    resolve fs cwd (t ++ [slash]) = .ok q ↔ resolve fs cwd t = .ok q ∧ fs.node q = some .dir := by
  have hne : t ++ [slash] ≠ [] := List.append_ne_nil_of_left_ne_nil ht _
  have hlast : ∀ p, walk fs p [[]] = .ok q ↔ p = q ∧ fs.node q = some .dir := by
    intro p
    rw [walk, bind_eq_ok]
    simp only [walk, enter, follow]
    constructor
    · rintro ⟨next, hnext, hdone⟩
      cases hdone
      split at hnext
      next hdir =>
        cases hnext
        exact ⟨rfl, hdir⟩
      · cases hnext
      · cases hnext
    · rintro ⟨rfl, hdir⟩
      exact ⟨p, by rw [hdir]; simp, rfl⟩
  constructor
  · intro h
    obtain ⟨ns, hns, -⟩ := bind_eq_ok.mp h
    obtain ⟨as, last, has, hrest, rfl⟩ := names_append.mp hns
    obtain rfl : last = [[]] := Except.ok.inj (hrest.symm.trans names_nil)
    rw [resolve_eq_walk hne hns, start_append ht, walk_append] at h
    obtain ⟨p, hp, hwalk⟩ := bind_eq_ok.mp h
    obtain ⟨rfl, hdir⟩ := (hlast p).mp hwalk
    exact ⟨(resolve_eq_walk ht has).trans hp, hdir⟩
  · rintro ⟨h, hdir⟩
    obtain ⟨as, has, -⟩ := bind_eq_ok.mp h
    have hns := names_append.mpr ⟨as, [[]], has, names_nil, rfl⟩
    rw [resolve_eq_walk hne hns, start_append ht, walk_append, ← resolve_eq_walk ht has, h]
    exact (hlast q).mpr ⟨rfl, hdir⟩

theorem rstrip_append_slash (t : Text) : rstrip (t ++ [slash]) = rstrip t := by
  simp [rstrip, List.reverse_append]

theorem rstrip_append_of_ne {t : Text} {c : Nat} (hc : c ≠ slash) : rstrip (t ++ [c]) = t ++ [c] := by
  simp [rstrip, List.reverse_append, hc]

theorem unslashed_iff {Q : Text → Prop} (h : ∀ t, t ≠ [] → (Q (t ++ [slash]) ↔ Q t)) (t : Text) : Q (unslashed t) ↔ Q t := by
  rw [unslashed]
  split
  · rfl
  next hall =>
    induction t using List.reverseRecOn with
    | nil => exact absurd rfl hall
    | append_singleton t c ih =>
      by_cases hc : c = slash
      · subst hc
        have hrest : ¬t.all (fun c => c = slash) = true := by simpa using hall
        have ht : t ≠ [] := by
          rintro rfl
          exact hrest rfl
        rw [rstrip_append_slash, h t ht]
        exact ih hrest
      · rw [rstrip_append_of_ne hc]

theorem location_unslashed {cwd q : Path} {t : Text} : location cwd (unslashed t) = .ok q ↔ location cwd t = .ok q := by
  refine unslashed_iff (Q := fun t => location cwd t = .ok q) (fun t ht => ?_) t
  have hstem : stem (t ++ [slash]) = t := by simp [stem]
  rw [location_stem, hstem, start_append ht, location, map_eq_ok]
  exact exists_congr fun _ => and_congr_right fun _ => eq_comm

theorem resolve_unslashed {fs : FileSystem} {cwd q : Path} {t : Text} (hdir : fs.node q = some .dir) :
    resolve fs cwd (unslashed t) = .ok q ↔ resolve fs cwd t = .ok q := by
  refine unslashed_iff (Q := fun t => resolve fs cwd t = .ok q) (fun t ht => ?_) t
  rw [resolve_append_slash ht, and_iff_left hdir]

theorem splitPath_append {s u : Text} (hu : slash ∉ u) :
    splitPath (s ++ slash :: u) = (unslashed (s ++ [slash]), u) := by
  have htail : ((s ++ slash :: u).reverse.takeWhile (fun c => c ≠ slash)).reverse = u := by
    have hmem : ∀ c ∈ u.reverse, decide (c ≠ slash) = true := by
      intro c hc
      exact decide_eq_true (fun heq => hu (heq ▸ List.mem_reverse.mp hc))
    rw [List.reverse_append, List.reverse_cons, List.append_assoc, List.takeWhile_append_of_pos hmem]
    simp
  have hhead : (s ++ slash :: u).take ((s ++ slash :: u).length - u.length) = s ++ [slash] := by
    rw [← List.singleton_append, ← List.append_assoc, List.length_append, Nat.add_sub_cancel, List.take_left]
  simp only [splitPath, htail, hhead]

theorem makedirs_join {cwd q : Path} {a u : Text} {d : Disk} (ha : resolve d.fs cwd a = .ok q) (hq : d.fs.node q = some .dir)
    (hne : u ≠ []) (hu : slash ∉ u) : makedirs cwd (join a u) d = mkdirUnlessDir cwd (join a u) d := by
  have hane := ne_nil_of_resolve ha
  have hrel := isAbsolute_of_notMem hu
  have hslash : resolve d.fs cwd (stem a ++ [slash]) = .ok q := by
    rcases stem_cases a with h | h
    · rw [← h]
      exact (resolve_append_slash hane).mpr ⟨ha, hq⟩
    · rwa [← h]
  have hsplit := splitPath_append (s := stem a) hu
  rw [← join_eq_stem hane hrel] at hsplit
  have hpair : headAndTail (join a u) = splitPath (join a u) := by
    rw [headAndTail, if_neg (by rw [hsplit]; exact hne)]
  have hhead : resolve d.fs cwd (headAndTail (join a u)).1 = .ok q := by
    rw [hpair, hsplit]
    exact (resolve_unslashed hq).mpr hslash
  have hthere : isThere d.fs cwd (headAndTail (join a u)).1 = true := by
    simp [isThere, hhead, hq]
  obtain ⟨k, hk⟩ : ∃ k, (join a u).length = k + 1 := by
    rw [join_eq_stem hane hrel]
    exact ⟨(stem a ++ u).length, by simp [Nat.add_assoc]⟩
  rw [makedirs, hk, makedirsFrom, bind_apply]
  simp only [isThereAt, hthere]
  rw [if_neg (by simp)]

theorem mkdirUnlessDir_of_not_location {cwd : Path} {t : Text} (h : ∀ q, location cwd t ≠ .ok q) :
    ∃ e, ∀ d, mkdirUnlessDir cwd t d = (.error e, d) := by
  cases hnames : names (unslashed t) with
  | ok ns => exact absurd (location_unslashed.mp (map_eq_ok.mpr ⟨ns, hnames, rfl⟩)) (h _)
  | error e =>
    refine ⟨e, fun d => ?_⟩
    have hos : e.isOSError = false := by
      rw [names] at hnames
      split at hnames
      · cases hnames
        rfl
      · split at hnames <;> cases hnames
        rfl
    have hmkdir : mkdir cwd t d = (.error e, d) := by
      simp only [mkdir, bind_apply, resolveAt, resolve, hnames]
      rfl
    simp only [mkdirUnlessDir, bind_apply, attempt, hmkdir, isdirAt, hos]
    rfl

end Makedirs

section Frames

variable {α β : Type} {P : Path → Prop} {cwd : Path} {t : Text}

/-- What has been touched since is in a set of places, all other places are as they were, and every
directory is still there. -/
structure Within (P : Path → Prop) (d d' : Disk) : Prop where
  touched : ∀ q ∈ d'.touched, q ∈ d.touched ∨ P q
  frame : ∀ q, ¬P q → d'.fs.node q = d.fs.node q
  dirs : ∀ q, d.fs.node q = some .dir → d'.fs.node q = some .dir

theorem Within.refl (d : Disk) : Within P d d := ⟨fun _ h => .inl h, fun _ _ => rfl, fun _ h => h⟩

theorem Within.trans {d d' d'' : Disk} (h : Within P d d') (h' : Within P d' d'') : Within P d d'' where
  touched q hq := (h'.touched q hq).elim (h.touched q) .inr
  frame q hq := (h'.frame q hq).trans (h.frame q hq)
  dirs q hq := h'.dirs q (h.dirs q hq)

/-- A command that stays in a set of places, and what holds of its result. -/
def Frames (P : Path → Prop) (c : Sys α) (R : α → Prop) : Prop :=
  ∀ d, Within P d (c d).2 ∧ ∀ a, (c d).1 = .ok a → R a

theorem Frames.bind {c : Sys α} {f : α → Sys β} {R : α → Prop} {R' : β → Prop} (h : Frames P c R)
    (hf : ∀ a, R a → Frames P (f a) R') : Frames P (c >>= f) R' := by
  intro d
  obtain ⟨hwithin, hresult⟩ := h d
  rw [bind_apply]
  rcases hrun : c d with ⟨e | a, d'⟩ <;> rw [hrun] at hwithin hresult
  · exact ⟨hwithin, nofun⟩
  · obtain ⟨hrest, hdone⟩ := hf a (hresult a rfl) d'
    exact ⟨hwithin.trans hrest, hdone⟩

theorem frames_pure {a : α} {R : α → Prop} (h : R a) : Frames P (pure a) R :=
  fun d => ⟨.refl d, fun _ heq => Except.ok.inj heq ▸ h⟩

theorem frames_fail {e : Fault} {R : α → Prop} : Frames P (fail e) R := fun d => ⟨.refl d, nofun⟩

theorem frames_isdirAt : Frames P (isdirAt cwd t) (fun _ => True) := fun d => ⟨.refl d, fun _ _ => trivial⟩

theorem frames_attempt {c : Sys α} {R : α → Prop} (h : Frames P c R) : Frames P (attempt c) (fun _ => True) :=
  fun d => ⟨(h d).1, fun _ _ => trivial⟩

theorem ne_of_not {p q : Path} (hp : P p) (hq : ¬P q) : q ≠ p := by
  rintro rfl
  exact hq hp

theorem ne_of_dir {fs : FileSystem} {p q : Path} (hq : fs.node q = some .dir) (hp : fs.node p ≠ some .dir) : q ≠ p := by
  rintro rfl
  exact hp hq

theorem FileSystem.place_node {fs fs' : FileSystem} {p : Path} {node : Node} (h : fs.place p node = .ok fs') :
    fs.node p ≠ some .dir ∧ ∀ q, fs'.node q = if q = p then some node else fs.node q := by
  rw [FileSystem.place] at h
  split at h
  · cases h
  next hne =>
    have hp : p.dropLast ++ [p.getLast hne] = p := List.dropLast_append_getLast hne
    split at h
    · split at h
      · cases h
      next hfree =>
        cases h
        refine ⟨by rwa [hp] at hfree, fun q => ?_⟩
        simp only [FileSystem.put, hp]
    · cases h

theorem frames_place {p : Path} {node : Node} (hp : P p) : Frames P (place p node) (fun _ => True) := by
  intro d
  refine ⟨?_, fun _ _ => trivial⟩
  rw [place]
  split
  next fs hfs =>
    obtain ⟨hfree, hnode⟩ := FileSystem.place_node hfs
    refine ⟨fun _ h => .inl h, fun q hq => ?_, fun q hq => ?_⟩
    · rw [hnode, if_neg (ne_of_not hp hq)]
    · rw [hnode, if_neg (ne_of_dir hq hfree), hq]
  · exact .refl d

theorem frames_unlink {p : Path} (hp : P p) : Frames P (unlink p) (fun _ => True) := by
  intro d
  refine ⟨?_, fun _ _ => trivial⟩
  rw [unlink]
  split
  · exact .refl d
  next hfile =>
    refine ⟨fun _ h => .inl h, fun q hq => if_neg (ne_of_not hp hq), fun q hq => ?_⟩
    exact (if_neg (ne_of_dir hq hfile)).trans hq

theorem frames_touch {p : Path} (hp : P p) : Frames P (touch p) (fun _ => True) := by
  intro d
  refine ⟨⟨fun q hq => ?_, fun _ _ => rfl, fun _ h => h⟩, fun _ _ => trivial⟩
  exact (List.mem_cons.mp hq).elim (fun heq => .inr (heq ▸ hp)) .inl

theorem frames_nodeAt (p : Path) : Frames P (nodeAt p) (fun _ => True) := fun d => ⟨.refl d, fun _ _ => trivial⟩

theorem frames_resolveAt (h : ∀ q, location cwd t = .ok q → P q) : Frames P (resolveAt cwd t) P :=
  fun d => ⟨.refl d, fun _ heq => h _ (resolve_location heq)⟩

end Frames

section Alike

variable {α β : Type} {S : Path → Prop} {cwd : Path} {t : Text}

def Node.isDir : Node → Bool
  | .dir => true
  | .file _ _ => false

structure Alike (S : Path → Prop) (d d' : Disk) : Prop where
  same : ∀ q, ¬S q → d.fs.node q = d'.fs.node q
  kind : ∀ q, (d.fs.node q).map Node.isDir = (d'.fs.node q).map Node.isDir

theorem isDir_iff {node : Option Node} : node = some .dir ↔ node.map Node.isDir = some true := by
  rcases node with _ | _ | _ <;> simp [Node.isDir]

theorem Alike.dir_iff {d d' : Disk} (h : Alike S d d') (q : Path) : d.fs.node q = some .dir ↔ d'.fs.node q = some .dir := by
  rw [isDir_iff, isDir_iff, h.kind]

theorem enter_eq (fs : FileSystem) (cur : Path) (n : Name) :
    Posix.enter fs cur n = match (fs.node cur).map Node.isDir with
      | some true => .ok (follow cur n)
      | some false => .error .notADirectoryError
      | none => .error .fileNotFoundError := by
  rw [enter]
  rcases fs.node cur with _ | _ | _ <;> rfl

theorem Alike.enter {d d' : Disk} (h : Alike S d d') (cur : Path) (n : Name) : enter d.fs cur n = enter d'.fs cur n := by
  rw [enter_eq, enter_eq, h.kind]

theorem Alike.walk {d d' : Disk} (h : Alike S d d') (cur : Path) (ns : List Name) : walk d.fs cur ns = walk d'.fs cur ns := by
  induction ns generalizing cur with
  | nil => rfl
  | cons n ns ih =>
    rw [Posix.walk, Posix.walk, h.enter]
    cases Posix.enter d'.fs cur n with
    | error e => rfl
    | ok next => exact ih next

theorem Alike.resolve {d d' : Disk} (h : Alike S d d') (cwd : Path) (t : Text) :
    resolve d.fs cwd t = resolve d'.fs cwd t := by
  rw [Posix.resolve, Posix.resolve]
  cases names t with
  | error e => rfl
  | ok ns => simp only [h.walk]

/-- A command that ends the same way on alike disks and leaves them alike, and what holds of its result. -/
def Agrees (S : Path → Prop) (c : Sys α) (R : α → Prop) : Prop :=
  ∀ d d', Alike S d d' → (c d).1 = (c d').1 ∧ Alike S (c d).2 (c d').2 ∧ ∀ a, (c d).1 = .ok a → R a

theorem Agrees.bind {c : Sys α} {f : α → Sys β} {R : α → Prop} {R' : β → Prop} (h : Agrees S c R)
    (hf : ∀ a, R a → Agrees S (f a) R') : Agrees S (c >>= f) R' := by
  intro d d' halike
  obtain ⟨hsame, hnext, hresult⟩ := h d d' halike
  rw [bind_apply, bind_apply]
  rcases hrun : c d with ⟨e | a, d₁⟩ <;> rcases hrun' : c d' with ⟨e' | a', d₁'⟩ <;>
    rw [hrun, hrun'] at hsame hnext <;> rw [hrun] at hresult
  · exact ⟨by rw [Except.error.inj hsame], hnext, nofun⟩
  · cases hsame
  · cases hsame
  · obtain rfl := Except.ok.inj hsame
    exact hf a (hresult a rfl) d₁ d₁' hnext

theorem agrees_pure {a : α} {R : α → Prop} (h : R a) : Agrees S (pure a) R :=
  fun _ _ halike => ⟨rfl, halike, fun _ heq => Except.ok.inj heq ▸ h⟩

theorem agrees_fail {e : Fault} {R : α → Prop} : Agrees S (fail e) R := fun _ _ halike => ⟨rfl, halike, nofun⟩

theorem agrees_attempt {c : Sys α} {R : α → Prop} (h : Agrees S c R) : Agrees S (attempt c) (fun _ => True) := by
  intro d d' halike
  obtain ⟨hsame, hnext, -⟩ := h d d' halike
  exact ⟨congrArg Except.ok hsame, hnext, fun _ _ => trivial⟩

theorem agrees_touch (p : Path) : Agrees S (touch p) (fun _ => True) :=
  fun _ _ halike => ⟨rfl, ⟨halike.same, halike.kind⟩, fun _ _ => trivial⟩

theorem agrees_nodeAt {p : Path} (hp : ¬S p) : Agrees S (nodeAt p) (fun _ => True) :=
  fun _ _ halike => ⟨congrArg Except.ok (halike.same p hp), halike, fun _ _ => trivial⟩

theorem agrees_isdirAt : Agrees S (isdirAt cwd t) (fun _ => True) := by
  intro d d' halike
  refine ⟨?_, halike, fun _ _ => trivial⟩
  simp only [isdirAt, isdir, halike.resolve, halike.dir_iff]

theorem agrees_resolveAt {R : Path → Prop} (h : ∀ q, location cwd t = .ok q → R q) : Agrees S (resolveAt cwd t) R :=
  fun _ _ halike => ⟨halike.resolve cwd t, halike, fun _ heq => h _ (resolve_location heq)⟩

theorem place_result (p : Path) (node : Node) (d : Disk) :
    (place p node d).1 =
      if p = [] then .error .isADirectoryError
      else if d.fs.node p.dropLast = some .dir then
        if d.fs.node p = some .dir then .error .isADirectoryError else .ok ()
      else .error .fileNotFoundError := by
  rw [place, FileSystem.place]
  by_cases hne : p = []
  · rw [dif_pos hne, if_pos hne]
  rw [dif_neg hne, if_neg hne]
  by_cases hdir : d.fs.node p.dropLast = some .dir
  · rw [dif_pos hdir, if_pos hdir]
    have hp : p.dropLast ++ [p.getLast hne] = p := List.dropLast_append_getLast hne
    by_cases hfree : d.fs.node p = some .dir
    · rw [dif_pos (by rwa [hp]), if_pos hfree]
    · rw [dif_neg (by rwa [hp]), if_neg hfree]
  · rw [dif_neg hdir, if_neg hdir]

theorem place_node (p : Path) (node : Node) (d : Disk) (q : Path) :
    (place p node d).2.fs.node q = if (place p node d).1 = .ok () ∧ q = p then some node else d.fs.node q := by
  rw [place]
  split
  next fs hfs =>
    rw [(FileSystem.place_node hfs).2]
    simp
  · simp

theorem agrees_place {p : Path} {node : Node} : Agrees S (place p node) (fun _ => True) := by
  intro d d' halike
  have hresult : (place p node d).1 = (place p node d').1 := by
    simp only [place_result, halike.dir_iff]
  refine ⟨hresult, ⟨fun q hq => ?_, fun q => ?_⟩, fun _ _ => trivial⟩
  · rw [place_node, place_node, hresult, halike.same q hq]
  · rw [place_node, place_node, hresult]
    split
    · rfl
    · exact halike.kind q

theorem agrees_unlink {p : Path} : Agrees S (unlink p) (fun _ => True) := by
  intro d d' halike
  rw [unlink, unlink]
  by_cases hdir : d.fs.node p = some .dir
  · rw [dif_pos hdir, dif_pos ((halike.dir_iff p).mp hdir)]
    exact ⟨rfl, halike, fun _ _ => trivial⟩
  · rw [dif_neg hdir, dif_neg (fun h => hdir ((halike.dir_iff p).mpr h))]
    refine ⟨rfl, ⟨fun q hq => ?_, fun q => ?_⟩, fun _ _ => trivial⟩
    · simp only [FileSystem.erase, halike.same q hq]
    · simp only [FileSystem.erase]
      split
      · rfl
      · exact halike.kind q

end Alike

section Confined

/-- The commands that read, make, write and remove only places of a set, with what holds of their
results. They may follow any text as long as it leads into the set. -/
inductive Confined (P : Path → Prop) : {α : Type} → Sys α → (α → Prop) → Prop
  | pure {α : Type} {a : α} {R : α → Prop} (h : R a) : Confined P (pure a) R
  | fail {α : Type} {e : Fault} {R : α → Prop} : Confined P (fail e) R
  | bind {α β : Type} {c : Sys α} {f : α → Sys β} {R : α → Prop} {R' : β → Prop} (hc : Confined P c R)
      (hf : ∀ a, R a → Confined P (f a) R') : Confined P (c >>= f) R'
  | attempt {α : Type} {c : Sys α} {R : α → Prop} (h : Confined P c R) : Confined P (attempt c) (fun _ => True)
  | touch {p : Path} (hp : P p) : Confined P (touch p) (fun _ => True)
  | nodeAt {p : Path} (hp : P p) : Confined P (nodeAt p) (fun _ => True)
  | place {p : Path} {node : Node} (hp : P p) : Confined P (place p node) (fun _ => True)
  | unlink {p : Path} (hp : P p) : Confined P (unlink p) (fun _ => True)
  | resolveAt {cwd : Path} {t : Text} (h : ∀ q, location cwd t = .ok q → P q) : Confined P (resolveAt cwd t) P
  | isdirAt {cwd : Path} {t : Text} : Confined P (isdirAt cwd t) (fun _ => True)

variable {α : Type} {P : Path → Prop} {c : Sys α} {R : α → Prop}

theorem Confined.frames (h : Confined P c R) : Frames P c R := by
  induction h with
  | pure h => exact frames_pure h
  | fail => exact frames_fail
  | bind _ _ hc hf => exact hc.bind hf
  | attempt _ h => exact frames_attempt h
  | touch hp => exact frames_touch hp
  | nodeAt _ => exact frames_nodeAt _
  | place hp => exact frames_place hp
  | unlink hp => exact frames_unlink hp
  | resolveAt h => exact frames_resolveAt h
  | isdirAt => exact frames_isdirAt

theorem Confined.agrees {S : Path → Prop} (h : Confined P c R) (hS : ∀ q, P q → ¬S q) : Agrees S c R := by
  induction h with
  | pure h => exact agrees_pure h
  | fail => exact agrees_fail
  | bind _ _ hc hf => exact hc.bind hf
  | attempt _ h => exact agrees_attempt h
  | touch _ => exact agrees_touch _
  | nodeAt hp => exact agrees_nodeAt (hS _ hp)
  | place _ => exact agrees_place
  | unlink _ => exact agrees_unlink
  | resolveAt h => exact agrees_resolveAt h
  | isdirAt => exact agrees_isdirAt

variable {cwd : Path} {t : Text} {proc : Process}

theorem confined_lookUp (h : ∀ q, location cwd t = .ok q → P q) : Confined P (lookUp cwd t) (fun r => P r.1) :=
  (Confined.resolveAt h).bind fun _ hp => (Confined.touch hp).bind fun _ _ => (Confined.nodeAt hp).bind fun _ _ => .pure hp

theorem confined_stat (h : ∀ q, location cwd t = .ok q → P q) : Confined P (stat cwd t) (fun _ => True) := by
  refine (confined_lookUp h).bind ?_
  rintro ⟨p, node⟩ -
  cases node with
  | none => exact .fail
  | some node => exact .pure trivial

theorem confined_pathExists (h : ∀ q, location cwd t = .ok q → P q) : Confined P (pathExists cwd t) (fun _ => True) := by
  refine (Confined.attempt (confined_stat h)).bind ?_
  rintro (e | node) -
  · exact .pure trivial
  · exact .pure trivial

theorem confined_getsize (h : ∀ q, location proc.cwd t = .ok q → P q) : Confined P (getsize proc t) (fun _ => True) := by
  refine (confined_stat h).bind ?_
  rintro (_ | _) -
  · exact .pure trivial
  · exact .pure trivial

theorem confined_getctime (h : ∀ q, location proc.cwd t = .ok q → P q) : Confined P (getctime proc t) (fun _ => True) := by
  refine (confined_stat h).bind ?_
  rintro (_ | _) -
  · exact .pure trivial
  · exact .pure trivial

theorem confined_openWrite {content : Bytes} (h : ∀ q, location proc.cwd t = .ok q → P q) :
    Confined P (openWrite proc t content) (fun _ => True) :=
  (confined_lookUp h).bind fun _ hp => .place hp

theorem confined_openUpdate {offset : Int} {chunk : Option Bytes} (h : ∀ q, location proc.cwd t = .ok q → P q) :
    Confined P (openUpdate proc t offset chunk) (fun _ => True) := by
  refine (confined_lookUp h).bind ?_
  rintro ⟨p, node⟩ hp
  cases node with
  | none => exact .fail
  | some node =>
    cases node with
    | dir => exact .fail
    | file content ctime =>
      dsimp only
      split
      · exact .fail
      · cases chunk with
        | none => exact .fail
        | some chunk =>
          dsimp only
          split
          · exact .pure trivial
          · exact .place hp

theorem confined_openRead (h : ∀ q, location cwd t = .ok q → P q) : Confined P (openRead cwd t) (fun _ => True) := by
  refine (confined_stat h).bind ?_
  rintro (_ | _) -
  · exact .fail
  · exact .pure trivial

theorem confined_remove (h : ∀ q, location cwd t = .ok q → P q) : Confined P (remove cwd t) (fun _ => True) := by
  refine (confined_lookUp h).bind ?_
  rintro ⟨p, node⟩ hp
  cases node with
  | none => exact .fail
  | some node => exact .unlink hp

theorem confined_mkdirUnlessDir (h : ∀ q, location cwd t = .ok q → P q) :
    Confined P (mkdirUnlessDir cwd t) (fun _ => True) := by
  have hmkdir : Confined P (mkdir cwd t) (fun _ => True) := by
    refine (Confined.resolveAt fun q hq => h q (location_unslashed.mp hq)).bind fun p hp => (Confined.nodeAt hp).bind ?_
    rintro (_ | node) -
    · exact (Confined.touch hp).bind fun _ _ => .place hp
    · exact .fail
  refine (Confined.attempt hmkdir).bind ?_
  rintro (e | _) -
  · refine Confined.isdirAt.bind fun isDir _ => ?_
    split
    · exact .pure trivial
    · exact .fail
  · exact .pure trivial

end Confined

section Ready

theorem walk_of_dirs {fs fs' : FileSystem} (hdirs : ∀ q, fs.node q = some .dir → fs'.node q = some .dir) {cur p : Path}
    {ns : List Name} (h : walk fs cur ns = .ok p) : walk fs' cur ns = .ok p := by
  induction ns generalizing cur with
  | nil => exact h
  | cons n ns ih =>
    obtain ⟨next, hnext, hrest⟩ := bind_eq_ok.mp h
    rw [enter] at hnext
    split at hnext
    next hdir =>
      cases hnext
      rw [walk, enter, hdirs cur hdir]
      exact ih hrest
    · cases hnext
    · cases hnext

variable {cwd p : Path} {t : Text}

theorem resolve_of_dirs {fs fs' : FileSystem} (hdirs : ∀ q, fs.node q = some .dir → fs'.node q = some .dir)
    (h : resolve fs cwd t = .ok p) : resolve fs' cwd t = .ok p := by
  have hne := ne_nil_of_resolve h
  obtain ⟨ns, hns, -⟩ := bind_eq_ok.mp h
  rw [resolve_eq_walk hne hns] at h ⊢
  exact walk_of_dirs hdirs h

def full (touched : List Path) : Disk := ⟨⟨fun _ => some .dir, rfl, fun _ _ _ => rfl⟩, touched⟩

theorem resolve_full (ht : t ≠ []) (h : location cwd t = .ok p) (touched : List Path) :
    resolve (full touched).fs cwd t = .ok p := by
  obtain ⟨ns, hns, rfl⟩ := map_eq_ok.mp h
  rw [resolve_eq_walk ht hns]
  generalize start cwd t = cur
  clear h hns
  induction ns generalizing cur with
  | nil => rfl
  | cons n ns ih => exact ih (follow cur n)

theorem lookUp_full (ht : t ≠ []) (h : location cwd t = .ok p) (touched : List Path) :
    lookUp cwd t (full touched) = (.ok (p, some .dir), full (p :: touched)) := by
  rw [lookUp, bind_apply]
  simp only [resolveAt, resolve_full ht h]
  rfl

theorem stat_full (ht : t ≠ []) (h : location cwd t = .ok p) (touched : List Path) :
    stat cwd t (full touched) = (.ok .dir, full (p :: touched)) := by
  rw [stat, bind_apply, lookUp_full ht h]
  rfl

theorem pathExists_full (ht : t ≠ []) (h : location cwd t = .ok p) (touched : List Path) :
    pathExists cwd t (full touched) = (.ok true, full (p :: touched)) := by
  rw [pathExists, bind_apply, attempt, stat_full ht h]
  rfl

theorem getsize_full {proc : Process} {p : Path} (ht : t ≠ []) (h : location proc.cwd t = .ok p)
    (touched : List Path) : getsize proc t (full touched) = (.ok proc.dirSize, full (p :: touched)) := by
  rw [getsize, bind_apply, stat_full ht h]
  rfl

theorem getctime_full {proc : Process} {p : Path} (ht : t ≠ []) (h : location proc.cwd t = .ok p)
    (touched : List Path) : getctime proc t (full touched) = (.ok proc.dirCtime, full (p :: touched)) := by
  rw [getctime, bind_apply, stat_full ht h]
  rfl

theorem unlink_full (p : Path) (touched : List Path) : unlink p (full touched) = (.error .isADirectoryError, full touched) :=
  dif_pos rfl

theorem place_full (p : Path) (node : Node) (touched : List Path) :
    place p node (full touched) = (.error .isADirectoryError, full touched) := by
  by_cases hp : p = []
  · simp [place, FileSystem.place, hp]
  · simp [place, FileSystem.place, hp, full]

theorem mkdirUnlessDir_full (ht : t ≠ []) (h : location cwd t = .ok p) (touched : List Path) :
    mkdirUnlessDir cwd t (full touched) = (.ok (), full touched) := by
  have hmkdir : mkdir cwd t (full touched) = (.error .fileExistsError, full touched) := by
    rw [mkdir, bind_apply]
    simp only [resolveAt, (resolve_unslashed rfl).mpr (resolve_full ht h touched)]
    rfl
  have hisdir : isdir (full touched).fs cwd t = true := by
    simp only [isdir, resolve_full ht h]
    rfl
  rw [mkdirUnlessDir, bind_apply]
  simp only [attempt, hmkdir, bind_apply, isdirAt, hisdir]
  rfl

end Ready

end ProductionStack.Posix
