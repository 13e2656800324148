import ProductionStack.Posix
import ProductionStack.Runs

namespace ProductionStack

open JsonText Utf8Text Command Posix

/-- The storage of a process with the given directory. Its base path leads somewhere. -/
structure FileStorage (cwd : Path) where
  basePath : Text
  root : Path
  located : location cwd basePath = .ok root
  nonempty : basePath ≠ []

structure OpenAIFile where
  id : Text
  object : Text := text "file"
  bytes : Nat
  createdAt : Int
  filename : Text
  purpose : Text
  deriving DecidableEq, Repr

namespace FileStorage

section Methods

def defaultUserId : Text := text "uid_default"

def defaultPurpose : Text := text "batch"

variable (proc : Process) (storage : FileStorage proc.cwd)

def init : Sys Unit := makedirs proc.cwd storage.basePath

def getUserPath (userId : Text) : Sys Text := do
  makedirs proc.cwd (join storage.basePath userId)
  return join storage.basePath userId

/-- The id of a file that is saved without one, from the hexadecimal text of a random UUID. -/
def freshId (hex : Text) : Text := text "file-" ++ hex.take 6

def saveFile (fileId : Option Text) (userId : Text) (fileName : Option Text) (content : Option Bytes) (purpose hex : Text) :
    Sys OpenAIFile :=
  match content with
  | none => fail .valueError
  | some content => do
      let fileId := fileId.getD (freshId hex)
      let userPath ← getUserPath proc storage userId
      let filePath := join userPath fileId
      openWrite proc filePath content
      let createdAt ← getctime proc filePath
      -- An empty file name counts as none.
      let filename := if fileName.getD [] = [] then fileId else fileName.getD []
      return { id := fileId, bytes := content.length, createdAt := createdAt, filename := filename, purpose := purpose }

def saveFileChunk (fileId userId : Text) (chunk : Option Bytes) (offset : Int) : Sys Unit := do
  let userPath ← getUserPath proc storage userId
  openUpdate proc (join userPath fileId) offset chunk

def getFile (fileId userId : Text) : Sys OpenAIFile := do
  let userPath ← getUserPath proc storage userId
  let filePath := join userPath fileId
  if (← pathExists proc.cwd filePath) = false then fail .fileNotFoundError
  else
    let fileSize ← getsize proc filePath
    let createdAt ← getctime proc filePath
    return { id := fileId, bytes := fileSize, createdAt := createdAt, filename := fileId, purpose := defaultPurpose }

def getFileContent (fileId userId : Text) : Sys Bytes := do
  let userPath ← getUserPath proc storage userId
  let filePath := join userPath fileId
  if (← pathExists proc.cwd filePath) = false then fail .fileNotFoundError else openRead proc.cwd filePath

def deleteFile (fileId userId : Text) : Sys Unit := do
  let userPath ← getUserPath proc storage userId
  let filePath := join userPath fileId
  if (← pathExists proc.cwd filePath) = true then remove proc.cwd filePath else return ()

inductive Request
  | saveFile (fileId fileName : Option Text) (content : Option Bytes) (purpose hex : Text)
  | saveFileChunk (fileId : Text) (chunk : Option Bytes) (offset : Int)
  | getFile (fileId : Text)
  | getFileContent (fileId : Text)
  | deleteFile (fileId : Text)

inductive Answer
  | file (file : OpenAIFile)
  | content (bytes : Bytes)
  | done
  deriving DecidableEq, Repr

def perform (userId : Text) : Request → Sys Answer
  | .saveFile fileId fileName content purpose hex => do
      let file ← saveFile proc storage fileId userId fileName content purpose hex
      return .file file
  | .saveFileChunk fileId chunk offset => do
      saveFileChunk proc storage fileId userId chunk offset
      return .done
  | .getFile fileId => do
      let file ← getFile proc storage fileId userId
      return .file file
  | .getFileContent fileId => do
      let bytes ← getFileContent proc storage fileId userId
      return .content bytes
  | .deleteFile fileId => do
      deleteFile proc storage fileId userId
      return .done

structure Call where
  userId : Text
  now : Int
  request : Request

def serve : Runs.Component Disk Call (Except Fault Answer) :=
  fun disk call => perform { proc with now := call.now } storage call.userId call.request disk

end Methods

section Confinement

variable {cwd : Path} (storage : FileStorage cwd)

def userName (userId : Text) : Option Name :=
  if slash ∈ userId ∨ 0 ∈ userId then none else (fsencode userId).filter (fun n => decide (Proper n))

def directory (n : Name) : Path := storage.root ++ [n]

def Request.fileId : Request → Option Text
  | .saveFile fileId _ content _ hex => content.map (fun _ => fileId.getD (freshId hex))
  | .saveFileChunk fileId _ _ => some fileId
  | .getFile fileId => some fileId
  | .getFileContent fileId => some fileId
  | .deleteFile fileId => some fileId

/-- The text made of the base path, the user id and the file id leads into the place that the first two lead to. -/
def Contained (userId : Text) (request : Request) : Prop :=
  ∀ fileId ∈ request.fileId, ∀ own p, location cwd (join storage.basePath userId) = .ok own →
    location cwd (join (join storage.basePath userId) fileId) = .ok p → own <+: p

/-- The id of a user that the file system cannot have as a name, for a NUL or a character that cannot be encoded. -/
def Unnamable (userId : Text) : Prop := slash ∉ userId ∧ ∃ e, names userId = .error e

def Ready (disk : Disk) : Prop :=
  resolve disk.fs cwd storage.basePath = .ok storage.root ∧ disk.fs.node storage.root = some .dir

theorem userName_eq_some {userId : Text} {n : Name} :
    userName userId = some n ↔ slash ∉ userId ∧ 0 ∉ userId ∧ fsencode userId = some n ∧ Proper n := by
  rw [userName]
  by_cases h : slash ∈ userId ∨ 0 ∈ userId
  · rw [if_pos h]
    constructor
    · nofun
    · rintro ⟨hslash, hzero, -⟩
      exact absurd h (not_or.mpr ⟨hslash, hzero⟩)
  · rw [if_neg h, Option.filter_eq_some_iff, decide_eq_true_iff]
    rw [not_or] at h
    simp only [h.1, h.2, not_false_eq_true, true_and]

variable {storage} {userId : Text} {n : Name}

theorem userId_ne_nil (hu : userName userId = some n) : userId ≠ [] := by
  rintro rfl
  obtain ⟨-, -, hn, hproper⟩ := userName_eq_some.mp hu
  exact hproper.1 (Option.some.inj hn).symm

theorem location_userPath (storage : FileStorage cwd) (hu : userName userId = some n) :
    location cwd (join storage.basePath userId) = .ok (storage.directory n) := by
  obtain ⟨hslash, hzero, hn, hproper⟩ := userName_eq_some.mp hu
  refine (location_join storage.nonempty (isAbsolute_of_notMem hslash)).mpr ?_
  exact ⟨storage.root, [n], storage.located, names_of_notMem hslash hzero hn, (locate_proper _ hproper).symm⟩

theorem contained_of_name {request : Request} {k : Name}
    (hname : ∀ fileId ∈ request.fileId, userName fileId = some k) : Contained storage userId request := by
  intro fileId hfile own p hown hp
  obtain ⟨hslash, hzero, hk, hproper⟩ := userName_eq_some.mp (hname fileId hfile)
  have huser := join_ne_nil storage.nonempty userId
  obtain ⟨q, ns, hq, hns, rfl⟩ := (location_join huser (isAbsolute_of_notMem hslash)).mp hp
  obtain rfl : own = q := Except.ok.inj (hown.symm.trans hq)
  obtain rfl : [k] = ns := Except.ok.inj ((names_of_notMem hslash hzero hk).symm.trans hns)
  rw [locate_proper own hproper]
  exact List.prefix_append own [k]

def useFile (proc : Process) (filePath fileId : Text) : Request → Sys Answer
  | .saveFile _ fileName content purpose _ => do
      openWrite proc filePath (content.getD [])
      let createdAt ← getctime proc filePath
      let filename := if fileName.getD [] = [] then fileId else fileName.getD []
      return .file
        { id := fileId, bytes := (content.getD []).length, createdAt := createdAt, filename := filename
          purpose := purpose }
  | .saveFileChunk _ chunk offset => do
      openUpdate proc filePath offset chunk
      return .done
  | .getFile _ => do
      if (← pathExists proc.cwd filePath) = false then fail .fileNotFoundError
      else
        let fileSize ← getsize proc filePath
        let createdAt ← getctime proc filePath
        return .file
          { id := fileId, bytes := fileSize, createdAt := createdAt, filename := fileId, purpose := defaultPurpose }
  | .getFileContent _ => do
      if (← pathExists proc.cwd filePath) = false then fail .fileNotFoundError
      else
        let bytes ← openRead proc.cwd filePath
        return .content bytes
  | .deleteFile _ => do
      if (← pathExists proc.cwd filePath) = true then
        remove proc.cwd filePath
        return .done
      else return .done

theorem Ready.within {P : Path → Prop} {disk disk' : Disk} (hready : Ready storage disk) (h : Within P disk disk') :
    Ready storage disk' :=
  ⟨resolve_of_dirs h.dirs hready.1, h.dirs _ hready.2⟩

theorem Ready.alike {S : Path → Prop} {disk disk' : Disk} (hready : Ready storage disk) (h : Alike S disk disk') :
    Ready storage disk' :=
  ⟨(h.resolve _ _).symm.trans hready.1, (h.dir_iff _).mp hready.2⟩

theorem disjoint_directories {m : Name} (h : n ≠ m) {q : Path}
    (hn : storage.directory n <+: q) : ¬storage.directory m <+: q := by
  intro hm
  have hlen : (storage.directory n).length = (storage.directory m).length := by simp [directory]
  have heq := (List.prefix_of_prefix_length_le hn hm hlen.le).eq_of_length hlen
  exact h (List.singleton_injective (List.append_cancel_left heq))

theorem ready_full (storage : FileStorage cwd) (touched : List Path) : Ready storage (full touched) :=
  ⟨resolve_full storage.nonempty storage.located touched, rfl⟩

variable (proc : Process) {storage : FileStorage proc.cwd} {request : Request}

theorem perform_eq {fileId : Text} (hfile : request.fileId = some fileId) :
    perform proc storage userId request =
      makedirs proc.cwd (join storage.basePath userId) >>= fun _ =>
        useFile proc (join (join storage.basePath userId) fileId) fileId request := by
  cases request with
  | saveFile id fileName content purpose hex =>
    cases content with
    | none => cases hfile
    | some content =>
      cases hfile
      simp only [perform, saveFile, getUserPath, useFile, bind_bind, Command.pure_bind, Option.getD_some]
  | saveFileChunk id chunk offset =>
    cases hfile
    simp only [perform, saveFileChunk, getUserPath, useFile, bind_bind, Command.pure_bind]
  | getFile id =>
    cases hfile
    simp only [perform, getFile, getUserPath, useFile, bind_bind, Command.pure_bind]
    congr 1
    funext _
    congr 1
    funext found
    cases found <;> simp [fail_bind, bind_bind, Command.pure_bind]
  | getFileContent id =>
    cases hfile
    simp only [perform, getFileContent, getUserPath, useFile, bind_bind, Command.pure_bind]
    congr 1
    funext _
    congr 1
    funext found
    cases found <;> simp [fail_bind]
  | deleteFile id =>
    cases hfile
    simp only [perform, deleteFile, getUserPath, useFile, bind_bind, Command.pure_bind]
    congr 1
    funext _
    congr 1
    funext found
    cases found <;> simp [Command.pure_bind]

theorem perform_ready (hu : userName userId = some n) {disk : Disk} (hready : Ready storage disk)
    {fileId : Text} (hfile : request.fileId = some fileId) :
    perform proc storage userId request disk =
      (mkdirUnlessDir proc.cwd (join storage.basePath userId) >>= fun _ =>
        useFile proc (join (join storage.basePath userId) fileId) fileId request) disk := by
  have hslash := (userName_eq_some.mp hu).1
  rw [perform_eq proc hfile, bind_apply, bind_apply, makedirs_join hready.1 hready.2 (userId_ne_nil hu) hslash]

theorem perform_none (hfile : request.fileId = none) : perform proc storage userId request = fail .valueError := by
  cases request with
  | saveFile id fileName content purpose hex =>
    cases content with
    | none => rfl
    | some content => cases hfile
  | saveFileChunk id chunk offset => cases hfile
  | getFile id => cases hfile
  | getFileContent id => cases hfile
  | deleteFile id => cases hfile

theorem perform_unnamable (hunnamable : Unnamable userId) (request : Request) :
    ∃ e, ∀ disk, Ready storage disk → perform proc storage userId request disk = (.error e, disk) := by
  obtain ⟨hslash, e, hnames⟩ := hunnamable
  cases hfile : request.fileId with
  | none => exact ⟨.valueError, fun disk _ => by rw [perform_none proc hfile]; rfl⟩
  | some fileId =>
    have hne : userId ≠ [] := by
      rintro rfl
      cases hnames
    have hlocation : ∀ q, location proc.cwd (join storage.basePath userId) ≠ .ok q := by
      intro q hq
      obtain ⟨_, _, -, hok, -⟩ := (location_join storage.nonempty (isAbsolute_of_notMem hslash)).mp hq
      cases hnames.symm.trans hok
    obtain ⟨e, he⟩ := mkdirUnlessDir_of_not_location hlocation
    refine ⟨e, fun disk hready => ?_⟩
    rw [perform_eq proc hfile, bind_apply, makedirs_join hready.1 hready.2 hne hslash, he]

theorem confined_useFile {P : Path → Prop} {filePath fileId : Text} (h : ∀ q, location proc.cwd filePath = .ok q → P q) :
    Confined P (useFile proc filePath fileId request) (fun _ => True) := by
  cases request with
  | saveFile id fileName content purpose hex =>
    exact (confined_openWrite h).bind fun _ _ => (confined_getctime h).bind fun _ _ => .pure trivial
  | saveFileChunk id chunk offset => exact (confined_openUpdate h).bind fun _ _ => .pure trivial
  | getFile id =>
    refine (confined_pathExists h).bind fun found _ => ?_
    split
    · exact .fail
    · exact (confined_getsize h).bind fun _ _ => (confined_getctime h).bind fun _ _ => .pure trivial
  | getFileContent id =>
    refine (confined_pathExists h).bind fun found _ => ?_
    split
    · exact .fail
    · exact (confined_openRead h).bind fun _ _ => .pure trivial
  | deleteFile id =>
    refine (confined_pathExists h).bind fun found _ => ?_
    split
    · exact (confined_remove h).bind fun _ _ => .pure trivial
    · exact .pure trivial

theorem confined_perform (hu : userName userId = some n) (hcontained : Contained storage userId request) :
    ∃ c : Sys Answer, (∀ disk, Ready storage disk → perform proc storage userId request disk = c disk) ∧
      Confined (fun q => storage.directory n <+: q) c (fun _ => True) := by
  have hown := location_userPath storage hu
  cases hfile : request.fileId with
  | none => exact ⟨fail .valueError, fun disk _ => by rw [perform_none proc hfile], .fail⟩
  | some fileId =>
    refine ⟨_, fun disk hready => perform_ready proc hu hready hfile, ?_⟩
    refine (confined_mkdirUnlessDir (fun q hq => ?_)).bind fun _ _ => confined_useFile proc (fun q hq => ?_)
    · obtain rfl : storage.directory n = q := Except.ok.inj (hown.symm.trans hq)
      exact List.prefix_rfl
    · exact hcontained fileId hfile _ q hown hq

theorem perform_within (hu : userName userId = some n) (hcontained : Contained storage userId request) {disk : Disk}
    (hready : Ready storage disk) :
    Within (fun q => storage.directory n <+: q) disk (perform proc storage userId request disk).2 := by
  obtain ⟨c, hc, hconfined⟩ := confined_perform proc hu hcontained
  rw [hc disk hready]
  exact (hconfined.frames disk).1

theorem useFile_full {filePath fileId : Text} (hne : filePath ≠ []) {p : Path} (h : location proc.cwd filePath = .ok p) :
    p ∈ (useFile proc filePath fileId request (full [])).2.touched := by
  cases request with
  | saveFile id fileName content purpose hex =>
    simp only [useFile, openWrite, bind_apply, lookUp_full hne h, place_full]
    exact List.mem_cons_self
  | saveFileChunk id chunk offset =>
    simp only [useFile, openUpdate, bind_apply, lookUp_full hne h]
    exact List.mem_cons_self
  | getFile id =>
    simp only [useFile, bind_apply, pathExists_full hne h, reduceCtorEq, if_false, getsize_full hne h, getctime_full hne h]
    exact List.mem_cons_self
  | getFileContent id =>
    simp only [useFile, bind_apply, pathExists_full hne h, reduceCtorEq, if_false, openRead, stat_full hne h]
    exact List.mem_cons_self
  | deleteFile id =>
    simp only [useFile, bind_apply, pathExists_full hne h, if_true, remove, lookUp_full hne h, unlink_full]
    exact List.mem_cons_self

theorem contained_of_touched (hu : userName userId = some n)
    (h : ∀ q ∈ (perform proc storage userId request (full [])).2.touched, storage.directory n <+: q) :
    Contained storage userId request := by
  intro fileId hfile own p hown hp
  have hlocated := location_userPath storage hu
  obtain rfl : storage.directory n = own := Except.ok.inj (hlocated.symm.trans hown)
  have huser := join_ne_nil storage.nonempty userId
  have hne := join_ne_nil huser fileId
  rw [perform_ready proc hu (ready_full storage []) hfile, bind_apply, mkdirUnlessDir_full huser hown] at h
  exact h p (useFile_full proc hne hp)

/-- A call for a user whose id is one name other than the given one, with a file id that stays with the user, or
is none that can be. -/
def Stranger (storage : FileStorage cwd) (m : Name) (call : Call) : Prop :=
  (∃ n, userName call.userId = some n ∧ n ≠ m ∧ Contained storage call.userId call.request) ∨ Unnamable call.userId

theorem serve_stranger {m : Name} {call : Call} (hcall : Stranger storage m call) {disk : Disk} (hready : Ready storage disk) :
    Ready storage (serve proc storage disk call).2 ∧
      ∀ q, storage.directory m <+: q → (serve proc storage disk call).2.fs.node q = disk.fs.node q := by
  rcases hcall with ⟨n, hu, hne, hcontained⟩ | hunnamable
  · have hwithin := perform_within { proc with now := call.now } hu hcontained hready
    exact ⟨hready.within hwithin, fun q hq => hwithin.frame q (fun hn => disjoint_directories hne hn hq)⟩
  · obtain ⟨e, he⟩ := perform_unnamable { proc with now := call.now } hunnamable call.request
    rw [serve, he disk hready]
    exact ⟨hready, fun _ _ => rfl⟩

theorem serve_alike {m : Name} {call : Call} (hcall : Stranger storage m call) {disk disk' : Disk}
    (hready : Ready storage disk) (halike : Alike (fun q => storage.directory m <+: q) disk disk') :
    (serve proc storage disk call).1 = (serve proc storage disk' call).1 ∧
      Alike (fun q => storage.directory m <+: q) (serve proc storage disk call).2 (serve proc storage disk' call).2 := by
  rcases hcall with ⟨n, hu, hne, hcontained⟩ | hunnamable
  · obtain ⟨c, hc, hconfined⟩ := confined_perform { proc with now := call.now } hu hcontained
    have hagrees := hconfined.agrees (fun q hn => disjoint_directories hne hn) disk disk' halike
    rw [serve, serve, hc disk hready, hc disk' (hready.alike halike)]
    exact ⟨hagrees.1, hagrees.2.1⟩
  · obtain ⟨e, he⟩ := perform_unnamable { proc with now := call.now } hunnamable call.request
    rw [serve, serve, he disk hready, he disk' (hready.alike halike)]
    exact ⟨rfl, halike⟩

theorem final_stranger {m : Name} {calls : List Call} (hcalls : ∀ call ∈ calls, Stranger storage m call) {disk : Disk}
    (hready : Ready storage disk) {q : Path} (hq : storage.directory m <+: q) :
    (Runs.final (serve proc storage) disk calls).fs.node q = disk.fs.node q := by
  induction calls generalizing disk with
  | nil => rfl
  | cons call calls ih =>
    obtain ⟨hcall, hrest⟩ := List.forall_mem_cons.mp hcalls
    obtain ⟨hnext, hsame⟩ := serve_stranger proc hcall hready
    exact (ih hrest hnext).trans (hsame q hq)

theorem outputs_stranger {m : Name} {calls : List Call} (hcalls : ∀ call ∈ calls, Stranger storage m call)
    {disk disk' : Disk} (hready : Ready storage disk) (halike : Alike (fun q => storage.directory m <+: q) disk disk') :
    Runs.outputs (serve proc storage) disk calls = Runs.outputs (serve proc storage) disk' calls := by
  induction calls generalizing disk disk' with
  | nil => rfl
  | cons call calls ih =>
    obtain ⟨hcall, hrest⟩ := List.forall_mem_cons.mp hcalls
    obtain ⟨hsame, hnext⟩ := serve_alike proc hcall hready halike
    rw [Runs.outputs_cons, Runs.outputs_cons, hsame, ih hrest (serve_stranger proc hcall hready).1 hnext]

/-- For a user whose id is one name, a request reads, makes, writes and removes only places in the directory of the
user on every disk exactly if its file id does not lead out of it; for one whose id cannot be a name it raises and
touches nothing. Such calls leave everything in the directory of every other user as it was, and nothing they answer
depends on what is in the files there. -/
theorem users_isolated (proc : Process) (storage : FileStorage proc.cwd) :
    (∀ userId n, userName userId = some n → ∀ request, Contained storage userId request ↔
      ∀ disk, Ready storage disk → ∀ q ∈ (perform proc storage userId request disk).2.touched,
        q ∈ disk.touched ∨ storage.directory n <+: q) ∧
      (∀ userId, Unnamable userId → ∀ request, ∃ e, ∀ disk, Ready storage disk →
        perform proc storage userId request disk = (.error e, disk)) ∧
      ∀ m calls, (∀ call ∈ calls, Stranger storage m call) → ∀ disk, Ready storage disk →
        (∀ q, storage.directory m <+: q → (Runs.final (serve proc storage) disk calls).fs.node q = disk.fs.node q) ∧
          ∀ disk', Alike (fun q => storage.directory m <+: q) disk disk' →
            Runs.outputs (serve proc storage) disk calls = Runs.outputs (serve proc storage) disk' calls := by
  refine ⟨fun userId n hu request => ⟨fun hcontained disk hready => ?_, fun h => ?_⟩,
    fun _ hunnamable => perform_unnamable proc hunnamable, fun m calls hcalls disk hready => ?_⟩
  · exact (perform_within proc hu hcontained hready).touched
  · refine contained_of_touched proc hu (fun q hq => ?_)
    exact (h (full []) (ready_full storage []) q hq).resolve_left List.not_mem_nil
  · exact ⟨fun q hq => final_stranger proc hcalls hready hq, fun disk' halike => outputs_stranger proc hcalls hready halike⟩

end Confinement

section Neighbours

def process : Process := ⟨[], 0, 4096, 0⟩

def tmpFiles : FileStorage process.cwd where
  basePath := text "/tmp/vllm_files"
  root := [[116, 109, 112], [118, 108, 108, 109, 95, 102, 105, 108, 101, 115]]
  located := by decide
  nonempty := by decide

def empty : Disk := ⟨⟨fun p => if p = [] then some .dir else none, rfl, fun p n h => by simp at h⟩, []⟩

def installed : Disk := (init process tmpFiles empty).2

def aliceSaves : Call := ⟨text "alice", 7, .saveFile (some (text "f")) none (some [115]) defaultPurpose []⟩

def saved : Disk := (serve process tmpFiles installed aliceSaves).2

def ownCalls : List Call :=
  [⟨defaultUserId, 8, .saveFile (some (text "f")) none (some [116]) defaultPurpose []⟩, ⟨defaultUserId, 8, .deleteFile (text "f")⟩]

theorem ownCalls_strangers : ∀ call ∈ ownCalls, Stranger tmpFiles [97, 108, 105, 99, 101] call := by
  have hname : userName (text "f") = some [102] := by decide
  have huser : userName defaultUserId = some [117, 105, 100, 95, 100, 101, 102, 97, 117, 108, 116] := by decide
  simp only [ownCalls, List.forall_mem_cons]
  refine ⟨?_, ?_, nofun⟩
  · refine .inl ⟨_, huser, by decide, contained_of_name (k := [102]) ?_⟩
    rintro _ ⟨⟩
    exact hname
  · refine .inl ⟨_, huser, by decide, contained_of_name (k := [102]) ?_⟩
    rintro _ ⟨⟩
    exact hname

theorem alice_keeps_file :
    (Runs.final (serve process tmpFiles) saved ownCalls).fs.node (directory tmpFiles [97, 108, 105, 99, 101] ++ [[102]]) =
      some (.file [115] 7) := by
  have hready : Ready tmpFiles saved := by constructor <;> decide
  have hsame := ((users_isolated process tmpFiles).2.2 _ ownCalls ownCalls_strangers saved hready).1
  exact (hsame _ (List.prefix_append _ _)).trans (by decide)

theorem neighbour_reads_and_deletes :
    Runs.outputs (serve process tmpFiles) saved
        [⟨defaultUserId, 8, .getFileContent (text "../alice/f")⟩, ⟨defaultUserId, 8, .deleteFile (text "../alice/f")⟩,
          ⟨text "alice", 9, .getFileContent (text "f")⟩] =
      [.ok (.content [115]), .ok .done, .error .fileNotFoundError] := by
  decide

end Neighbours

end FileStorage

end ProductionStack
