import ProductionStack.FileStorage
import ProductionStack.PosixFiles

namespace ProductionStack.FileStorage

open JsonText Utf8Text Command Posix

section Effects

variable (proc : Process) (storage : FileStorage proc.cwd)

def opened (userId fileId : Text) (disk : Disk) : Except Fault Path :=
  match makedirs proc.cwd (join storage.basePath userId) disk with
  | (.ok _, disk') => resolve disk'.fs proc.cwd (join (join storage.basePath userId) fileId)
  | (.error e, _) => .error e

def Request.result (now : Int) (content : Bytes) (ctime : Int) : Request → Option Node
  | .saveFile _ _ new _ _ => some (.file (new.getD []) now)
  | .saveFileChunk _ chunk offset => some (((updated offset chunk content).map (Node.file · now)).getD (.file content ctime))
  | .getFile _ => some (.file content ctime)
  | .getFileContent _ => some (.file content ctime)
  | .deleteFile _ => none

variable {proc storage} {userId fileId filePath : Text} {request : Request} {disk : Disk} {q : Path} {content : Bytes} {ctime : Int}

theorem useFile_node_of_reading (hreading : Reading (useFile proc filePath fileId request))
    (hresult : request.result proc.now content ctime = some (.file content ctime))
    (hq : disk.fs.node q = some (.file content ctime)) :
    (useFile proc filePath fileId request disk).2.fs.node q =
      if resolve disk.fs proc.cwd filePath = .ok q then request.result proc.now content ctime
      else some (.file content ctime) := by
  rw [hreading disk, hq, hresult, ite_self]

theorem useFile_node (hq : disk.fs.node q = some (.file content ctime)) :
    (useFile proc filePath fileId request disk).2.fs.node q =
      if resolve disk.fs proc.cwd filePath = .ok q then request.result proc.now content ctime
      else some (.file content ctime) := by
  cases request with
  | saveFile id fileName new purpose hex =>
    rw [useFile, bind_reading_fs, openWrite_node hq]
    · rfl
    · exact fun _ => reading_getctime.bind (fun _ => reading_pure _)
  | saveFileChunk id chunk offset =>
    rw [useFile, bind_reading_fs, openUpdate_node hq]
    · rfl
    · exact fun _ => reading_pure _
  | getFile id =>
    refine useFile_node_of_reading (reading_pathExists.bind (fun found => ?_)) rfl hq
    split
    · exact reading_fail _
    · exact reading_getsize.bind (fun _ => reading_getctime.bind (fun _ => reading_pure _))
  | getFileContent id =>
    refine useFile_node_of_reading (reading_pathExists.bind (fun found => ?_)) rfl hq
    split
    · exact reading_fail _
    · exact reading_openRead.bind (fun _ => reading_pure _)
  | deleteFile id =>
    obtain ⟨disk', hfs, hexists⟩ := pathExists_run proc.cwd filePath disk
    rw [useFile, bind_of_ok hexists, ← hfs]
    rw [← hfs] at hq
    split
    · rw [bind_reading_fs, remove_node hq]
      · rfl
      · exact fun _ => reading_pure _
    next hthere =>
      rw [if_neg]
      · exact hq
      · intro hresolve
        exact hthere (by simp [isThere, hresolve, hq])

theorem perform_node (hfile : request.fileId = some fileId) (hq : disk.fs.node q = some (.file content ctime)) :
    (perform proc storage userId request disk).2.fs.node q =
      if opened proc storage userId fileId disk = .ok q then request.result proc.now content ctime
      else some (.file content ctime) := by
  have hgrows : Grows disk (makedirs proc.cwd (join storage.basePath userId) disk).2 := growing_makedirs _ disk
  rw [perform_eq proc hfile, bind_apply, opened]
  rcases hmade : makedirs proc.cwd (join storage.basePath userId) disk with ⟨e | _, disk'⟩ <;> rw [hmade] at hgrows
  · rw [if_neg (by simp)]
    exact (hgrows q (by rw [hq]; exact Option.some_ne_none _)).trans hq
  · exact useFile_node ((hgrows q (by rw [hq]; exact Option.some_ne_none _)).trans hq)

theorem useFile_dirs (hq : disk.fs.node q = some .dir) : (useFile proc filePath fileId request disk).2.fs.node q = some .dir := by
  have hconfined : Confined (fun _ => True) (useFile proc filePath fileId request) (fun _ => True) :=
    confined_useFile proc (fun _ _ => trivial)
  exact (hconfined.frames disk).1.dirs q hq

theorem perform_dirs (hq : disk.fs.node q = some .dir) : (perform proc storage userId request disk).2.fs.node q = some .dir := by
  cases hfile : request.fileId with
  | none =>
    rw [perform_none proc hfile]
    exact hq
  | some fileId =>
    have hgrows : Grows disk (makedirs proc.cwd (join storage.basePath userId) disk).2 := growing_makedirs _ disk
    rw [perform_eq proc hfile, bind_apply]
    rcases hmade : makedirs proc.cwd (join storage.basePath userId) disk with ⟨e | _, disk'⟩ <;> rw [hmade] at hgrows
    · exact hgrows.dirs q hq
    · exact useFile_dirs (hgrows.dirs q hq)

theorem serve_node {call : Call} (hfile : call.request.fileId = some fileId) (hq : disk.fs.node q = some (.file content ctime)) :
    (serve proc storage disk call).2.fs.node q =
      if opened proc storage call.userId fileId disk = .ok q then call.request.result call.now content ctime
      else some (.file content ctime) := by
  rw [serve]
  exact perform_node hfile hq

theorem serve_dirs {call : Call} (hq : disk.fs.node q = some .dir) : (serve proc storage disk call).2.fs.node q = some .dir :=
  perform_dirs hq

end Effects

section Reaches

structure Reaches {cwd : Path} (storage : FileStorage cwd) (userId fileId : Text) (disk : Disk) (p : Path) : Prop where
  user : ∃ q, resolve disk.fs cwd (join storage.basePath userId) = .ok q ∧ disk.fs.node q = some .dir
  file : resolve disk.fs cwd (join (join storage.basePath userId) fileId) = .ok p

variable {proc : Process} {storage : FileStorage proc.cwd} {userId fileId : Text} {request : Request} {disk : Disk} {p : Path}
variable {content : Bytes} {ctime : Int}

def HasContent (p : Path) (content : Bytes) (disk : Disk) : Prop := ∃ ctime, disk.fs.node p = some (.file content ctime)

theorem Reaches.of_dirs {disk' : Disk} (h : Reaches storage userId fileId disk p)
    (hdirs : ∀ q, disk.fs.node q = some .dir → disk'.fs.node q = some .dir) : Reaches storage userId fileId disk' p where
  user := by
    obtain ⟨q, hq, hdir⟩ := h.user
    exact ⟨q, resolve_of_dirs hdirs hq, hdirs q hdir⟩
  file := resolve_of_dirs hdirs h.file

theorem Reaches.makedirs (h : Reaches storage userId fileId disk p) :
    makedirs proc.cwd (join storage.basePath userId) disk = (.ok (), disk) := by
  obtain ⟨q, hq, hdir⟩ := h.user
  exact makedirs_of_dir hq hdir

theorem Reaches.opened (h : Reaches storage userId fileId disk p) : opened proc storage userId fileId disk = .ok p := by
  rw [FileStorage.opened, h.makedirs]
  exact h.file

theorem Reaches.serve_eq (h : Reaches storage userId fileId disk p) (now : Int) (hfile : request.fileId = some fileId) :
    serve proc storage disk ⟨userId, now, request⟩ =
      useFile { proc with now := now } (join (join storage.basePath userId) fileId) fileId request disk := by
  rw [serve, perform_eq _ hfile]
  exact bind_of_ok h.makedirs

theorem Reaches.isThere (h : Reaches storage userId fileId disk p) :
    isThere disk.fs proc.cwd (join (join storage.basePath userId) fileId) = (disk.fs.node p).isSome := by
  rw [Posix.isThere, h.file]

theorem Reaches.serve (h : Reaches storage userId fileId disk p) (call : Call) :
    Reaches storage userId fileId (serve proc storage disk call).2 p :=
  h.of_dirs (fun _ hq => serve_dirs hq)

theorem Reaches.final (h : Reaches storage userId fileId disk p) (calls : List Call) :
    Reaches storage userId fileId (Runs.final (FileStorage.serve proc storage) disk calls) p := by
  induction calls generalizing disk with
  | nil => exact h
  | cons call calls ih => exact ih (h.serve call)

theorem hasContent_serve {call : Call} (hfile : call.request.fileId = some fileId)
    (hp : disk.fs.node p = some (.file content ctime)) :
    HasContent p content (serve proc storage disk call).2 ↔
      (opened proc storage call.userId fileId disk = .ok p →
        ∃ t, call.request.result call.now content ctime = some (.file content t)) := by
  rw [HasContent, serve_node hfile hp]
  split
  next hopened => simp only [hopened, forall_const]
  next hopened =>
    simp only [hopened, false_implies, iff_true]
    exact ⟨ctime, rfl⟩

theorem Reaches.getFileContent_iff (h : Reaches storage userId fileId disk p) (now : Int) :
    (FileStorage.serve proc storage disk ⟨userId, now, .getFileContent fileId⟩).1 = .ok (.content content) ↔
      HasContent p content disk := by
  obtain ⟨disk', hfs, hexists⟩ := pathExists_run proc.cwd (join (join storage.basePath userId) fileId) disk
  rw [h.isThere] at hexists
  rw [h.serve_eq now rfl, useFile, bind_of_ok hexists]
  cases hp : disk.fs.node p with
  | none =>
    rw [if_pos Option.isSome_none]
    constructor
    · intro hread
      cases hread
    · rintro ⟨ctime, hfile⟩
      cases hp.symm.trans hfile
  | some node =>
    rw [if_neg (by simp), openRead, bind_apply, bind_of_ok (stat_ok (hfs ▸ h.file) (hfs ▸ hp))]
    cases node with
    | dir =>
      constructor
      · intro hread
        cases hread
      · rintro ⟨ctime, hfile⟩
        cases hp.symm.trans hfile
    | file content' ctime =>
      constructor
      · rintro ⟨⟩
        exact ⟨ctime, hp⟩
      · rintro ⟨ctime', hfile⟩
        cases hp.symm.trans hfile
        rfl

theorem Reaches.getFile (h : Reaches storage userId fileId disk p) (hp : disk.fs.node p = some (.file content ctime))
    (now : Int) :
    (FileStorage.serve proc storage disk ⟨userId, now, .getFile fileId⟩).1 =
      .ok (.file { id := fileId, bytes := content.length, createdAt := ctime, filename := fileId, purpose := defaultPurpose }) := by
  obtain ⟨disk', hfs, hexists⟩ := pathExists_run proc.cwd (join (join storage.basePath userId) fileId) disk
  rw [h.isThere, hp] at hexists
  have hctime : getctime { proc with now := now } (join (join storage.basePath userId) fileId)
      { disk' with touched := p :: disk'.touched } = (.ok ctime, { disk' with touched := p :: p :: disk'.touched }) :=
    getctime_ok (hfs ▸ h.file) (hfs ▸ hp)
  rw [h.serve_eq now rfl, useFile, bind_of_ok hexists, if_neg (by simp), bind_of_ok (getsize_ok (hfs ▸ h.file) (hfs ▸ hp)),
    bind_of_ok hctime]
  rfl

theorem Reaches.saveFileChunk (h : Reaches storage userId fileId disk p) (hp : disk.fs.node p = some (.file content ctime))
    (now : Int) (offset : Nat) (chunk : Bytes) :
    (FileStorage.serve proc storage disk ⟨userId, now, .saveFileChunk fileId (some chunk) offset⟩).1 = .ok .done := by
  have hupdate : (openUpdate { proc with now := now } (join (join storage.basePath userId) fileId) offset (some chunk) disk).1 =
      .ok () := openUpdate_ok h.file hp
  rw [h.serve_eq now rfl, useFile, bind_of_ok (Prod.ext hupdate rfl)]
  rfl

theorem saveFile_ok {id fileName : Option Text} {purpose hex : Text} {answer : Answer} {disk' : Disk}
    (h : perform proc storage userId (.saveFile id fileName (some content) purpose hex) disk = (.ok answer, disk')) :
    ∃ file p, answer = .file file ∧ file.id = id.getD (freshId hex) ∧
      resolve disk'.fs proc.cwd (join (join storage.basePath userId) file.id) = .ok p ∧
        disk'.fs.node p = some (.file content proc.now) := by
  rw [perform_eq proc rfl] at h
  obtain ⟨_, disk₁, -, huse⟩ := exists_of_bind_ok h
  obtain ⟨_, disk₂, hwrite, hrest⟩ := exists_of_bind_ok huse
  obtain ⟨p, hresolve, hp⟩ := openWrite_ok hwrite
  rw [bind_of_ok (getctime_ok hresolve hp)] at hrest
  cases hrest
  exact ⟨_, p, rfl, rfl, hresolve, hp⟩

end Reaches

end ProductionStack.FileStorage
