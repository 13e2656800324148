import ProductionStack.FileContents
import ProductionStack.PositionalWrites

namespace ProductionStack.FileStorage

open JsonText Utf8Text Command Posix PositionalWrites

section Uploads

variable {proc : Process} {storage : FileStorage proc.cwd} {userId fileId : Text} {disk disk' : Disk} {p : Path}
variable {content : Bytes}

def upload (userId fileId : Text) (w : Int × Nat × Bytes) : Call := ⟨userId, w.1, .saveFileChunk fileId (some w.2.2) w.2.1⟩

def Holds (storage : FileStorage proc.cwd) (userId fileId : Text) (p : Path) (disk : Disk) (content : Bytes) : Prop :=
  Reaches storage userId fileId disk p ∧ HasContent p content disk

/-- The path of the user is a directory once it was made. This might fail only for a path that ends in a dot, and matters only
for a file id that leads elsewhere. -/
def Lasting (storage : FileStorage proc.cwd) (userId fileId : Text) : Prop :=
  isAbsolute fileId = false ∨ (headAndTail (join storage.basePath userId)).2 ≠ [46]

theorem lasting_default (storage : FileStorage proc.cwd) (fileId : Text) : Lasting storage defaultUserId fileId := by
  have htail : (splitPath (join storage.basePath defaultUserId)).2 = defaultUserId := by
    rw [join_eq_stem storage.nonempty rfl, splitPath_append (by decide)]
  refine .inr ?_
  rw [headAndTail, htail, if_neg (by decide), htail]
  decide

theorem holds_saved {now : Int} {id fileName : Option Text} {purpose hex : Text} {file : OpenAIFile}
    (h : serve proc storage disk ⟨userId, now, .saveFile id fileName (some content) purpose hex⟩ = (.ok (.file file), disk'))
    (hlasting : Lasting storage userId file.id) : ∃ p, Holds storage userId file.id p disk' content := by
  obtain ⟨_, p, ⟨⟩, hid, hresolve, hp⟩ := saveFile_ok h
  refine ⟨p, ⟨?_, hresolve⟩, now, hp⟩
  rcases hlasting with hrelative | htail
  · exact resolve_before_join (join_ne_nil storage.nonempty userId) hrelative hresolve
  · rw [serve, perform_eq { proc with now := now } rfl] at h
    obtain ⟨_, disk₁, hmade, huse⟩ := exists_of_bind_ok h
    obtain ⟨q, hq, hdir⟩ := makedirs_ok htail hmade
    have hdisk : _ = disk' := congrArg Prod.snd huse
    have hdirs : ∀ q, disk₁.fs.node q = some .dir → disk'.fs.node q = some .dir := by
      intro q hdir
      rw [← hdisk]
      exact useFile_dirs hdir
    exact ⟨q, resolve_of_dirs hdirs hq, hdirs q hdir⟩

theorem updated_some (offset : Nat) (chunk content : Bytes) :
    (updated offset (some chunk) content).getD content = write 0 content (offset, chunk) := by
  rw [updated, if_neg (by omega), Option.bind_some, write]
  split
  · rfl
  · rfl

theorem Holds.upload (h : Holds storage userId fileId p disk content) (w : Int × Nat × Bytes) :
    (serve proc storage disk (upload userId fileId w)).1 = .ok .done ∧
      Holds storage userId fileId p (serve proc storage disk (FileStorage.upload userId fileId w)).2 (write 0 content w.2) := by
  obtain ⟨hreaches, ctime, hp⟩ := h
  refine ⟨hreaches.saveFileChunk hp w.1 w.2.1 w.2.2, hreaches.serve _, ?_⟩
  have hnode : (serve proc storage disk (FileStorage.upload userId fileId w)).2.fs.node p = _ := serve_node rfl hp
  have hopened : opened proc storage (FileStorage.upload userId fileId w).userId fileId disk = .ok p := hreaches.opened
  have hcontent := updated_some w.2.1 w.2.2 content
  rw [hopened, if_pos rfl, FileStorage.upload, Request.result] at hnode
  rw [FileStorage.upload, HasContent, hnode, ← hcontent]
  cases updated w.2.1 (some w.2.2) content with
  | none => exact ⟨ctime, rfl⟩
  | some new => exact ⟨w.1, rfl⟩

theorem Holds.uploads (h : Holds storage userId fileId p disk content) (writes : List (Int × Nat × Bytes)) :
    (∀ answer ∈ Runs.outputs (serve proc storage) disk (writes.map (FileStorage.upload userId fileId)), answer = .ok .done) ∧
      Holds storage userId fileId p (Runs.final (serve proc storage) disk (writes.map (FileStorage.upload userId fileId)))
        (writeAll 0 content (writes.map Prod.snd)) := by
  induction writes generalizing disk content with
  | nil => exact ⟨nofun, h⟩
  | cons w writes ih =>
    obtain ⟨hdone, hnext⟩ := h.upload w
    obtain ⟨hrest, hfinal⟩ := ih hnext
    refine ⟨?_, hfinal⟩
    rw [List.map_cons, Runs.outputs_cons, List.forall_mem_cons]
    exact ⟨hdone, hrest⟩

/-- The consecutive chunks of some bytes, each sent at least once and in any order to a file that was saved with no content,
are all accepted, and the file then holds the bytes and is as long as they are. -/
theorem chunked_upload (proc : Process) (storage : FileStorage proc.cwd) {now : Int} {id fileName : Option Text}
    {purpose hex : Text} {file : OpenAIFile}
    (hsave : serve proc storage disk ⟨userId, now, .saveFile id fileName (some []) purpose hex⟩ = (.ok (.file file), disk'))
    (hlasting : Lasting storage userId file.id) {bytes : Bytes} {chunks : List Bytes} (hbytes : chunks.flatten = bytes)
    {writes : List (Int × Nat × Bytes)} (hwrites : ∀ w, w ∈ writes.map Prod.snd ↔ w ∈ pieces chunks) (later : Int) :
    (∀ answer ∈ Runs.outputs (serve proc storage) disk' (writes.map (upload userId file.id)), answer = .ok .done) ∧
      (serve proc storage (Runs.final (serve proc storage) disk' (writes.map (upload userId file.id)))
          ⟨userId, later, .getFileContent file.id⟩).1 = .ok (.content bytes) ∧
      ∃ info, (serve proc storage (Runs.final (serve proc storage) disk' (writes.map (upload userId file.id)))
          ⟨userId, later, .getFile file.id⟩).1 = .ok (.file info) ∧ info.bytes = bytes.length := by
  obtain ⟨p, hsaved⟩ := holds_saved hsave hlasting
  obtain ⟨hdone, hreaches, hcontent⟩ := hsaved.uploads writes
  rw [writeAll_pieces 0 hwrites, hbytes] at hcontent
  refine ⟨hdone, (hreaches.getFileContent_iff later).mpr hcontent, ?_⟩
  obtain ⟨ctime, hp⟩ := hcontent
  exact ⟨_, hreaches.getFile hp later, rfl⟩

end Uploads

section Backwards

def savesEmpty : Call := ⟨defaultUserId, 7, .saveFile (some (text "f")) none (some []) defaultPurpose []⟩

def uploading : Disk := (serve process tmpFiles installed savesEmpty).2

def backwards : List (Int × Nat × Bytes) := [(8, 2, [99]), (9, 2, []), (10, 0, [97, 98]), (11, 2, [99])]

theorem mem_backwards (w : Nat × Bytes) : w ∈ backwards.map Prod.snd ↔ w ∈ pieces [[97, 98], [], [99]] := by
  simp only [backwards, pieces, piecesFrom, List.map_cons, List.map_nil, List.mem_cons, List.not_mem_nil, or_false]
  tauto

theorem chunked_upload_backwards :
    (serve process tmpFiles (Runs.final (serve process tmpFiles) uploading (backwards.map (upload defaultUserId (text "f"))))
        ⟨defaultUserId, 12, .getFileContent (text "f")⟩).1 = .ok (.content [97, 98, 99]) := by
  have hresult : (serve process tmpFiles installed savesEmpty).1 =
      .ok (.file ⟨text "f", text "file", 0, 7, text "f", defaultPurpose⟩) := by decide
  have hsave : serve process tmpFiles installed savesEmpty =
      (.ok (.file ⟨text "f", text "file", 0, 7, text "f", defaultPurpose⟩), uploading) := Prod.ext hresult rfl
  exact (chunked_upload process tmpFiles hsave (lasting_default tmpFiles (text "f")) rfl mem_backwards 12).2.1

end Backwards

end ProductionStack.FileStorage
