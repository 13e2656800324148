import ProductionStack.FileContents

namespace ProductionStack.FileStorage

open JsonText Utf8Text Command Posix

section Drawn

/-- The digits of a random UUID: the version is 4, and its variant is one of four. -/
structure IsUuid4 (hex : Text) : Prop where
  length : hex.length = 32
  digits : ∀ c ∈ hex, c ∈ text "0123456789abcdef"
  version : hex[12]? = some '4'.toNat
  variant : ∃ c ∈ text "89ab", hex[16]? = some c

def Call.drawn (call : Call) : Option Text :=
  match call.request with
  | .saveFile none _ (some _) _ hex => some hex
  | _ => none

def Request.savesOrDeletes : Request → Prop
  | .saveFile .. => True
  | .deleteFile _ => True
  | _ => False

/-- Files are saved and deleted, and no two of the saves without an id draw the same digits. -/
structure History (calls : List Call) : Prop where
  requests : ∀ call ∈ calls, call.request.savesOrDeletes
  uuids : ∀ call ∈ calls, ∀ hex ∈ call.drawn, IsUuid4 hex
  distinct : (calls.filterMap Call.drawn).Nodup

def renews (userId fileId : Text) (call : Call) : Bool :=
  call.userId = userId &&
    match call.request with
    | .saveFile (some id) _ (some _) _ _ => id = fileId
    | .deleteFile id => id = fileId
    | _ => false

def untilRenewed (userId fileId : Text) (calls : List Call) : List Call := calls.takeWhile (fun call => !renews userId fileId call)

theorem digit_ascii : ∀ c ∈ text "0123456789abcdef", c < 128 ∧ c ≠ slash ∧ c ≠ 0 := by decide

theorem IsUuid4.freshId_ascii {hex : Text} (h : IsUuid4 hex) : ∀ c ∈ freshId hex, c < 128 ∧ c ≠ slash ∧ c ≠ 0 := by
  rw [freshId, List.forall_mem_append]
  exact ⟨by decide, fun c hc => digit_ascii c (h.digits c (List.mem_of_mem_take hc))⟩

theorem isAbsolute_freshId (hex : Text) : isAbsolute (freshId hex) = false := rfl

theorem IsUuid4.names_freshId {hex : Text} (h : IsUuid4 hex) : names (freshId hex) = .ok [(freshId hex).map UInt8.ofNat] := by
  have hascii := h.freshId_ascii
  exact names_of_notMem (fun hmem => (hascii slash hmem).2.1 rfl) (fun hmem => (hascii 0 hmem).2.2 rfl)
    (fsencode_ascii (fun c hc => (hascii c hc).1))

theorem proper_freshId (hex : Text) : Proper ((freshId hex).map UInt8.ofNat) := by
  have hhead : ((freshId hex).map UInt8.ofNat).head? = some 102 := rfl
  refine ⟨?_, ?_, ?_⟩ <;> exact fun h => absurd (hhead.symm.trans (congrArg List.head? h)) (by decide)

end Drawn

section Clashes

variable (proc : Process) (storage : FileStorage proc.cwd)

def SameFile (disk : Disk) (userId fileId userId' fileId' : Text) : Prop :=
  opened proc storage userId fileId disk = opened proc storage userId' fileId' disk

/-- The call removes the file of the digits or puts something else into it. A save without an id does so when its first
six digits are the same. -/
def Clashes (userId hex : Text) (content : Bytes) (disk : Disk) (call : Call) : Prop :=
  match call.request with
  | .saveFile none _ (some new) _ hex' =>
    new ≠ content ∧
      if call.userId = userId then hex'.take 6 = hex.take 6
      else SameFile proc storage disk call.userId (freshId hex') userId (freshId hex)
  | .saveFile (some id) _ (some new) _ _ => new ≠ content ∧ SameFile proc storage disk call.userId id userId (freshId hex)
  | .deleteFile id => SameFile proc storage disk call.userId id userId (freshId hex)
  | _ => False

variable {proc storage} {userId hex : Text} {content : Bytes} {disk : Disk} {p : Path}

theorem Reaches.opened_freshId (h : Reaches storage userId (freshId hex) disk p) (huuid : IsUuid4 hex) {hex' : Text}
    (huuid' : IsUuid4 hex') : FileStorage.opened proc storage userId (freshId hex') disk = .ok p ↔ hex'.take 6 = hex.take 6 := by
  obtain ⟨q, hq, hdir⟩ := h.user
  have hp := resolve_join_name hq hdir huuid.names_freshId (isAbsolute_freshId hex) (proper_freshId hex)
  have hp' := resolve_join_name hq hdir huuid'.names_freshId (isAbsolute_freshId hex') (proper_freshId hex')
  obtain rfl : p = q ++ [(freshId hex).map UInt8.ofNat] := Except.ok.inj (h.file.symm.trans hp)
  rw [FileStorage.opened, h.makedirs]
  simp only [hp']
  constructor
  · intro heq
    have hnames := List.singleton_injective (List.append_cancel_left (Except.ok.inj heq))
    have hids := map_ofNat_injOn (fun c hc => (huuid'.freshId_ascii c hc).1) (fun c hc => (huuid.freshId_ascii c hc).1) hnames
    exact List.append_cancel_left hids
  · intro heq
    rw [freshId, heq, freshId]

theorem file_eq_iff {new : Bytes} {now : Int} : (∃ t, some (Node.file new now) = some (.file content t)) ↔ new = content := by
  simp

theorem Reaches.hasContent_iff (h : Reaches storage userId (freshId hex) disk p) (huuid : IsUuid4 hex)
    (hcontent : HasContent p content disk) {call : Call} (hrequest : call.request.savesOrDeletes)
    (hdrawn : ∀ hex' ∈ call.drawn, IsUuid4 hex') :
    HasContent p content (FileStorage.serve proc storage disk call).2 ↔ ¬Clashes proc storage userId hex content disk call := by
  obtain ⟨ctime, hp⟩ := hcontent
  obtain ⟨userId', now, request⟩ := call
  cases request with
  | saveFile id fileName new purpose hex' =>
    cases new with
    | none =>
      rw [FileStorage.serve, perform_none _ rfl]
      exact iff_of_true ⟨ctime, hp⟩ (by cases id <;> exact not_false)
    | some new =>
      rw [hasContent_serve rfl hp]
      simp only [Request.result, Option.getD_some, file_eq_iff]
      cases id with
      | none =>
        simp only [Clashes, SameFile, h.opened, Option.getD_none]
        split
        next huser =>
          subst huser
          rw [h.opened_freshId huuid (hdrawn hex' rfl)]
          tauto
        · tauto
      | some id =>
        simp only [Clashes, SameFile, h.opened, Option.getD_some]
        tauto
  | deleteFile id =>
    rw [hasContent_serve rfl hp]
    simp [Request.result, Clashes, SameFile, h.opened]
  | saveFileChunk id chunk offset => exact hrequest.elim
  | getFile id => exact hrequest.elim
  | getFileContent id => exact hrequest.elim

theorem reaches_generated {now : Int} {fileName : Option Text} {purpose : Text} {file : OpenAIFile} {saved : Disk}
    (h : serve proc storage disk ⟨userId, now, .saveFile none fileName (some content) purpose hex⟩ = (.ok (.file file), saved)) :
    file.id = freshId hex ∧ ∃ p, Reaches storage userId (freshId hex) saved p ∧ HasContent p content saved := by
  obtain ⟨_, p, ⟨⟩, hid, hresolve, hp⟩ := saveFile_ok h
  rw [Option.getD_none] at hid
  rw [hid] at hresolve
  exact ⟨hid, p, ⟨resolve_before_join (join_ne_nil storage.nonempty userId) (isAbsolute_freshId hex) hresolve, hresolve⟩, now, hp⟩

/-- What was saved without an id can be read at every point until its id is deleted or saved again exactly when no call until
then clashes with it. -/
theorem generated_kept_iff (proc : Process) (storage : FileStorage proc.cwd) {disk saved : Disk} {before rest : List Call}
    {now : Int} {fileName : Option Text} {purpose : Text} {file : OpenAIFile}
    (hhistory : History (before ++ ⟨userId, now, .saveFile none fileName (some content) purpose hex⟩ :: rest))
    (hsave : serve proc storage (Runs.final (serve proc storage) disk before)
      ⟨userId, now, .saveFile none fileName (some content) purpose hex⟩ = (.ok (.file file), saved)) :
    (∀ mid, mid <+: untilRenewed userId file.id rest → ∀ later,
      (serve proc storage (Runs.final (serve proc storage) saved mid) ⟨userId, later, .getFileContent file.id⟩).1 =
        .ok (.content content)) ↔
      Runs.Along (serve proc storage) (fun disk call => ¬Clashes proc storage userId hex content disk call) saved
        (untilRenewed userId file.id rest) := by
  obtain ⟨hid, p, hreaches, hcontent⟩ := reaches_generated hsave
  have huuid : IsUuid4 hex := hhistory.uuids _ (List.mem_append_right _ List.mem_cons_self) hex rfl
  have hmem : ∀ call ∈ untilRenewed userId file.id rest,
      call ∈ before ++ ⟨userId, now, .saveFile none fileName (some content) purpose hex⟩ :: rest := by
    intro call hcall
    exact List.mem_append_right _ (List.mem_cons_of_mem _ ((List.takeWhile_sublist _).subset hcall))
  have hstep : ∀ disk, ∀ call ∈ untilRenewed userId file.id rest, Reaches storage userId (freshId hex) disk p →
      HasContent p content disk →
        (HasContent p content (serve proc storage disk call).2 ↔ ¬Clashes proc storage userId hex content disk call) := by
    intro disk call hcall hreach hp
    exact hreach.hasContent_iff huuid hp (hhistory.requests call (hmem call hcall)) (hhistory.uuids call (hmem call hcall))
  rw [← Runs.forall_prefix_iff_along (fun disk call h => h.serve call) hstep hreaches hcontent]
  refine forall₂_congr (fun mid _ => ?_)
  rw [hid]
  simp only [(hreaches.final mid).getFileContent_iff, forall_const]

end Clashes

section SharedDigits

def digits : Text := text "3f2a9c00000040008000000000000000"

def sharedDigits : Text := text "3f2a9c00000040008000000000000001"

def otherDigits : Text := text "8b1d4400000040008000000000000000"

def generates (hex : Text) (content : Bytes) : Call := ⟨defaultUserId, 7, .saveFile none none (some content) defaultPurpose hex⟩

def generated : Disk := (serve process tmpFiles installed (generates digits [97])).2

theorem history_pair {hex hex' : Text} (h : IsUuid4 hex) (h' : IsUuid4 hex') (hne : hex ≠ hex') (content content' : Bytes) :
    History [generates hex content, generates hex' content'] where
  requests := by simp [generates, Request.savesOrDeletes]
  uuids := by simp [generates, Call.drawn, h, h']
  distinct := by simp [generates, Call.drawn, hne]

theorem isUuid4_digits : IsUuid4 digits := by constructor <;> decide

theorem generates_digits : (serve process tmpFiles installed (generates digits [97])).1 =
    .ok (.file ⟨text "file-3f2a9c", text "file", 1, 7, text "file-3f2a9c", defaultPurpose⟩) := by decide

theorem generated_kept_other_digits :
    (serve process tmpFiles (Runs.final (serve process tmpFiles) generated [generates otherDigits [98]])
      ⟨defaultUserId, 9, .getFileContent (text "file-3f2a9c")⟩).1 = .ok (.content [97]) := by
  have hother : IsUuid4 otherDigits := by constructor <;> decide
  have hhistory : History ([] ++ generates digits [97] :: [generates otherDigits [98]]) :=
    history_pair isUuid4_digits hother (by decide) [97] [98]
  have hsave : serve process tmpFiles (Runs.final (serve process tmpFiles) installed []) (generates digits [97]) =
      (.ok (.file ⟨text "file-3f2a9c", text "file", 1, 7, text "file-3f2a9c", defaultPurpose⟩), generated) :=
    Prod.ext generates_digits rfl
  refine (generated_kept_iff process tmpFiles hhistory hsave).mpr ?_ [generates otherDigits [98]] (List.prefix_refl _) 9
  refine ⟨?_, trivial⟩
  rintro ⟨-, hsame⟩
  have huser : (generates otherDigits [98]).userId = defaultUserId := rfl
  rw [if_pos huser] at hsame
  exact absurd hsame (by decide)

/-- The second save draws other digits, and yet the id of the first one then leads to what the second one saved. -/
theorem generated_overwritten :
    History [generates digits [97], generates sharedDigits [98]] ∧
      (serve process tmpFiles installed (generates digits [97])).1 =
        .ok (.file ⟨text "file-3f2a9c", text "file", 1, 7, text "file-3f2a9c", defaultPurpose⟩) ∧
      untilRenewed defaultUserId (text "file-3f2a9c") [generates sharedDigits [98]] = [generates sharedDigits [98]] ∧
      (serve process tmpFiles (Runs.final (serve process tmpFiles) generated [generates sharedDigits [98]])
        ⟨defaultUserId, 9, .getFileContent (text "file-3f2a9c")⟩).1 = .ok (.content [98]) := by
  have hshared : IsUuid4 sharedDigits := by constructor <;> decide
  exact ⟨history_pair isUuid4_digits hshared (by decide) [97] [98], generates_digits, rfl, by decide⟩

end SharedDigits

end ProductionStack.FileStorage
