import ProductionStack.Normpath

namespace ProductionStack.HuggingfaceDownloader

open JsonText Utf8Text Command Posix

section Handler

structure DownloadRequest where
  modelId : Text
  localDir : Text
  token : Option Text := none

inductive Raised
  | httpException (status : Nat) (detail : Text)
  | fault (fault : Fault)
  | hub (message : Text)

structure Site where
  disk : Disk
  given : List Text := []

/-- The environment of the handler. What the hub does to the disk and what it raises is left open, and so are the texts of
exceptions. -/
structure Host where
  environ : Option Text
  getcwd : Text
  cwd : Path
  hub : Text → Text → Option Text → Command Disk Text Unit
  str : Raised → Text

structure Response where
  message : Text
  path : Text

structure HTTPException where
  statusCode : Nat
  detail : Text

def onDisk {ε α : Type} (raised : ε → Raised) (c : Command Disk ε α) : Command Site Raised α := fun site =>
  ((c site.disk).1.mapError raised, { site with disk := (c site.disk).2 })

def configured (host : Host) : Text := host.environ.getD (text "/data/lora-adapters")

def downloadBaseDir (host : Host) : Text := abspath host.getcwd (configured host)

def targetDir (host : Host) (localDir : Text) : Text := abspath host.getcwd (join (downloadBaseDir host) localDir)

def snapshotDownload (host : Host) (request : DownloadRequest) (dir : Text) : Command Site Raised Unit := do
  modify (fun site => { site with given := dir :: site.given })
  onDisk .hub (host.hub request.modelId dir request.token)

def fetch (host : Host) (request : DownloadRequest) : Command Site Raised Response := do
  let target := targetDir host request.localDir
  if (downloadBaseDir host).isPrefixOf target = false then fail (.httpException 400 (text "Invalid 'local_dir' provided."))
  else
    onDisk .fault (makedirs host.cwd target)
    snapshotDownload host request target
    return { message := text "Successfully downloaded " ++ request.modelId ++ text " to " ++ target, path := target }

/-- Whatever is raised, the refusal of a directory too, becomes an error of the server. -/
def download (host : Host) (request : DownloadRequest) : Command Site HTTPException Response := fun site =>
  match fetch host request site with
  | (.ok response, site') => (.ok response, site')
  | (.error e, site') => (.error ⟨500, host.str e⟩, site')

def Inside (base dir : Text) : Prop := parts base <+: parts dir

instance (base dir : Text) : Decidable (Inside base dir) := inferInstanceAs (Decidable (_ <+: _))

/-- Nothing but a directory inside the base directory is given to the hub, whatever the disk and the hub are like. -/
def StaysInside (base localDir : Text) : Prop :=
  ∀ host request disk, configured host = base → request.localDir = localDir →
    ∀ dir ∈ (download host request ⟨disk, []⟩).2.given, Inside (downloadBaseDir host) dir

end Handler

section Siblings

def leadsTo (base localDir : Text) : List Text :=
  if isAbsolute localDir then steps localDir else settle (steps base) (components localDir)

/-- The names lead to or below a sibling of the base directory with a longer name that its name starts. -/
def Astray (base names : List Text) : Prop :=
  ∃ parent name more below, base = parent ++ [name] ∧ more ≠ [] ∧ names = parent ++ (name ++ more) :: below

/-- The directory leads to a sibling of the base directory whose name goes on where that of the base directory ends, with as
many slashes in front, and can be made. -/
structure LeadsAstray (base localDir : Text) : Prop where
  sibling : Astray (steps base) (leadsTo base localDir)
  slashes : isAbsolute localDir = true → initialSlashes localDir = initialSlashes base
  usable : ∀ name ∈ leadsTo base localDir, Usable name

theorem not_isPrefix_of_astray {base names : List Text} (h : Astray base names) : ¬base <+: names := by
  obtain ⟨parent, name, more, below, rfl, hmore, rfl⟩ := h
  rw [List.prefix_append_right_inj, List.cons_prefix_cons]
  rintro ⟨hname, -⟩
  exact hmore (List.self_eq_append_right.mp hname)

theorem settled_leadsTo (base localDir : Text) : Settled (leadsTo base localDir) := by
  rw [leadsTo]
  split
  · exact settled_steps localDir
  · exact (settled_steps base).settle (fun _ => notMem_of_mem_components)

section Texts

variable {host : Host} {base : Text} (habs : isAbsolute base = true) (hbase : configured host = base)

include habs hbase

theorem downloadBaseDir_eq : downloadBaseDir host = spell (initialSlashes base) (steps base) := by
  rw [downloadBaseDir, hbase, abspath, habs]
  exact normpath_absolute habs

theorem parts_downloadBaseDir : parts (downloadBaseDir host) = steps base := by
  rw [downloadBaseDir_eq habs hbase, parts_spell (settled_steps base)]

theorem targetDir_eq (hne : steps base ≠ []) (localDir : Text) :
    targetDir host localDir =
      spell (if isAbsolute localDir then initialSlashes localDir else initialSlashes base) (leadsTo base localDir) := by
  have hinitial := initialSlashes_cases habs
  have hspell : spell (initialSlashes base) (steps base) ≠ [] := spell_ne_nil (by omega) _
  rw [targetDir, downloadBaseDir_eq habs hbase, leadsTo]
  by_cases hlocal : isAbsolute localDir = true
  · rw [join, if_pos hlocal, if_pos hlocal, if_pos hlocal, abspath, if_pos hlocal, normpath_absolute hlocal]
  · rw [Bool.not_eq_true] at hlocal
    have hjoin : isAbsolute (join (spell (initialSlashes base) (steps base)) localDir) = true := by
      obtain ⟨rest, hrest⟩ := join_eq_append (spell (initialSlashes base) (steps base)) hlocal
      rw [hrest, isAbsolute_append hspell, isAbsolute_spell (by omega)]
    rw [abspath, if_pos hjoin, normpath_absolute hjoin, initialSlashes_join hinitial (settled_steps base) hne hlocal,
      steps_join hspell hlocal, steps_spell (settled_steps base)]
    simp [hlocal]

theorem parts_targetDir (hne : steps base ≠ []) (localDir : Text) : parts (targetDir host localDir) = leadsTo base localDir := by
  rw [targetDir_eq habs hbase hne, parts_spell (settled_leadsTo base localDir)]

/-- The check compares all names but the last one, and how this one starts. -/
theorem check_iff (hne : steps base ≠ []) (localDir : Text) :
    downloadBaseDir host <+: targetDir host localDir ↔
      (isAbsolute localDir = true → initialSlashes localDir = initialSlashes base) ∧
        ∃ parent name more below, steps base = parent ++ [name] ∧ leadsTo base localDir = parent ++ (name ++ more) :: below := by
  rw [downloadBaseDir_eq habs hbase, targetDir_eq habs hbase hne,
    spell_isPrefix (settled_steps base) hne (settled_leadsTo base localDir)]
  refine and_congr_left (fun _ => ?_)
  by_cases hlocal : isAbsolute localDir = true
  · simp [hlocal, eq_comm]
  · simp [hlocal]

omit hbase in
theorem targetSlashes_ne_zero (localDir : Text) :
    (if isAbsolute localDir then initialSlashes localDir else initialSlashes base) ≠ 0 := by
  split
  next hlocal =>
    have hcases := initialSlashes_cases hlocal
    omega
  · have hcases := initialSlashes_cases habs
    omega

end Texts

theorem download_site (host : Host) (request : DownloadRequest) (site : Site) :
    (download host request site).2 = (fetch host request site).2 := by
  rw [download]
  rcases fetch host request site with ⟨_ | _, _⟩ <;> rfl

theorem snapshotDownload_given (host : Host) (request : DownloadRequest) (dir : Text) (site : Site) :
    (snapshotDownload host request dir site).2.given = dir :: site.given := rfl

theorem mem_given_iff {host : Host} {request : DownloadRequest} {disk : Disk} {dir : Text} :
    dir ∈ (download host request ⟨disk, []⟩).2.given ↔
      downloadBaseDir host <+: targetDir host request.localDir ∧
        (makedirs host.cwd (targetDir host request.localDir) disk).1 = .ok () ∧ dir = targetDir host request.localDir := by
  rw [download_site, fetch, ← List.isPrefixOf_iff_prefix]
  by_cases hstarts : (downloadBaseDir host).isPrefixOf (targetDir host request.localDir) = false
  · simp [hstarts, fail]
  · rw [if_neg hstarts, bind_apply, onDisk]
    rw [Bool.not_eq_false] at hstarts
    rcases makedirs host.cwd (targetDir host request.localDir) disk with ⟨e | _, disk'⟩
    · simp [Except.mapError]
    · simp only [Except.mapError, hstarts, true_and]
      rw [bind_apply]
      have hgiven := snapshotDownload_given host request (targetDir host request.localDir) ⟨disk', []⟩
      rcases hrun : snapshotDownload host request (targetDir host request.localDir) ⟨disk', []⟩ with ⟨_ | _, site⟩ <;>
      · have hsite : site.given = [targetDir host request.localDir] := (congrArg (fun run => run.2.given) hrun).symm.trans hgiven
        simp [hsite, pure]

def idle (base : Text) : Host := ⟨some base, [], [], fun _ _ _ => pure (), fun _ => []⟩

theorem LeadsAstray.given {base localDir : Text} (habs : isAbsolute base = true) (hne : steps base ≠ [])
    (h : LeadsAstray base localDir) :
    targetDir (idle base) localDir ∈ (download (idle base) ⟨[], localDir, none⟩ ⟨full [], []⟩).2.given := by
  have hbase : configured (idle base) = base := rfl
  refine mem_given_iff.mpr ⟨?_, ?_, rfl⟩
  · rw [check_iff habs hbase hne]
    obtain ⟨parent, name, more, below, hparent, -, hleads⟩ := h.sibling
    exact ⟨h.slashes, parent, name, more, below, hparent, hleads⟩
  · rw [targetDir_eq habs hbase hne]
    exact makedirs_full_spell (targetSlashes_ne_zero habs localDir) (settled_leadsTo base localDir) h.usable []

/-- Only directories inside the base directory are given to the hub exactly when the requested directory does not lead to a
sibling of the base directory whose name starts with that of the base directory. -/
theorem staysInside_iff {base : Text} (habs : isAbsolute base = true) (localDir : Text) :
    StaysInside base localDir ↔ ¬LeadsAstray base localDir := by
  constructor
  · intro hstays hastray
    have hbase : configured (idle base) = base := rfl
    have hne : steps base ≠ [] := by
      obtain ⟨parent, name, _, _, hparent, -⟩ := hastray.sibling
      rw [hparent]
      exact List.append_ne_nil_of_right_ne_nil _ (List.cons_ne_nil _ _)
    have hinside := hstays (idle base) ⟨[], localDir, none⟩ (full []) hbase rfl _ (hastray.given habs hne)
    rw [Inside, parts_downloadBaseDir habs hbase, parts_targetDir habs hbase hne] at hinside
    exact not_isPrefix_of_astray hastray.sibling hinside
  · intro hnot host request disk hbase hlocal dir hdir
    subst hlocal
    obtain ⟨hstarts, hmade, rfl⟩ := mem_given_iff.mp hdir
    rw [Inside, parts_downloadBaseDir habs hbase]
    by_cases hne : steps base = []
    · rw [hne]
      exact List.nil_prefix
    rw [check_iff habs hbase hne] at hstarts
    rw [parts_targetDir habs hbase hne]
    obtain ⟨hslashes, parent, name, more, below, hparent, hleads⟩ := hstarts
    by_cases hmore : more = []
    · rw [hparent, hleads, hmore, List.append_nil, List.prefix_append_right_inj]
      exact ⟨below, rfl⟩
    · refine absurd ⟨⟨parent, name, more, below, hparent, hmore, hleads⟩, hslashes, ?_⟩ hnot
      rw [targetDir_eq habs hbase hne] at hmade
      refine usable_of_makedirs (targetSlashes_ne_zero habs _) (settled_leadsTo base _) ?_ hmade
      rw [hleads]
      exact List.append_ne_nil_of_right_ne_nil _ (List.cons_ne_nil _ _)

end Siblings

section Evil

def defaultBase : Text := text "/data/lora-adapters"

theorem cond_concat {α : Type} (p : Path) (n : Name) (x : Option α) : (bif (p ++ [n]).isEmpty then x else none) = none := by
  cases p <;> rfl

def bare : Disk where
  fs := {
    node := fun p => bif p.isEmpty then some .dir else none
    root := rfl
    parent := fun p n h => absurd (cond_concat p n _) h }

theorem staysInside_nested : StaysInside defaultBase (text "org/../adapter") := by
  refine (staysInside_iff (by decide) (text "org/../adapter")).mpr ?_
  rintro ⟨hsibling, -, -⟩
  exact not_isPrefix_of_astray hsibling (by decide)

/-- A sibling of the base directory is made and given to the hub. -/
theorem download_sibling :
    (download (idle defaultBase) ⟨text "org/adapter", text "../lora-adapters-evil", none⟩ ⟨bare, []⟩).2.given =
        [text "/data/lora-adapters-evil"] ∧
      (download (idle defaultBase) ⟨text "org/adapter", text "../lora-adapters-evil", none⟩ ⟨bare, []⟩).2.disk.fs.node
        [(text "data").map UInt8.ofNat, (text "lora-adapters-evil").map UInt8.ofNat] = some .dir ∧
      ¬Inside (downloadBaseDir (idle defaultBase)) (text "/data/lora-adapters-evil") := by
  decide

end Evil

end ProductionStack.HuggingfaceDownloader
