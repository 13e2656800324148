import ProductionStack.JevDecideStages

namespace ProductionStack.JevDecide

open JsonText AuditLog

section Fits

variable {F : Type} (host : Host F)

def Declared (e : Raised) : Prop := ∃ message, e = clientError message

/-- The value comes back with all that is asked of a request, or a ClientError says what is wrong with it. -/
def FailsAsDeclared (v : Value F) : Prop :=
  Meets (validate host v) (fun fields => v = .obj fields ∧ ∃ kind, Valid host fields kind) Declared

end Fits

section Validation

variable {F : Type}

theorem not_declared_typeError : ¬Declared .typeError := by
  rintro ⟨message, hmessage⟩
  cases hmessage

theorem not_declared_overflowError : ¬Declared .overflowError := by
  rintro ⟨message, hmessage⟩
  cases hmessage

theorem validate_of_accepted {host : Host F} {fields : Fields F} {kind : Kind} (h : Accepted host fields kind) :
    validate host (.obj fields) = checkThreshold host (find (text "threshold") fields) >>= fun _ => .ok fields := by
  have hkind : checkKind (find (text "kind") fields) = .ok kind.text := by
    rw [h.isKind, checkKind, if_pos (mem_kinds.mpr ⟨kind, rfl⟩)]
  have hoptions : checkOptions kind.text (find (text "options") fields) = .ok () := by
    have hfits := h.options
    cases kind with
    | choice => rw [checkOptions, if_pos rfl, refuseIf, if_neg (by rw [Bool.not_eq_false]; exact optionsOk_iff.mpr hfits)]
    | _ => rw [checkOptions, if_neg (by decide), refuseIf, if_neg (by rw [Bool.not_eq_false]; exact isNone_iff.mpr hfits)]
  rw [validate, refuseIf, if_neg (not_not.mpr (unknownFields_eq_nil.mpr h.known)), hkind, refuseIf,
    if_neg (by rw [Bool.not_eq_false]; exact questionOk_iff.mpr h.question)]
  simp only [bind, Except.bind, hoptions]
  rfl

/-- A request object is answered as declared exactly if a field that is not known is found first, or its kind has a hash
and, when nothing else is wrong with it, its threshold is no integer beyond the floats. -/
theorem validate_declared_iff (host : Host F) (v : Value F) :
    FailsAsDeclared host v ↔ ∀ fields, v = .obj fields → (∀ field ∈ fields, field.1 ∈ requestFields) →
      hashable (find (text "kind") fields) = true ∧
        ∀ kind, Accepted host fields kind → beyondFloats (find (text "threshold") fields) = false := by
  have hrefusals : Refusals Declared := ⟨fun message => ⟨message, rfl⟩, not_declared_typeError, not_declared_overflowError⟩
  exact meets_validate hrefusals (fun fields kind hv hvalid => ⟨hv, kind, hvalid⟩)

def listKind : Value Unit := .obj [(text "kind", .arr []), (text "question", .str (text "Is it true?"))]

def noulFields (threshold : Int) : Fields Unit :=
  [(text "kind", .str (text "noul")), (text "question", .str (text "Is it true?")), (text "threshold", .int threshold)]

theorem noulFields_accepted (threshold : Int) : Accepted demoHost (noulFields threshold) .noul where
  known := by
    simp only [noulFields, List.forall_mem_cons]
    exact ⟨by decide, by decide, by decide, List.forall_mem_nil _⟩
  isKind := rfl
  question := ⟨text "Is it true?", rfl, 'I'.toNat, by decide, by decide⟩
  options := .inl rfl

/-- A list as the kind has no hash, and of an integer with 401 digits no float can be made. -/
theorem validate_raises_otherwise :
    (validate demoHost listKind = .error .typeError ∧ ¬FailsAsDeclared demoHost listKind) ∧
      validate demoHost (.obj (noulFields (Int.pow 10 400))) = .error .overflowError ∧
        ¬FailsAsDeclared demoHost (.obj (noulFields (Int.pow 10 400))) := by
  have hkind : validate demoHost listKind = .error .typeError := rfl
  have hthreshold : validate demoHost (.obj (noulFields (Int.pow 10 400))) = .error .overflowError := by
    have hlarge : tooLarge (Int.pow 10 400) = true := by decide +kernel
    have hfind : find (text "threshold") (noulFields (Int.pow 10 400)) = some (.int (Int.pow 10 400)) := rfl
    rw [validate_of_accepted (noulFields_accepted _), hfind, checkThreshold, hlarge]
    rfl
  refine ⟨⟨hkind, ?_⟩, hthreshold, ?_⟩
  · rw [FailsAsDeclared, hkind]
    exact not_declared_typeError
  · rw [FailsAsDeclared, hthreshold]
    exact not_declared_overflowError

end Validation

end ProductionStack.JevDecide
