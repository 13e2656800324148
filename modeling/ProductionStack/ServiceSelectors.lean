import ProductionStack.VLLMRuntimeQuiescence

namespace ProductionStack.ServiceSelectors

open KubeObjects VLLMRuntimeController

/-- A selector matches the pods whose labels contain it. -/
def selects (selector labels : Dict String String) : Bool :=
  selector.entries.all (fun e => labels.get? e.1 = some e.2)

theorem selects_iff {selector labels : Dict String String} :
    selects selector labels = true ↔ ∀ key value, selector.get? key = some value → labels.get? key = some value := by
  rw [selects, List.all_eq_true]
  constructor
  · intro h key value hget
    exact of_decide_eq_true (h (key, value) (Dict.mem_of_get? hget))
  · intro h e he
    exact decide_eq_true (h e.1 e.2 (selector.get?_of_mem he))

theorem selects_self (labels : Dict String String) : selects labels labels = true :=
  selects_iff.mpr (fun _ _ h => h)

def appLabel (name : String) (labels : Dict String String) : String := (labels.get? "app").getD name

theorem get?_app (name : String) (labels : Dict String String) :
    (objectLabels name labels).get? "app" = some (appLabel name labels) := by
  rw [get?_objectLabels, if_pos rfl, appLabel]
  cases labels.get? "app" <;> rfl

theorem get?_other (name : String) (labels : Dict String String) {key : String} (hkey : key ≠ "app") :
    (objectLabels name labels).get? key = labels.get? key := by
  rw [get?_objectLabels, if_neg hkey, Option.or_none]

theorem selects_objectLabels_iff {name name' : String} {labels labels' : Dict String String} :
    selects (objectLabels name labels) (objectLabels name' labels') = true ↔
      appLabel name labels = appLabel name' labels' ∧
      ∀ key value, key ≠ "app" → labels.get? key = some value → labels'.get? key = some value := by
  rw [selects_iff]
  constructor
  · intro h
    refine ⟨?_, ?_⟩
    · have happ := h "app" _ (get?_app name labels)
      rw [get?_app] at happ
      exact (Option.some.inj happ).symm
    · intro key value hkey hget
      rw [← get?_other name' labels' hkey]
      exact h key value ((get?_other name labels hkey).trans hget)
  · rintro ⟨happ, hother⟩ key value hget
    by_cases hkey : key = "app"
    · subst hkey
      rw [get?_app] at hget ⊢
      rw [← happ, hget]
    · rw [get?_other name labels hkey] at hget
      rw [get?_other name' labels' hkey]
      exact hother key value hkey hget

section Runtimes

variable {Quantity : Type} {fmt : QuantityFormat Quantity} {vr vr' : VLLMRuntime} {d d' : Deployment Quantity}

theorem templateLabels_eq (h : deploymentForVLLMRuntime fmt vr = .ok d) :
    d.templateLabels = objectLabels vr.name vr.labels := by
  obtain ⟨resources, -, hrest⟩ := bind_eq_ok.mp h
  obtain ⟨sidecars, -, hd⟩ := bind_eq_ok.mp hrest
  cases hd
  rfl

/-- A service reaches the pods of its own runtime. It reaches those of another one unless the
labels named app differ, or the other one lacks one of the labels of the first. -/
theorem service_isolated_iff (fmt : QuantityFormat Quantity) (vr vr' : VLLMRuntime)
    (hown : deploymentForVLLMRuntime fmt vr = .ok d) (hother : deploymentForVLLMRuntime fmt vr' = .ok d') :
    (selects (serviceForVLLMRuntime vr).selector d.templateLabels = true ∧
      selects (serviceForVLLMRuntime vr).selector d'.templateLabels = false) ↔
    (appLabel vr.name vr.labels ≠ appLabel vr'.name vr'.labels ∨
      ∃ key value, key ≠ "app" ∧ vr.labels.get? key = some value ∧ vr'.labels.get? key ≠ some value) := by
  rw [templateLabels_eq hown, templateLabels_eq hother, ← Bool.not_eq_true]
  have hself : selects (serviceForVLLMRuntime vr).selector (objectLabels vr.name vr.labels) = true := selects_self _
  rw [and_iff_right hself, serviceForVLLMRuntime, selects_objectLabels_iff, not_and_or]
  simp only [not_forall, exists_prop, ne_eq]

end Runtimes

def qwenRuntime : VLLMRuntime := { llamaRuntime with name := "qwen" }

theorem llama_qwen_isolated :
    ∃ d d', deploymentForVLLMRuntime textFormat llamaRuntime = .ok d ∧
      deploymentForVLLMRuntime textFormat qwenRuntime = .ok d' ∧
      selects (serviceForVLLMRuntime llamaRuntime).selector d.templateLabels = true ∧
      selects (serviceForVLLMRuntime llamaRuntime).selector d'.templateLabels = false := by
  refine ⟨_, _, rfl, rfl, ?_⟩
  exact (service_isolated_iff textFormat llamaRuntime qwenRuntime rfl rfl).mpr (.inl (by decide))

def teamLabels : Dict String String := Dict.ofList [("app", "chat"), ("team", "search")]

theorem team_service_selects_both :
    llamaRuntime.name ≠ qwenRuntime.name ∧ llamaRuntime.namespaceName = qwenRuntime.namespaceName ∧
    ∃ d', deploymentForVLLMRuntime textFormat { qwenRuntime with labels := teamLabels } = .ok d' ∧
      selects (serviceForVLLMRuntime { llamaRuntime with labels := teamLabels }).selector d'.templateLabels = true := by
  refine ⟨by decide, rfl, _, rfl, ?_⟩
  exact selects_self (objectLabels "llama" teamLabels)

end ProductionStack.ServiceSelectors
