import ProductionStack.JevDecide

namespace ProductionStack.JevDecide

open JsonText Utf8Text AuditLog

section Texts

/-- A text that UTF-8 has a form for. -/
def Scalar (t : Text) : Prop := ∀ c ∈ t, scalar c = true

instance (t : Text) : Decidable (Scalar t) := inferInstanceAs (Decidable (∀ c ∈ t, scalar c = true))

theorem Scalar.append {t t' : Text} (h : Scalar t) (h' : Scalar t') : Scalar (t ++ t') := by
  intro c hc
  rcases List.mem_append.mp hc with hc | hc
  · exact h c hc
  · exact h' c hc

theorem scalar_of_ascii {t : Text} (h : ∀ c ∈ t, c < 128) : Scalar t := by
  intro c hc
  have hlt := h c hc
  simp [scalar]
  omega

theorem encode_of_scalar {t : Text} (h : Scalar t) : ∃ bytes, encode t = some bytes :=
  ⟨_, if_pos (List.all_eq_true.mpr h)⟩

variable {F : Type} {limits : Limits}

def Clean (v : Value F) : Prop := ∀ c, Spelt c v → scalar c = true

/-- A value that can be written and encoded. -/
structure Sound (limits : Limits) (v : Value F) : Prop where
  proper : Proper limits v
  clean : Clean v

theorem scalar_canonical (fmt : Runtime F) {v : Value F} (h : Clean v) : Scalar (canonical fmt v) := by
  intro c hc
  rcases (mem_canonical hc).2 with hascii | hspelt
  · simp [scalar]
    omega
  · exact h c hspelt

theorem clean_of_encode {fmt : Runtime F} {v : Value F} {bytes : Bytes} (h : encode (canonical fmt v) = some bytes) :
    Clean v := by
  intro c hc
  rw [encode] at h
  split at h
  next hall =>
    by_cases hascii : c < 128
    · simp [scalar]
      omega
    · exact List.all_eq_true.mp hall c (mem_canonical_of_spelt hc (by omega))
  · cases h

theorem sound_str {s : Text} (h : Scalar s) : Sound limits (.str s : Value F) := by
  refine ⟨trivial, ?_⟩
  rintro c ⟨hc⟩
  exact h c hc

theorem clean_obj {fields : Fields F} : Clean (.obj fields) ↔ ∀ f ∈ fields, Scalar f.1 ∧ Clean f.2 := by
  constructor
  · intro h f hf
    exact ⟨fun c hc => h c (.key hf hc), fun c hc => h c (.field hf hc)⟩
  · intro h c hc
    cases hc with
    | key hmem hkey => exact (h _ hmem).1 c hkey
    | field hmem hspelt => exact (h _ hmem).2 c hspelt

theorem mem_assign {key : Text} {value : Value F} {fields : Fields F} {f : Text × Value F}
    (h : f ∈ Dict.assign key value fields) : f = (key, value) ∨ f ∈ fields := by
  induction fields with
  | nil => exact .inl (List.mem_singleton.mp h)
  | cons field fields ih =>
    rw [Dict.assign] at h
    split at h
    · rcases List.mem_cons.mp h with rfl | h
      · exact .inl rfl
      · exact .inr (List.mem_cons_of_mem _ h)
    · rcases List.mem_cons.mp h with rfl | h
      · exact .inr List.mem_cons_self
      · exact (ih h).imp_right (List.mem_cons_of_mem _)

theorem sound_assign {key : Text} {value : Value F} {fields : Fields F} (hkey : Scalar key)
    (hvalue : Sound limits.deeper value) (h : Sound limits (.obj fields)) :
    Sound limits (.obj (Dict.assign key value fields)) := by
  refine ⟨proper_assign hvalue.proper h.proper, clean_obj.mpr (fun f hf => ?_)⟩
  rcases mem_assign hf with rfl | hf
  · exact ⟨hkey, hvalue.clean⟩
  · exact clean_obj.mp h.clean f hf

end Texts

section Writing

variable {F α : Type} {fmt : Runtime F} {sha256 : Bytes → Text} {Q : α → Prop} {E : Raised → Prop}

/-- The message and the attempts that the handler of main takes from an exception, if main catches it. -/
def caught : Raised → Option (Text × Nat)
  | .clientError message attempts => some (message, attempts)
  | .osError message => some (message, 0)
  | _ => none

mutual

theorem fault_uncaught : ∀ (limits : Limits) (v : Value F) (e : Raised), fault limits v = some e → caught e = none
  | limits, .int n, e, h => by
      rw [fault] at h
      split at h
      · cases h
      · cases h
        rfl
  | limits, .arr items, e, h => by
      rw [fault] at h
      split at h
      · cases h
        rfl
      · exact faultItems_uncaught _ items e h
  | limits, .obj fields, e, h => by
      rw [fault] at h
      split at h
      · cases h
        rfl
      · exact faultFields_uncaught _ fields e h
  | _, .null, _, h | _, .bool _, _, h | _, .float _, _, h | _, .str _, _, h => by cases h

theorem faultItems_uncaught : ∀ (limits : Limits) (items : List (Value F)) (e : Raised), faultItems limits items = some e →
    caught e = none
  | _, [], _, h => by cases h
  | limits, item :: items, e, h => by
      rw [faultItems, Option.or_eq_some_iff] at h
      rcases h with h | ⟨-, h⟩
      · exact fault_uncaught limits item e h
      · exact faultItems_uncaught limits items e h

theorem faultFields_uncaught : ∀ (limits : Limits) (fields : Fields F) (e : Raised), faultFields limits fields = some e →
    caught e = none
  | _, [], _, h => by cases h
  | limits, (_, value) :: fields, e, h => by
      rw [faultFields, Option.or_eq_some_iff] at h
      rcases h with h | ⟨-, h⟩
      · exact fault_uncaught limits value e h
      · exact faultFields_uncaught limits fields e h

end

theorem getD_fault_uncaught (limits : Limits) (v : Value F) : caught ((fault limits v).getD .valueError) = none := by
  cases h : fault limits v with
  | none => rfl
  | some e => exact fault_uncaught limits v e h

/-- A value is written and encoded exactly if it is sound; what is raised otherwise, main does not catch. -/
theorem meets_encoded (hE : ∀ e, E e → caught e ≠ none) {v : Value F} {f : Bytes → Except Raised α} :
    Meets (do let t ← canonicalJson fmt v; let bytes ← encodeText t; f bytes) Q E ↔
      Sound fmt.limits v ∧ ∀ bytes, encode (canonical fmt v) = some bytes → Meets (f bytes) Q E := by
  rw [canonicalJson]
  split
  next hproper =>
    change Meets (encodeText (canonical fmt v) >>= f) Q E ↔ _
    rw [encodeText]
    cases hencode : encode (canonical fmt v) with
    | none =>
      refine iff_of_false (fun h => hE _ h rfl) ?_
      rintro ⟨hsound, -⟩
      obtain ⟨bytes, hbytes⟩ := encode_of_scalar (scalar_canonical fmt hsound.clean)
      rw [hbytes] at hencode
      cases hencode
    | some bytes =>
      refine ⟨fun h => ⟨⟨hproper, clean_of_encode hencode⟩, ?_⟩, fun h => h.2 bytes rfl⟩
      rintro _ ⟨⟩
      exact h
  next hproper =>
    refine iff_of_false (fun h => hE _ h (getD_fault_uncaught _ _)) ?_
    exact fun h => hproper h.1.proper

end Writing

section Checks

variable {F α : Type} (host : Host F)

def OptionsFit : Kind → Option (Value F) → Prop
  | .choice, options =>
    ∃ items, options = some (.arr items) ∧ 2 ≤ items.length ∧ items.length ≤ 256 ∧
      ∀ item ∈ items, ∃ t, t ≠ [] ∧ item = .str t
  | _, options => options = none ∨ options = some .null

def ThresholdFits : Option (Value F) → Prop
  | none | some .null | some (.int _) => True
  | some (.float x) => host.isFinite x = true
  | some _ => False

/-- All that a request is asked for but its threshold. -/
structure Accepted (fields : Fields F) (kind : Kind) : Prop where
  known : ∀ field ∈ fields, field.1 ∈ requestFields
  isKind : find (text "kind") fields = some (.str kind.text)
  question : ∃ question, find (text "question") fields = some (.str question) ∧ ∃ c ∈ question, host.whitespace c = false
  options : OptionsFit kind (find (text "options") fields)

structure Valid (fields : Fields F) (kind : Kind) : Prop extends Accepted host fields kind where
  threshold : ThresholdFits host (find (text "threshold") fields)

def hashable : Option (Value F) → Bool
  | some (.arr _) | some (.obj _) => false
  | _ => true

/-- An integer of which no float can be made. -/
def beyondFloats : Option (Value F) → Bool
  | some (.int n) => tooLarge n
  | _ => false

/-- A kind, if it is looked at, that has a hash, and a threshold, if it is looked at, that is no integer beyond the floats. -/
def Checkable (v : Value F) : Prop :=
  ∀ fields, v = .obj fields → (∀ field ∈ fields, field.1 ∈ requestFields) →
    hashable (find (text "kind") fields) = true ∧
      ∀ kind, Accepted host fields kind → beyondFloats (find (text "threshold") fields) = false

/-- Exceptions among which are all refusals, and neither of the two that a check can raise on its own. -/
structure Refusals (E : Raised → Prop) : Prop where
  clientError : ∀ message, E (clientError message)
  typeError : ¬E .typeError
  overflowError : ¬E .overflowError

variable {host} {Q : α → Prop} {E : Raised → Prop}

theorem unknownFields_eq_nil {fields : Fields F} : unknownFields fields = [] ↔ ∀ field ∈ fields, field.1 ∈ requestFields := by
  have hsort := List.perm_insertionSort (· ≤ ·) ((fields.map Prod.fst).filter (fun key => key ∉ requestFields))
  rw [unknownFields, ← List.length_eq_zero_iff, hsort.length_eq, List.length_eq_zero_iff, List.filter_eq_nil_iff]
  simp

theorem mem_kinds {t : Text} : t ∈ kinds ↔ ∃ kind : Kind, t = kind.text := by
  constructor
  · intro h
    simp only [kinds, List.mem_cons, List.not_mem_nil, or_false] at h
    rcases h with rfl | rfl | rfl
    · exact ⟨.choice, rfl⟩
    · exact ⟨.noul, rfl⟩
    · exact ⟨.score, rfl⟩
  · rintro ⟨kind, rfl⟩
    cases kind <;> simp [kinds]

theorem questionOk_iff {question : Option (Value F)} :
    questionOk host question = true ↔ ∃ t, question = some (.str t) ∧ ∃ c ∈ t, host.whitespace c = false := by
  rcases question with _ | question
  · simp [questionOk]
  · cases question <;> simp [questionOk]

theorem optionOk_iff {option : Value F} : optionOk option = true ↔ ∃ t, t ≠ [] ∧ option = .str t := by
  cases option <;> simp [optionOk]

theorem optionsOk_iff {options : Option (Value F)} : optionsOk options = true ↔ OptionsFit .choice options := by
  rcases options with _ | options
  · simp [optionsOk, OptionsFit]
  · cases options <;> simp [optionsOk, OptionsFit, optionOk_iff, and_assoc]

theorem isNone_iff {options : Option (Value F)} : isNone options = true ↔ options = none ∨ options = some .null := by
  rcases options with _ | options
  · simp [isNone]
  · cases options <;> simp [isNone]

theorem meets_refuseIf (hE : ∀ message, E (clientError message)) {c : Prop} [Decidable c] {message : Text}
    {f : Unit → Except Raised α} : Meets (refuseIf c message >>= f) Q E ↔ (¬c → Meets (f ()) Q E) := by
  rw [refuseIf]
  by_cases hc : c
  · rw [if_pos hc]
    exact iff_of_true (hE message) (fun h => absurd hc h)
  · rw [if_neg hc]
    exact ⟨fun h _ => h, fun h => h hc⟩

theorem meets_checkKind (hE : Refusals E) {kind : Option (Value F)} {f : Text → Except Raised α} :
    Meets (checkKind kind >>= f) Q E ↔
      hashable kind = true ∧ ∀ k : Kind, kind = some (.str k.text) → Meets (f k.text) Q E := by
  rcases kind with _ | kind
  · exact iff_of_true (hE.clientError _) ⟨rfl, fun k hk => by cases hk⟩
  · cases kind with
    | arr items => exact iff_of_false hE.typeError (fun h => Bool.false_ne_true h.1)
    | obj fields => exact iff_of_false hE.typeError (fun h => Bool.false_ne_true h.1)
    | str t =>
      rw [checkKind]
      by_cases ht : t ∈ kinds
      · obtain ⟨k, rfl⟩ := mem_kinds.mp ht
        rw [if_pos ht]
        refine ⟨fun h => ⟨rfl, fun k' hk' => ?_⟩, fun h => h.2 k rfl⟩
        rw [← Value.str.inj (Option.some.inj hk')]
        exact h
      · rw [if_neg ht]
        refine iff_of_true (hE.clientError _) ⟨rfl, fun k hk => absurd (mem_kinds.mpr ⟨k, ?_⟩) ht⟩
        exact Value.str.inj (Option.some.inj hk)
    | _ => exact iff_of_true (hE.clientError _) ⟨rfl, fun k hk => by cases hk⟩

theorem meets_checkOptions (hE : Refusals E) {kind : Kind} {options : Option (Value F)} {f : Unit → Except Raised α} :
    Meets (checkOptions kind.text options >>= f) Q E ↔ (OptionsFit kind options → Meets (f ()) Q E) := by
  have hchoice : kind.text = Kind.choice.text ↔ kind = .choice := by cases kind <;> decide
  rw [checkOptions]
  by_cases hkind : kind = .choice
  · subst hkind
    rw [if_pos rfl, meets_refuseIf hE.clientError, Bool.not_eq_false, optionsOk_iff]
  · rw [if_neg (fun h => hkind (hchoice.mp h)), meets_refuseIf hE.clientError, Bool.not_eq_false, isNone_iff]
    cases kind with
    | choice => exact absurd rfl hkind
    | noul => rfl
    | score => rfl

theorem meets_checkThreshold (hE : Refusals E) {threshold : Option (Value F)} {f : Unit → Except Raised α} :
    Meets (checkThreshold host threshold >>= f) Q E ↔
      beyondFloats threshold = false ∧ (ThresholdFits host threshold → Meets (f ()) Q E) := by
  rcases threshold with _ | threshold
  · exact ⟨fun h => ⟨rfl, fun _ => h⟩, fun h => h.2 trivial⟩
  · cases threshold with
    | null => exact ⟨fun h => ⟨rfl, fun _ => h⟩, fun h => h.2 trivial⟩
    | int n =>
      rw [checkThreshold, beyondFloats]
      cases tooLarge n with
      | true => exact iff_of_false hE.overflowError (fun h => Bool.noConfusion h.1)
      | false => exact ⟨fun h => ⟨rfl, fun _ => h⟩, fun h => h.2 trivial⟩
    | float x =>
      rw [checkThreshold, ThresholdFits]
      cases host.isFinite x with
      | true => exact ⟨fun h => ⟨rfl, fun _ => h⟩, fun h => h.2 rfl⟩
      | false => exact iff_of_true (hE.clientError _) ⟨rfl, fun h => absurd h Bool.false_ne_true⟩
    | _ => exact iff_of_true (hE.clientError _) ⟨rfl, False.elim⟩

theorem meets_validate (hE : Refusals E) {v : Value F} {Q : Fields F → Prop}
    (hQ : ∀ fields kind, v = .obj fields → Valid host fields kind → Q fields) :
    Meets (validate host v) Q E ↔ Checkable host v := by
  cases v with
  | obj fields =>
    rw [validate, meets_refuseIf hE.clientError, not_not, unknownFields_eq_nil, meets_checkKind hE]
    simp only [meets_refuseIf hE.clientError, meets_checkOptions hE, meets_checkThreshold hE, Bool.not_eq_false,
      questionOk_iff]
    constructor
    · rintro h _ ⟨⟩ hknown
      obtain ⟨hhash, hkind⟩ := h hknown
      exact ⟨hhash, fun kind haccepted =>
        (hkind kind haccepted.isKind haccepted.question haccepted.options).1⟩
    · intro h hknown
      obtain ⟨hhash, hthreshold⟩ := h fields rfl hknown
      refine ⟨hhash, fun kind hkind hquestion hoptions => ?_⟩
      have haccepted : Accepted host fields kind := ⟨hknown, hkind, hquestion, hoptions⟩
      exact ⟨hthreshold kind haccepted, fun hfits => hQ fields kind rfl ⟨haccepted, hfits⟩⟩
  | _ => exact iff_of_true (hE.clientError _) (fun fields h => by cases h)

end Checks

section Contained

variable {F α β : Type} {host : Host F}

/-- What is raised, if anything, is caught by main. -/
def Contained (x : Except Raised α) : Prop := Meets x (fun _ => True) (fun e => caught e ≠ none)

theorem refusals_caught : Refusals (fun e => caught e ≠ none) :=
  ⟨fun _ => Option.some_ne_none _, fun h => h rfl, fun h => h rfl⟩

theorem contained_ok (a : α) : Contained (.ok a) := trivial

theorem contained_clientError (message : Text) (n : Nat) : Contained (.error (.clientError message n) : Except Raised α) :=
  Option.some_ne_none _

theorem contained_bind {x : Except Raised α} {f : α → Except Raised β} :
    Contained (x >>= f) ↔ Contained x ∧ ∀ a, x = .ok a → Contained (f a) := by
  cases x with
  | error e => exact ⟨fun h => ⟨h, nofun⟩, fun h => h.1⟩
  | ok a => exact ⟨fun h => ⟨trivial, fun b hb => Except.ok.inj hb ▸ h⟩, fun h => h.2 a rfl⟩

theorem contained_map {x : Except Raised α} {f : α → β} : Contained (x.map f) ↔ Contained x := by
  cases x <;> exact Iff.rfl

theorem contained_refuseIf {c : Prop} [Decidable c] {message : Text} {f : Unit → Except Raised α} :
    Contained (refuseIf c message >>= f) ↔ (¬c → Contained (f ())) :=
  meets_refuseIf refusals_caught.clientError

theorem endpoint_contained {base : Text} {info : Bool} :
    Contained (endpoint host base info) ↔ (base ≠ [] → Contained (host.urlsplit base)) := by
  rw [endpoint, contained_refuseIf]
  refine imp_congr_right (fun _ => ?_)
  rw [contained_bind, and_iff_left_iff_imp]
  intro _ parsed _
  rw [contained_refuseIf]
  intro _
  rw [contained_refuseIf]
  exact fun _ => contained_ok _

theorem envNumber_contained {N : Type} (parse : Text → Option N) (isFinite inRange : N → Bool) (name range raw : Text) :
    Contained (envNumber parse isFinite inRange name range raw) := by
  rw [envNumber]
  split
  · exact contained_clientError _ _
  · split
    · exact contained_clientError _ _
    · split
      · exact contained_clientError _ _
      · exact contained_ok _

variable (host) in
/-- Reading the text comes upon an integer or a bracket that is too much for the interpreter. -/
def Beyond (t : Text) : Prop := loads host.fmt t = .error .valueError ∨ loads host.fmt t = .error .recursionError

theorem loadJson_contained {t source : Text} : Contained (loadJson host t source) ↔ ¬Beyond host t := by
  rw [loadJson, Beyond]
  cases hloads : loads host.fmt t with
  | ok v => exact iff_of_true trivial (by simp)
  | error e =>
    cases e with
    | jsonDecodeError => exact iff_of_true (contained_clientError _ _) (by simp)
    | valueError => exact iff_of_false (fun h => h rfl) (by simp)
    | recursionError => exact iff_of_false (fun h => h rfl) (by simp)

theorem loadJson_eq_ok {t source : Text} {v : Value F} : loadJson host t source = .ok v ↔ loads host.fmt t = .ok v := by
  rw [loadJson]
  cases loads host.fmt t with
  | ok v => simp
  | error e => cases e <;> simp

theorem validate_contained {v : Value F} : Contained (validate host v) ↔ Checkable host v :=
  meets_validate refusals_caught (fun _ _ _ _ => trivial)

theorem meets_requestData {E : Raised → Prop} (hE : ∀ e, E e → caught e ≠ none) {body : Option (Fields F)} :
    Meets (requestData host body) (fun _ => True) E ↔ ∀ fields, body = some fields → Sound host.fmt.limits (.obj fields) := by
  cases body with
  | none => exact iff_of_true trivial nofun
  | some fields =>
    refine (meets_encoded hE (f := fun bytes => .ok (some bytes))).trans ⟨?_, fun h => ⟨h fields rfl, fun _ _ => trivial⟩⟩
    rintro ⟨hsound, -⟩ _ ⟨⟩
    exact hsound

theorem requestData_eq_ok {body : Option (Fields F)} : (∃ data, requestData host body = .ok data) ↔
    ∀ fields, body = some fields → Sound host.fmt.limits (.obj fields) := by
  rw [← meets_requestData (E := fun _ => False) (fun _ h => h.elim)]
  cases requestData host body with
  | error e => exact iff_of_false nofun id
  | ok data => exact iff_of_true ⟨data, rfl⟩ trivial

theorem contained_ofExcept_bind {σ : Type} {x : Except Raised α} {f : α → Command σ Raised β} {s : σ} :
    Contained ((Command.ofExcept x >>= f) s).1 ↔ Contained x ∧ ∀ a, x = .ok a → Contained (f a s).1 := by
  cases x with
  | error e => exact ⟨fun h => ⟨h, nofun⟩, fun h => h.1⟩
  | ok a => exact ⟨fun h => ⟨trivial, fun b hb => Except.ok.inj hb ▸ h⟩, fun h => h.2 a rfl⟩

end Contained

section Upstream

variable {F : Type} (host : Host F)

/-- An attempt after which the loop goes on, if it may. -/
def Retried : Attempt → Prop
  | .httpError code (.ok _) => code ∈ retryableHttpStatuses
  | .failed _ => True
  | _ => False

/-- An attempt that raises nothing but what request_json or main catches. -/
def AttemptTame : Attempt → Prop
  | .response raw => ∃ t, host.decodeDetected raw = some t ∧ ¬Beyond host t
  | .httpError _ detail => Contained detail
  | .failed _ => True
  | .raised e => caught e ≠ none

/-- The numbers of the environment are as asked. -/
structure Settings (env : Env) (retries : Nat) (backoff : F) : Prop where
  timeout : ∃ timeout, timeoutSeconds host env = .ok timeout
  maxRetries : maxRetries host env = .ok (retries : Int)
  backoff : retryBackoffSeconds host env = .ok backoff

variable {host}

theorem readResponse_contained {raw : Bytes} {attempts : Nat} :
    Contained (readResponse host raw attempts) ↔ AttemptTame host (.response raw) := by
  rw [readResponse, AttemptTame]
  cases hdecode : host.decodeDetected raw with
  | none => exact iff_of_false (fun h => h rfl) (by simp)
  | some t =>
    simp only [Option.some.injEq, exists_eq_left', Beyond]
    cases hloads : loads host.fmt t with
    | ok v =>
      refine iff_of_true ?_ (by simp)
      cases v with
      | obj fields => exact contained_ok _
      | _ => exact contained_clientError _ _
    | error e =>
      cases e with
      | jsonDecodeError => exact iff_of_true (contained_clientError _ _) (by simp)
      | valueError => exact iff_of_false (fun h => h rfl) (by simp)
      | recursionError => exact iff_of_false (fun h => h rfl) (by simp)

theorem Retried.tame {attempt : Attempt} (h : Retried attempt) : AttemptTame host attempt := by
  cases attempt with
  | httpError code detail =>
    cases detail with
    | error e => exact h.elim
    | ok detail => exact contained_ok detail
  | failed reason => trivial
  | _ => exact h.elim

variable {upstream : Nat → Attempt} {request : HttpRequest} {retryIndex : Nat} {wire : Wire}

theorem tryOnce_retried (h : Retried (upstream retryIndex)) :
    tryOnce host upstream request false retryIndex wire = (.ok none, { wire with sent := wire.sent ++ [request] }) := by
  cases hattempt : upstream retryIndex with
  | httpError code detail =>
    rw [hattempt] at h
    cases detail with
    | error e => exact h.elim
    | ok detail =>
      have hgoes : ¬(code ∉ retryableHttpStatuses ∨ false = true) := by
        rintro (hnot | hlast)
        · exact hnot h
        · cases hlast
      simp only [tryOnce, hattempt, Command.bind_apply, Command.modify, Command.ofExcept, if_neg hgoes]
      rfl
  | failed reason =>
    simp only [tryOnce, hattempt, Command.bind_apply, Command.modify, Bool.false_eq_true, if_false]
    rfl
  | _ =>
    rw [hattempt] at h
    exact h.elim

variable (host) in
/-- How the loop ends with an attempt after which it does not go on. -/
def conclude (attempt : Attempt) (attempts : Nat) : Except Raised (Fields F × Nat) :=
  match attempt with
  | .response raw => readResponse host raw attempts
  | .httpError code (.ok detail) =>
    .error (.clientError (text "upstream HTTP " ++ decimal code ++ text ": " ++ detail.take 2000) attempts)
  | .httpError _ (.error e) => .error e
  | .failed reason => .error (.clientError (text "upstream connection failed: " ++ reason) attempts)
  | .raised e => .error e

theorem conclude_contained {attempt : Attempt} {attempts : Nat} :
    Contained (conclude host attempt attempts) ↔ AttemptTame host attempt := by
  cases attempt with
  | response raw => exact readResponse_contained
  | httpError code detail =>
    cases detail with
    | error e => exact Iff.rfl
    | ok detail => exact iff_of_true (contained_clientError _ _) (contained_ok detail)
  | failed reason => exact iff_of_true (contained_clientError _ _) trivial
  | raised e => exact Iff.rfl

theorem tryOnce_conclude {last : Bool} (h : last = true ∨ ¬Retried (upstream retryIndex)) :
    tryOnce host upstream request last retryIndex wire =
      ((conclude host (upstream retryIndex) (retryIndex + 1)).map some, { wire with sent := wire.sent ++ [request] }) := by
  cases hattempt : upstream retryIndex with
  | response raw => simp only [tryOnce, hattempt, conclude, Command.bind_apply, Command.modify, Command.ofExcept]
  | httpError code detail =>
    cases detail with
    | error e =>
      simp only [tryOnce, hattempt, conclude, Command.bind_apply, Command.modify, Command.ofExcept]
      rfl
    | ok detail =>
      have hstops : code ∉ retryableHttpStatuses ∨ last = true := by
        rw [hattempt] at h
        exact h.symm
      simp only [tryOnce, hattempt, Command.bind_apply, Command.modify, Command.ofExcept, if_pos hstops]
      rfl
  | failed reason =>
    have hlast : last = true := by
      rw [hattempt] at h
      exact h.resolve_right (fun hnot => hnot trivial)
    simp only [tryOnce, hattempt, Command.bind_apply, Command.modify, if_pos hlast]
    rfl
  | raised e =>
    simp only [tryOnce, hattempt, conclude, Command.bind_apply, Command.modify]
    rfl

variable {backoff : F}

theorem retryLoop_conclude {remaining : Nat} (h : remaining = 0 ∨ ¬Retried (upstream retryIndex)) :
    retryLoop host upstream request backoff remaining retryIndex wire =
      (conclude host (upstream retryIndex) (retryIndex + 1), { wire with sent := wire.sent ++ [request] }) := by
  cases remaining with
  | zero =>
    rw [retryLoop, Command.bind_apply, tryOnce_conclude (.inl rfl)]
    cases conclude host (upstream retryIndex) (retryIndex + 1) <;> rfl
  | succ remaining =>
    have hfinal := h.resolve_left (Nat.succ_ne_zero remaining)
    rw [retryLoop, Command.bind_apply, tryOnce_conclude (.inr hfinal)]
    cases conclude host (upstream retryIndex) (retryIndex + 1) <;> rfl

theorem retryLoop_retry (h : Retried (upstream retryIndex)) (remaining : Nat) :
    retryLoop host upstream request backoff (remaining + 1) retryIndex wire =
      retryLoop host upstream request backoff remaining (retryIndex + 1)
        (pause host backoff retryIndex { wire with sent := wire.sent ++ [request] }).2 := by
  rw [retryLoop, Command.bind_apply, tryOnce_retried h]
  rfl

/-- By induction on the attempts that are left: the loop ends with the first attempt that is not tried again. -/
theorem retryLoop_contained (remaining retryIndex : Nat) (wire : Wire) :
    Contained (retryLoop host upstream request backoff remaining retryIndex wire).1 ↔
      ∀ i ≤ remaining, (∀ j < i, Retried (upstream (retryIndex + j))) → AttemptTame host (upstream (retryIndex + i)) := by
  induction remaining generalizing retryIndex wire with
  | zero =>
    rw [retryLoop_conclude (.inl rfl), conclude_contained]
    constructor
    · intro h i hi _
      obtain rfl := Nat.le_zero.mp hi
      exact h
    · exact fun h => h 0 (Nat.le_refl 0) nofun
  | succ remaining ih =>
    by_cases hretried : Retried (upstream retryIndex)
    · rw [retryLoop_retry hretried, ih]
      constructor
      · intro h i hi hall
        cases i with
        | zero => exact hretried.tame
        | succ i =>
          rw [Nat.add_comm i, ← Nat.add_assoc]
          refine h i (Nat.le_of_succ_le_succ hi) (fun j hj => ?_)
          rw [Nat.add_assoc, Nat.add_comm 1]
          exact hall (j + 1) (Nat.succ_lt_succ hj)
      · intro h i hi hall
        rw [Nat.add_assoc, Nat.add_comm 1]
        refine h (i + 1) (Nat.succ_le_succ hi) (fun j hj => ?_)
        cases j with
        | zero => exact hretried
        | succ j =>
          rw [Nat.add_comm j, ← Nat.add_assoc]
          exact hall j (Nat.lt_of_succ_lt_succ hj)
    · rw [retryLoop_conclude (.inr hretried), conclude_contained]
      constructor
      · intro h i _ hall
        cases i with
        | zero => exact h
        | succ i => exact absurd (hall 0 (Nat.succ_pos i)) hretried
      · exact fun h => h 0 (Nat.zero_le _) nofun

variable (host upstream) in
/-- What a call of request_json with the body comes to raises nothing but what is caught. -/
def RequestTame (env : Env) (body : Option (Fields F)) : Prop :=
  ∀ retries backoff, Settings host env retries backoff →
    (∀ fields, body = some fields → Sound host.fmt.limits (.obj fields)) ∧
      ∀ i ≤ retries, (∀ j < i, Retried (upstream j)) → AttemptTame host (upstream i)

theorem maxRetries_range {env : Env} {retries : Int} (h : maxRetries host env = .ok retries) : 0 ≤ retries ∧ retries ≤ 5 := by
  rw [maxRetries, envNumber] at h
  split at h
  · cases h
  · split at h
    · cases h
    · split at h
      · cases h
      next hrange =>
        cases h
        simpa using hrange

theorem requestJson_contained {env : Env} {url method : Text} {body : Option (Fields F)} {wire : Wire} :
    Contained (requestJson host env upstream url method body wire).1 ↔ RequestTame host upstream env body := by
  have hsound : Contained (requestData host body) ↔ _ := meets_requestData (fun _ h => h)
  rw [requestJson]
  simp only [contained_ofExcept_bind, hsound, timeoutSeconds, maxRetries, retryBackoffSeconds, envNumber_contained, true_and]
  constructor
  · intro h retries backoff hsettings
    obtain ⟨timeout, htimeout⟩ := hsettings.timeout
    obtain ⟨hbody, hloop⟩ := h timeout htimeout retries hsettings.maxRetries backoff hsettings.backoff
    refine ⟨hbody, ?_⟩
    obtain ⟨data, hdata⟩ := requestData_eq_ok.mpr hbody
    have hattempts := (retryLoop_contained _ _ _).mp (hloop data hdata)
    simpa using hattempts
  · intro h timeout htimeout retries hretries backoff hbackoff
    obtain ⟨hnonneg, -⟩ := maxRetries_range hretries
    obtain ⟨hbody, hattempts⟩ := h retries.toNat backoff ⟨⟨timeout, htimeout⟩, by rwa [Int.toNat_of_nonneg hnonneg], hbackoff⟩
    refine ⟨hbody, fun data _ => (retryLoop_contained _ _ _).mpr ?_⟩
    simpa using hattempts

end Upstream

section Bodies

variable {F : Type} {host : Host F} {world : World}

def World.fileText (world : World) (name : Text) : Option Text :=
  match world.resolve name with
  | .error _ => none
  | .ok path =>
    match world.readBytes path with
    | .error _ => none
    | .ok data => decode data

/-- The request as it is given by a file or by standard input. -/
def World.givenText (world : World) (name : Text) : Option Text :=
  if name = text "-" then decode world.stdin else world.fileText name

def Readable (world : World) (name : Text) : Prop :=
  ∃ path data, world.resolve name = .ok path ∧ world.readBytes path = .ok data

variable (host world)

structure RequestFileTame (name : Text) : Prop where
  given : if name = text "-" then decode world.stdin ≠ none else Contained (world.resolve name)
  within : ∀ t, world.givenText name = some t → ¬Beyond host t
  checkable : ∀ t v, world.givenText name = some t → loads host.fmt t = .ok v → Checkable host v

def StateTame : Prop :=
  match world.args.stateJson, world.args.stateFile with
  | some t, _ => ¬Beyond host t
  | none, some name => Contained (world.resolve name) ∧ ∀ t, world.fileText name = some t → ¬Beyond host t
  | none, none => True

/-- What build_body comes to, in its order. -/
structure BodyTame : Prop where
  request : ∀ name, world.args.requestFile = some name → name ≠ [] → RequestFileTame host world name
  state : truthy world.args.requestFile = false → world.args.kind ≠ none → world.args.question ≠ none →
    ¬(world.args.stateJson.isSome ∧ world.args.stateFile.isSome) → StateTame host world
  evidence : ∀ before name after, (∃ given, givenBody host world = .ok given) →
    world.args.evidenceFile = before ++ name :: after → (∀ n ∈ before, Readable world n) → Contained (world.resolve name)

variable {host world}

theorem readFile_contained {name label : Text} : Contained (readFile host world name label) ↔ Contained (world.resolve name) := by
  rw [readFile, contained_bind, and_iff_left_iff_imp]
  intro _ path _
  split
  · exact contained_clientError _ _
  · exact contained_ok _

theorem exists_readFile_ok {name label : Text} : (∃ r, readFile host world name label = .ok r) ↔ Readable world name := by
  rw [readFile, Readable]
  cases world.resolve name with
  | error e => exact iff_of_false nofun nofun
  | ok path =>
    simp only [bind, Except.bind, Except.ok.injEq, exists_and_left, exists_eq_left']
    cases world.readBytes path with
    | error message => exact iff_of_false nofun nofun
    | ok data => exact iff_of_true ⟨_, rfl⟩ ⟨data, rfl⟩

theorem readText_contained {name label description : Text} :
    Contained (readText host world name label description) ↔ Contained (world.resolve name) := by
  rw [readText, contained_bind, readFile_contained, and_iff_left_iff_imp]
  rintro _ ⟨raw, entry⟩ _
  dsimp only
  split
  · exact contained_ok _
  · exact contained_clientError _ _

theorem exists_readText_ok {name label description t : Text} :
    (∃ entry, readText host world name label description = .ok (t, entry)) ↔ world.fileText name = some t := by
  rw [readText, readFile, World.fileText]
  cases world.resolve name with
  | error e => simp [bind, Except.bind]
  | ok path =>
    simp only [bind, Except.bind]
    cases world.readBytes path with
    | error message => simp
    | ok data =>
      simp only [pure, Except.pure]
      cases decode data <;> simp

theorem requestText_contained {name : Text} : Contained (requestText host world name) ↔
    if name = text "-" then decode world.stdin ≠ none else Contained (world.resolve name) := by
  rw [requestText]
  split
  · cases decode world.stdin with
    | none => exact iff_of_false (fun h => h rfl) (fun h => h rfl)
    | some t => exact iff_of_true trivial (Option.some_ne_none t)
  · rw [contained_map, readText_contained]

theorem exists_requestText_ok {name t : Text} :
    (∃ evidence, requestText host world name = .ok (t, evidence)) ↔ world.givenText name = some t := by
  rw [requestText, World.givenText]
  split
  · cases decode world.stdin with
    | none => exact iff_of_false nofun nofun
    | some u => simp
  · have htext : (∃ entry, readText host world name (text "request_file") (text "request file") = .ok (t, entry)) ↔ _ :=
      exists_readText_ok
    rw [← htext]
    simp [map_eq_ok]

theorem fileBody_contained {name : Text} : Contained (fileBody host world name) ↔ RequestFileTame host world name := by
  rw [fileBody, contained_bind, requestText_contained]
  simp only [contained_bind, loadJson_contained, loadJson_eq_ok, validate_contained]
  constructor
  · rintro ⟨hgiven, h⟩
    have htext : ∀ t, world.givenText name = some t → ¬Beyond host t ∧ ∀ v, loads host.fmt t = .ok v → Checkable host v := by
      intro t ht
      obtain ⟨evidence, hevidence⟩ : ∃ evidence, requestText host world name = .ok (t, evidence) :=
        exists_requestText_ok.mpr ht
      obtain ⟨hwithin, hcheck⟩ := h _ hevidence
      exact ⟨hwithin, fun v hv => (hcheck v hv).1⟩
    exact ⟨hgiven, fun t ht => (htext t ht).1, fun t v ht hv => (htext t ht).2 v hv⟩
  · intro h
    refine ⟨h.given, ?_⟩
    rintro ⟨t, evidence⟩ hok
    have ht := exists_requestText_ok.mp ⟨evidence, hok⟩
    exact ⟨h.within t ht, fun v hv => ⟨h.checkable t v ht hv, fun _ _ => contained_ok _⟩⟩

theorem stateValue_contained : Contained (stateValue host world) ↔ StateTame host world := by
  rw [stateValue, StateTame]
  cases world.args.stateJson with
  | some t => exact contained_map.trans loadJson_contained
  | none =>
    cases world.args.stateFile with
    | none => exact Iff.rfl
    | some name =>
      dsimp only
      rw [contained_bind, readText_contained]
      refine and_congr_right (fun _ => ⟨fun h t ht => ?_, ?_⟩)
      · obtain ⟨entry, hentry⟩ := exists_readText_ok.mpr ht
        exact loadJson_contained.mp (contained_bind.mp (h _ hentry)).1
      · rintro h ⟨t, entry⟩ hok
        refine contained_bind.mpr ⟨loadJson_contained.mpr (h t ?_), fun _ _ => contained_ok _⟩
        exact exists_readText_ok.mp ⟨entry, hok⟩

def flagKeys : List Text :=
  [text "kind", text "question"] ++ [text "state"] ++ [text "options"] ++ [text "strategy"] ++ [text "thinking"]

theorem keys_flagFields (kind : Kind) (question : Text) (state : Option (Value F)) :
    ((flagFields world kind question state).map Prod.fst).Sublist flagKeys := by
  have hoptional : ∀ (key : Text) (v : Option (Value F)), ((optionalField key v).map Prod.fst).Sublist [key] := by
    intro key v
    cases v with
    | none => exact List.nil_sublist _
    | some v => exact List.Sublist.refl _
  rw [flagFields, flagKeys]
  simp only [List.map_append]
  exact ((((List.Sublist.refl _).append (hoptional _ _)).append (hoptional _ _)).append (hoptional _ _)).append (hoptional _ _)

theorem flagFields_checkable (kind : Kind) (question : Text) (state : Option (Value F)) :
    Checkable host (.obj (flagFields world kind question state)) := by
  rintro _ ⟨⟩ _
  have hthreshold : find (text "threshold") (flagFields world kind question state) = none := by
    have hnot : text "threshold" ∉ flagKeys := by decide
    exact find_eq_none.mpr (fun hmem => hnot ((keys_flagFields kind question state).subset hmem))
  refine ⟨rfl, fun _ _ => ?_⟩
  rw [hthreshold]
  rfl

theorem flagBody_contained : Contained (flagBody host world) ↔
    (world.args.kind ≠ none → world.args.question ≠ none →
      ¬(world.args.stateJson.isSome ∧ world.args.stateFile.isSome) → StateTame host world) := by
  rw [flagBody]
  split
  next kind question hkind hquestion =>
    rw [contained_refuseIf, hkind, hquestion]
    simp only [ne_eq, reduceCtorEq, not_false_eq_true, forall_const]
    refine imp_congr_right (fun _ => ?_)
    rw [contained_bind, stateValue_contained, and_iff_left_iff_imp]
    rintro _ ⟨state, evidence⟩ _
    exact contained_bind.mpr ⟨validate_contained.mpr (flagFields_checkable kind question state), fun _ _ => contained_ok _⟩
  next hnot =>
    refine iff_of_true (contained_clientError _ _) (fun hkind hquestion => ?_)
    obtain ⟨kind, hkind⟩ := Option.ne_none_iff_exists'.mp hkind
    obtain ⟨question, hquestion⟩ := Option.ne_none_iff_exists'.mp hquestion
    exact absurd hquestion (hnot kind question hkind)

/-- By induction on the files: each is looked for once those before it were read. -/
theorem addEvidence_contained {names : List Text} {evidence : List (Fields F)} :
    Contained (addEvidence host world names evidence) ↔
      ∀ before name after, names = before ++ name :: after → (∀ n ∈ before, Readable world n) →
        Contained (world.resolve name) := by
  induction names generalizing evidence with
  | nil => exact iff_of_true trivial (fun before name after h => by simp at h)
  | cons first names ih =>
    rw [addEvidence, contained_bind, readFile_contained]
    constructor
    · rintro ⟨hfirst, hrest⟩ before name after hnames hread
      cases before with
      | nil =>
        cases hnames
        exact hfirst
      | cons n before =>
        cases hnames
        obtain ⟨hn, hread⟩ := List.forall_mem_cons.mp hread
        obtain ⟨r, hr⟩ : ∃ r, readFile host world _ (text "evidence_file") = .ok r := exists_readFile_ok.mpr hn
        exact ih.mp (hrest r hr) before name after rfl hread
    · intro h
      refine ⟨h [] first names rfl nofun, fun r hr => ih.mpr ?_⟩
      rintro before name after rfl hread
      refine h (first :: before) name after rfl (List.forall_mem_cons.mpr ⟨?_, hread⟩)
      exact exists_readFile_ok.mp ⟨r, hr⟩

theorem buildBody_contained : Contained (buildBody host world) ↔ BodyTame host world := by
  have hgiven : Contained (givenBody host world) ↔
      (∀ name, world.args.requestFile = some name → name ≠ [] → RequestFileTame host world name) ∧
        (truthy world.args.requestFile = false → world.args.kind ≠ none → world.args.question ≠ none →
          ¬(world.args.stateJson.isSome ∧ world.args.stateFile.isSome) → StateTame host world) := by
    rw [givenBody]
    cases hname : world.args.requestFile with
    | none => simp [truthy, flagBody_contained]
    | some name =>
      by_cases hempty : name = []
      · simp [truthy, hempty, flagBody_contained]
      · simp [truthy, hempty, fileBody_contained]
  rw [buildBody, contained_bind, hgiven]
  simp only [contained_bind, addEvidence_contained]
  constructor
  · rintro ⟨⟨hrequest, hstate⟩, hevidence⟩
    refine ⟨hrequest, hstate, ?_⟩
    rintro before name after ⟨given, hok⟩ hnames hread
    exact (hevidence given hok).1 before name after hnames hread
  · intro h
    refine ⟨⟨h.request, h.state⟩, fun given hok => ⟨?_, fun _ _ => contained_ok _⟩⟩
    exact fun before name after hnames hread => h.evidence before name after ⟨given, hok⟩ hnames hread

end Bodies

section Examples

def demoHost : Host Unit where
  fmt := unitFloats
  printDepth := 900
  sha256 := fun bytes => decimal bytes.length
  sha256_ascii := fun bytes c hc => Nat.lt_of_lt_of_le (isDigit_ascii (isDigit_decimal _ c hc)).2 (by decide)
  float := fun _ => some ()
  int := fun t => some (ofDecimal t)
  isFinite := fun _ => true
  atLeast := fun _ _ => true
  atMost := fun _ _ => true
  nonzero := fun _ => false
  seconds := fun _ => 0
  whitespace := fun c => c = ' '.toNat
  urlsplit := fun t => .ok ⟨text "http", t, [], [], [], none, none⟩
  urlunsplit := fun scheme netloc path _ _ => scheme ++ text "://" ++ netloc ++ path
  decodeDetected := decode
  decodeMessage := fun _ => text "Expecting value"

def demoDisk : Disk where
  path := .ok (text "audit.jsonl")
  parent := text "."
  fails := fun _ => none
  cut := 0
  parentExisted := true
  parentMode := 0o700
  regular := true

end Examples

end ProductionStack.JevDecide
