import ProductionStack.StaticDiscovery

namespace ProductionStack.YamlConfig

open StaticLists RouterConfig Startup StaticDiscovery

structure Details where
  staticBackends : Option (List String) := none
  staticModelType : Option String := none
  deriving DecidableEq, Repr

abbrev Models := Dict String Details

def join (parts : List String) : String := ",".intercalate parts

def backends (models : Models) : List String :=
  models.entries.flatMap (fun e => e.2.staticBackends.getD [])

def names (models : Models) : List String :=
  models.entries.flatMap (fun e => List.replicate (e.2.staticBackends.getD []).length e.1)

def types (models : Models) : List String :=
  models.entries.flatMap (fun e =>
    match e.2.staticModelType, e.2.staticBackends with
    | some modelType, some urls => List.replicate urls.length modelType
    | _, _ => [])

def generateStaticBackends (models : Models) : String := join (backends models)

def generateStaticModels (models : Models) : String := join (names models)

def generateStaticModelTypes (models : Models) : String := join (types models)

def generateStaticAliases (aliases : Dict String String) : String :=
  join (aliases.entries.map (fun e => e.1 ++ ":" ++ e.2))

/-- A config file as it is written: its entries for static_models and static_aliases, and all its others. -/
structure YamlFile where
  staticModels : Entry Models := none
  staticAliases : Entry (Dict String String) := none
  others : ConfigFile := {}

def nonempty {V : Type} (d : Entry (Dict String V)) : Option (Dict String V) := (d.getD none).filter (fun d => d.entries ≠ [])

/-- The two mappings are taken out; one that is not empty is put back in the form of the command line. -/
def readAndProcessYamlConfigFile (file : YamlFile) : ConfigFile :=
  let config := { file.others with staticModels := none, staticAliases := none }
  let config := match nonempty file.staticModels with
    | none => config
    | some models =>
      { config with
        staticBackends := some (some (generateStaticBackends models))
        staticModels := some (some (generateStaticModels models))
        staticModelTypes := some (some (generateStaticModelTypes models)) }
  match nonempty file.staticAliases with
  | none => config
  | some aliases => { config with staticAliases := some (some (generateStaticAliases aliases)) }

theorem split_join_comma {parts : List String} (h : parts ≠ []) : split ',' (join parts) = parts.flatMap (split ',') :=
  split_join h

section Aliases

variable {aliases : Dict String String}

def Plain (text : String) : Prop := ',' ∉ text.toList ∧ ':' ∉ text.toList

theorem unpackAlias_eq_ok {parts : List String} {pair : String × String} :
    unpackAlias parts = .ok pair ↔ parts = [pair.1, pair.2] := by
  obtain ⟨name, model⟩ := pair
  constructor
  · intro h
    cases parts with
    | nil => cases h
    | cons first rest =>
      cases rest with
      | nil => cases h
      | cons second rest =>
        cases rest with
        | nil =>
          cases h
          rfl
        | cons third rest => cases h
  · rintro rfl
    rfl

theorem plain_of_parsed {text : String} (h : parseStaticAliases text = .ok aliases) :
    ∀ e ∈ aliases.entries, Plain e.1 ∧ Plain e.2 := by
  intro e he
  obtain ⟨pairs, hpairs, hdict⟩ := bind_eq_ok.mp h
  cases hdict
  have hmem : (.ok e : Except Exc (String × String)) ∈ pairs.map .ok := List.mem_map_of_mem (Dict.mem_of_mem_ofList he)
  rw [← mapM_eq_ok.mp hpairs] at hmem
  obtain ⟨aliasAndModel, hpart, hunpack⟩ := List.mem_map.mp hmem
  have hparts := unpackAlias_eq_ok.mp hunpack
  have hplain : ∀ part ∈ split ':' aliasAndModel, Plain part := by
    intro part hmem
    exact ⟨fun hcomma => notMem_of_mem_split hpart ((isInfix_of_mem_split hmem).subset hcomma), notMem_of_mem_split hmem⟩
  rw [hparts] at hplain
  exact ⟨hplain e.1 (by simp), hplain e.2 (by simp)⟩

theorem parse_of_plain (hne : aliases.entries ≠ []) (h : ∀ e ∈ aliases.entries, Plain e.1 ∧ Plain e.2) :
    parseStaticAliases (generateStaticAliases aliases) = .ok aliases := by
  have hparts : split ',' (generateStaticAliases aliases) = aliases.entries.map (fun e => e.1 ++ ":" ++ e.2) := by
    rw [generateStaticAliases, split_join_comma (by simpa using hne), flatMap_split_eq_self]
    intro part hpart
    obtain ⟨e, he, rfl⟩ := List.mem_map.mp hpart
    obtain ⟨hname, hmodel⟩ := h e he
    simp [hname.1, hmodel.1]
  have hunpacked : (split ',' (generateStaticAliases aliases)).mapM (fun part => unpackAlias (split ':' part)) =
      .ok aliases.entries := by
    rw [hparts, mapM_eq_ok, List.map_map]
    apply List.map_congr_left
    intro e he
    obtain ⟨hname, hmodel⟩ := h e he
    exact unpackAlias_eq_ok.mpr (split_two hname.2 hmodel.2)
  refine bind_eq_ok.mpr ⟨aliases.entries, hunpacked, ?_⟩
  exact congrArg Except.ok (Dict.ext_entries (Dict.entries_ofList aliases.entries aliases.nodup))

/-- The encoding is read back exactly when there is an alias and none of the names has a separator in it. -/
theorem aliases_round_trip_iff (aliases : Dict String String) :
    parseStaticAliases (generateStaticAliases aliases) = .ok aliases ↔
      aliases.entries ≠ [] ∧ ∀ e ∈ aliases.entries, Plain e.1 ∧ Plain e.2 := by
  constructor
  · intro h
    refine ⟨?_, plain_of_parsed h⟩
    intro hempty
    rw [generateStaticAliases, hempty] at h
    cases h
  · rintro ⟨hne, hplain⟩
    exact parse_of_plain hne hplain

/-- The name of a model with a tag has a colon in it: there are three values to unpack. -/
theorem tagged_model_not_parsed :
    ¬ ∀ aliases : Dict String String, (∀ e ∈ aliases.entries, e.1 ≠ "" ∧ e.2 ≠ "") →
      parseStaticAliases (generateStaticAliases aliases) = .ok aliases := by
  intro h
  have hparsed := h (.ofList [("llama", "llama3:8b")]) (by decide)
  exact absurd (plain_of_parsed hparsed ("llama", "llama3:8b") (by decide)).2.2 (by decide)

end Aliases

section Models

variable {models : Models}

def flatten (models : Models) : List ((String × String) × Option String) :=
  models.entries.flatMap (fun e => (e.2.staticBackends.getD []).map (fun url => ((url, e.1), e.2.staticModelType)))

theorem backends_eq (models : Models) : backends models = (flatten models).map (fun x => x.1.1) := by
  simp [backends, flatten, List.map_flatMap, Function.comp_def]

theorem names_eq (models : Models) : names models = (flatten models).map (fun x => x.1.2) := by
  simp [names, flatten, List.map_flatMap, Function.comp_def, List.map_const']

/-- Every model gives a type. -/
def Typed (models : Models) : Prop := ∀ e ∈ models.entries, e.2.staticModelType.isSome

theorem types_eq (h : Typed models) : (types models).map some = (flatten models).map Prod.snd := by
  rw [types, flatten, List.map_flatMap, List.map_flatMap]
  apply List.flatMap_congr
  intro e he
  obtain ⟨modelType, htype⟩ := Option.isSome_iff_exists.mp (h e he)
  cases e.2.staticBackends <;> simp [htype, Function.comp_def, List.map_const']

theorem readAndProcess_static {file : YamlFile} (h : file.staticModels = some (some models)) (hne : models.entries ≠ []) :
    let args := loadInitialConfig (readAndProcessYamlConfigFile file)
    args.staticBackends = some (join (backends models)) ∧ args.staticModels = some (join (names models)) ∧
      args.staticModelTypes = some (join (types models)) := by
  have hmodels : nonempty file.staticModels = some models := by simp [nonempty, h, hne]
  simp only [readAndProcessYamlConfigFile, hmodels]
  cases nonempty file.staticAliases <;> exact ⟨rfl, rfl, rfl⟩

theorem entries_ne_nil {H : Type} {file : YamlFile} (h : file.staticModels = some (some models)) {uuid4 : Nat ↪ String}
    {time : Int} {d : StaticServiceDiscovery H}
    (hstart : startStatic (loadInitialConfig (readAndProcessYamlConfigFile file)) uuid4 time = .ok (some d)) :
    models.entries ≠ [] := by
  intro hempty
  have hmodels : nonempty file.staticModels = none := by simp [nonempty, h, hempty]
  have hnone := (startStatic_eq_some hstart).models
  have hargs : (loadInitialConfig (readAndProcessYamlConfigFile file)).staticModels = none := by
    simp only [readAndProcessYamlConfigFile, hmodels]
    cases nonempty file.staticAliases <;> rfl
  rw [hargs] at hnone
  cases hnone

structure Encoded {H : Type} (models : Models) (d : StaticServiceDiscovery H) : Prop where
  nonempty : flatten models ≠ []
  urlList : d.urls = ((backends models).flatMap (split ',')).filter validateUrl
  modelList : d.models = (names models).flatMap (split ',')
  typeList : d.modelTypes = (truthy (some (join (types models)))).map (split ',')

theorem encoded_of_start {H : Type} {file : YamlFile} (h : file.staticModels = some (some models)) {uuid4 : Nat ↪ String}
    {time : Int} {d : StaticServiceDiscovery H}
    (hstart : startStatic (loadInitialConfig (readAndProcessYamlConfigFile file)) uuid4 time = .ok (some d)) :
    Encoded models d := by
  obtain ⟨hbackends, hnames, htypes⟩ := readAndProcess_static h (entries_ne_nil h hstart)
  have hfrom := startStatic_eq_some hstart
  have hurls := hfrom.urls
  have hmodels := hfrom.models
  rw [hbackends] at hurls
  rw [hnames] at hmodels
  have hurls' : d.urls = (split ',' (join (backends models))).filter validateUrl := (Except.ok.inj hurls).symm
  have hmodels' : d.models = split ',' (join (names models)) := (Option.some.inj hmodels).symm
  have hne : flatten models ≠ [] := by
    -- without a backend there is one empty model name, and no URL to go with it
    intro hempty
    have hlength := d.same_length
    rw [hurls', hmodels', backends_eq, names_eq, hempty] at hlength
    exact absurd hlength (by decide)
  refine ⟨hne, ?_, ?_, ?_⟩
  · rw [hurls', split_join_comma (by rw [backends_eq]; simpa using hne)]
  · rw [hmodels', split_join_comma (by rw [names_eq]; simpa using hne)]
  · rw [hfrom.modelTypes, htypes, parseCommaSeparatedArgs]

section Exposed

variable {H : Type} {d : StaticServiceDiscovery H}

theorem pairs_eq_iff : d.pairs = (flatten models).map Prod.fst ↔ d.urls = backends models ∧ d.models = names models := by
  have hfst : d.pairs.map Prod.fst = d.urls := List.map_fst_zip d.same_length.le
  have hsnd : d.pairs.map Prod.snd = d.models := List.map_snd_zip d.same_length.ge
  constructor
  · intro h
    rw [← hfst, ← hsnd, h, backends_eq, names_eq, List.map_map, List.map_map]
    exact ⟨rfl, rfl⟩
  · rintro ⟨hurls, hmodels⟩
    rw [StaticServiceDiscovery.pairs, hurls, hmodels, backends_eq, names_eq, List.zip_map']

theorem Encoded.pairs_iff (h : Encoded models d) :
    d.pairs = (flatten models).map Prod.fst ↔ ∀ x ∈ flatten models, ',' ∉ x.1.1.toList ∧ ',' ∉ x.1.2.toList := by
  rw [pairs_eq_iff]
  constructor
  · rintro ⟨hurls, hmodels⟩ x hx
    constructor
    · have hmem : x.1.1 ∈ d.urls := by
        rw [hurls, backends_eq]
        exact List.mem_map_of_mem hx
      rw [h.urlList] at hmem
      obtain ⟨_, -, hpart⟩ := List.mem_flatMap.mp (List.mem_filter.mp hmem).1
      exact notMem_of_mem_split hpart
    · refine flatMap_split_eq_self.mp (h.modelList.symm.trans hmodels) x.1.2 ?_
      rw [names_eq]
      exact List.mem_map_of_mem hx
  · intro hplain
    have hbackends : (backends models).flatMap (split ',') = backends models := by
      rw [flatMap_split_eq_self, backends_eq]
      intro part hpart
      obtain ⟨x, hx, rfl⟩ := List.mem_map.mp hpart
      exact (hplain x hx).1
    have hnames : (names models).flatMap (split ',') = names models := by
      rw [flatMap_split_eq_self, names_eq]
      intro part hpart
      obtain ⟨x, hx, rfl⟩ := List.mem_map.mp hpart
      exact (hplain x hx).2
    have hmodels := h.modelList.trans hnames
    have hurls := h.urlList
    rw [hbackends] at hurls
    -- a backend that is skipped would leave a model without one
    have hlength : ((backends models).filter validateUrl).length = (backends models).length := by
      rw [← hurls, d.same_length, hmodels, backends_eq, names_eq, List.length_map, List.length_map]
    refine ⟨hurls.trans ?_, hmodels⟩
    exact List.filter_eq_self.mpr (List.length_filter_eq_length_iff.mp hlength)

theorem join_eq_empty {parts : List String} (h : ∀ part ∈ parts, ',' ∉ part.toList) (hne : parts ≠ []) :
    join parts = "" ↔ parts = [""] := by
  constructor
  · intro hjoin
    have hsplit := split_join_comma hne
    rw [hjoin, flatMap_split_eq_self.mpr h] at hsplit
    exact hsplit.symm
  · rintro rfl
    rfl

theorem Encoded.types_iff (h : Encoded models d) (htyped : Typed models) :
    (∃ modelTypes, d.modelTypes = some modelTypes ∧ modelTypes.map some = (flatten models).map Prod.snd) ↔
      (∀ x ∈ flatten models, ∀ modelType, x.2 = some modelType → ',' ∉ modelType.toList) ∧
        (flatten models).map Prod.snd ≠ [some ""] := by
  have hflat := types_eq htyped
  have hne : types models ≠ [] := by
    intro hempty
    rw [hempty] at hflat
    exact h.nonempty (List.map_eq_nil_iff.mp hflat.symm)
  have hplain : (∀ x ∈ flatten models, ∀ modelType, x.2 = some modelType → ',' ∉ modelType.toList) ↔
      ∀ modelType ∈ types models, ',' ∉ modelType.toList := by
    have hmem : ∀ modelType, modelType ∈ types models ↔ ∃ x ∈ flatten models, x.2 = some modelType := by
      intro modelType
      rw [← List.mem_map (f := Prod.snd), ← hflat]
      simp
    simp only [hmem]
    exact ⟨fun hall m ⟨x, hx, hm⟩ => hall x hx m hm, fun hall x hx m hm => hall m ⟨x, hx, hm⟩⟩
  have hsingle : (flatten models).map Prod.snd = [some ""] ↔ types models = [""] := by
    rw [← hflat]
    simp [List.map_eq_singleton_iff]
  rw [hplain, ne_eq, hsingle, ← hflat, h.typeList]
  constructor
  · rintro ⟨modelTypes, hsome, hmap⟩
    obtain rfl : modelTypes = types models := List.map_injective_iff.mpr (Option.some_injective _) hmap
    have hjoin : join (types models) ≠ "" := by
      intro heq
      rw [heq] at hsome
      cases hsome
    rw [truthy_eq_some hjoin, Option.map_some, split_join_comma hne, Option.some.injEq] at hsome
    refine ⟨flatMap_split_eq_self.mp hsome, ?_⟩
    intro hempty
    rw [hempty] at hjoin
    exact hjoin rfl
  · rintro ⟨hcomma, hnot⟩
    have hjoin : join (types models) ≠ "" := fun heq => hnot ((join_eq_empty hcomma hne).mp heq)
    refine ⟨types models, ?_, rfl⟩
    rw [truthy_eq_some hjoin, Option.map_some, split_join_comma hne, flatMap_split_eq_self.mpr hcomma]

/-- A discovery that could be constructed exposes what the mapping says exactly when no URL and no name
of a model with backends has a comma in it; the types come through if, besides, they have none, and are
not just one empty text. -/
theorem static_models_survive_iff (file : YamlFile) (models : Models) (h : file.staticModels = some (some models))
    (uuid4 : Nat ↪ String) (time : Int) (d : StaticServiceDiscovery H)
    (hstart : startStatic (loadInitialConfig (readAndProcessYamlConfigFile file)) uuid4 time = .ok (some d)) :
    (d.pairs = (flatten models).map Prod.fst ∧
      (Typed models →
        ∃ modelTypes, d.modelTypes = some modelTypes ∧ modelTypes.map some = (flatten models).map Prod.snd)) ↔
    (∀ x ∈ flatten models, ',' ∉ x.1.1.toList ∧ ',' ∉ x.1.2.toList) ∧
      (Typed models → (∀ x ∈ flatten models, ∀ modelType, x.2 = some modelType → ',' ∉ modelType.toList) ∧
        (flatten models).map Prod.snd ≠ [some ""]) := by
  have hencoded := encoded_of_start h hstart
  exact and_congr hencoded.pairs_iff (forall_congr' (fun htyped => hencoded.types_iff htyped))

end Exposed

def threeBackends (url : String) : YamlFile where
  staticModels := some (some (.ofList [("llama", ⟨some [url, "http://localhost:8001"], some "chat"⟩),
    ("qwen", ⟨some ["http://localhost:8002"], some "completion"⟩)]))
  others := { serviceDiscovery := some (some "static"), routingLogic := some (some "roundrobin") }

theorem static_models_survive_plain :
    ∃ d : StaticServiceDiscovery String,
      startStatic (loadInitialConfig (readAndProcessYamlConfigFile (threeBackends "http://localhost:8000"))) unary 0 =
        .ok (some d) ∧
      d.pairs = [("http://localhost:8000", "llama"), ("http://localhost:8001", "llama"), ("http://localhost:8002", "qwen")] := by
  refine ⟨_, rfl, ?_⟩
  apply ((static_models_survive_iff (threeBackends "http://localhost:8000") _ rfl unary 0 _ rfl).mpr ?_).1
  exact ⟨by decide, fun _ => ⟨by decide, by decide⟩⟩

/-- A URL with a comma in its path is a valid one, and what is left of it is too. -/
theorem url_cut_at_comma :
    ¬ ∀ (file : YamlFile) (models : Models), file.staticModels = some (some models) →
      ∀ (uuid4 : Nat ↪ String) (time : Int) (d : StaticServiceDiscovery String),
        startStatic (loadInitialConfig (readAndProcessYamlConfigFile file)) uuid4 time = .ok (some d) →
        d.pairs = (flatten models).map Prod.fst := by
  intro h
  have hpairs := h (threeBackends "http://localhost/a,b") _ rfl unary 0 _ rfl
  exact absurd hpairs (by decide)

end Models

end ProductionStack.YamlConfig
