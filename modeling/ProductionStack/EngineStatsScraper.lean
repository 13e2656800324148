import Mathlib.Algebra.Ring.Rat
import ProductionStack.Json
import ProductionStack.StaticDiscovery

namespace ProductionStack.EngineStatsScraper

open Runs
open StaticDiscovery (StaticServiceDiscovery)

/-- The value of a sample is a float, of which nothing is asked here but that there is a zero. -/
structure Sample (F : Type) where
  name : String
  value : F

variable {F : Type} [Zero F]

structure EngineStats (F : Type) [Zero F] where
  numRunningRequests : F := 0
  numQueuingRequests : F := 0
  gpuPrefixCacheHitRate : F := 0
  gpuPrefixCacheHitsTotal : F := 0
  gpuPrefixCacheQueriesTotal : F := 0
  gpuCacheUsagePerc : F := 0

def EngineStats.record (stats : EngineStats F) (sample : Sample F) : EngineStats F :=
  if sample.name = "vllm:num_requests_running" then { stats with numRunningRequests := sample.value }
  else if sample.name = "vllm:num_requests_waiting" then { stats with numQueuingRequests := sample.value }
  else if sample.name = "vllm:gpu_prefix_cache_hit_rate" then { stats with gpuPrefixCacheHitRate := sample.value }
  else if sample.name = "vllm:gpu_prefix_cache_hits_total" then { stats with gpuPrefixCacheHitsTotal := sample.value }
  else if sample.name = "vllm:gpu_prefix_cache_queries_total" then
    { stats with gpuPrefixCacheQueriesTotal := sample.value }
  else if sample.name = "vllm:gpu_cache_usage_perc" then { stats with gpuCacheUsagePerc := sample.value }
  else stats

def fromVllmScrape (families : List (List (Sample F))) : EngineStats F := families.flatten.foldl EngineStats.record {}

/-- The text format is read by prometheus_client. -/
abbrev MetricsParser (F : Type) := String → Except Exc (List (List (Sample F)))

variable (parse : MetricsParser F)

def scrapeOneEndpoint (response : Except Exc String) : Option (EngineStats F) :=
  match response with
  | .error _ => none
  | .ok text =>
    match parse text with
    | .error _ => none
    | .ok families => some (fromVllmScrape families)

/-- The first loop of _scrape_metrics; two endpoints with one URL are both scraped. -/
def collect (responses : Nat → Except Exc String) (endpoints : List EndpointInfo) : Dict String (EngineStats F) :=
  endpoints.zipIdx.foldl
    (fun collected e =>
      match scrapeOneEndpoint parse (responses e.2) with
      | some stats => collected.set e.1.url stats
      | none => collected)
    .empty

def dropStale (collected engineStats : Dict String (EngineStats F)) : Dict String (EngineStats F) :=
  engineStats.keys.foldl (fun d oldUrl => if collected.contains oldUrl then d else d.erase oldUrl) engineStats

def replaceStats (collected engineStats : Dict String (EngineStats F)) : Dict String (EngineStats F) :=
  collected.entries.foldl (fun d e => d.set e.1 e.2) (dropStale collected engineStats)

/-- The thread of the scraper is alive until it is closed or cannot list the endpoints, which nothing catches. -/
structure Scraper (F : Type) [Zero F] where
  engineStats : Dict String (EngineStats F) := .empty
  alive : Bool := true

structure Response where
  status : Nat
  content : List (String × Json)

def health (discovery scraper : Bool) (dynamicConfig : Option Json) : Response :=
  if !discovery then ⟨503, [("status", .str "Service discovery module is down.")]⟩
  else if !scraper then ⟨503, [("status", .str "Engine stats scraper is down.")]⟩
  else
    match dynamicConfig with
    | some config => ⟨200, [("status", .str "healthy"), ("dynamic_config", config)]⟩
    | none => ⟨200, [("status", .str "healthy")]⟩

inductive Event
  | scrapeMetrics (endpoints : Except Exc (List EndpointInfo)) (responses : Nat → Except Exc String)
  | getEngineStats
  | health (discovery : Bool) (dynamicConfig : Option Json)
  | close

inductive Answer (F : Type) [Zero F]
  | done
  | stats (engineStats : Dict String (EngineStats F))
  | response (r : Response)

def step : Component (Scraper F) Event (Answer F)
  | s, .scrapeMetrics endpoints responses =>
    if !s.alive then (.done, s)
    else
      match endpoints with
      | .error _ => (.done, { s with alive := false })
      | .ok endpoints => (.done, { s with engineStats := replaceStats (collect parse responses endpoints) s.engineStats })
  | s, .getEngineStats => (.stats s.engineStats, s)
  | s, .health discovery dynamicConfig => (.response (health discovery s.alive dynamicConfig), s)
  | s, .close => (.done, { s with alive := false })

def scraped (responses : Nat → Except Exc String) (endpoints : List EndpointInfo) : List (String × EngineStats F) :=
  endpoints.zipIdx.filterMap (fun e => (scrapeOneEndpoint parse (responses e.2)).map (fun stats => (e.1.url, stats)))

theorem collect_eq_ofList (responses : Nat → Except Exc String) (endpoints : List EndpointInfo) :
    collect parse responses endpoints = .ofList (scraped parse responses endpoints) := by
  rw [collect, Dict.ofList, scraped, List.foldl_filterMap]
  congr 1
  funext collected e
  cases scrapeOneEndpoint parse (responses e.2) <;> rfl

def lastSuccess (url : String) (scraped : List (String × EngineStats F)) : Option (EngineStats F) :=
  (scraped.filter (·.1 = url)).getLast?.map (·.2)

theorem get?_dropStale (collected engineStats : Dict String (EngineStats F)) (url : String) :
    (dropStale collected engineStats).get? url = if collected.contains url then engineStats.get? url else none := by
  have hfold : ∀ (oldUrls : List String) (d : Dict String (EngineStats F)),
      (oldUrls.foldl (fun d oldUrl => if collected.contains oldUrl then d else d.erase oldUrl) d).get? url =
        if url ∈ oldUrls ∧ collected.contains url = false then none else d.get? url := by
    intro oldUrls
    induction oldUrls with
    | nil => simp
    | cons oldUrl rest ih =>
      intro d
      rw [List.foldl_cons, ih]
      by_cases hin : collected.contains oldUrl = true
      · have hsame : (url ∈ rest ∧ collected.contains url = false) ↔
            (url ∈ oldUrl :: rest ∧ collected.contains url = false) := by
          refine and_congr_left (fun hout => ?_)
          have hne : url ≠ oldUrl := by
            rintro rfl
            rw [hin] at hout
            cases hout
          simp [hne]
        simp only [hin, if_true, hsame]
      · have hout : collected.contains oldUrl = false := by simpa using hin
        by_cases hurl : url = oldUrl
        · subst hurl
          simp [hout, Dict.get?_erase]
        · simp [hout, Dict.get?_erase, hurl]
  rw [dropStale, hfold]
  by_cases hin : collected.contains url = true
  · simp [hin]
  · have hout : collected.contains url = false := by simpa using hin
    simp only [hout, and_true, Bool.false_eq_true, if_false, ite_eq_left_iff]
    intro hmem
    exact Dict.lookup_eq_none.mpr hmem

theorem get?_replaceStats (collected engineStats : Dict String (EngineStats F)) (url : String) :
    (replaceStats collected engineStats).get? url = collected.get? url := by
  rw [replaceStats, Dict.get?_foldl_set_entries _ collected.nodup, get?_dropStale]
  change (collected.get? url).or _ = collected.get? url
  cases hget : collected.get? url with
  | some stats => rfl
  | none => simp [Dict.contains, hget]

def lastRound (last : List (String × EngineStats F)) : List Event → List (String × EngineStats F)
  | [] => last
  | .scrapeMetrics (.ok endpoints) responses :: rest => lastRound (scraped parse responses endpoints) rest
  | .scrapeMetrics (.error _) _ :: _ => last
  | .close :: _ => last
  | .getEngineStats :: rest => lastRound last rest
  | .health _ _ :: rest => lastRound last rest

theorem final_dead {s : Scraper F} (h : s.alive = false) (events : List Event) : final (step parse) s events = s := by
  obtain ⟨engineStats, alive⟩ := s
  dsimp only at h
  subst h
  induction events with
  | nil => rfl
  | cons event rest ih => cases event <;> exact ih

theorem get?_final {s : Scraper F} (halive : s.alive = true) {last : List (String × EngineStats F)}
    (hlast : ∀ url, s.engineStats.get? url = lastSuccess url last) (events : List Event) (url : String) :
    (final (step parse) s events).engineStats.get? url = lastSuccess url (lastRound parse last events) := by
  induction events generalizing s last with
  | nil => exact hlast url
  | cons event rest ih =>
    cases event with
    | getEngineStats => exact ih halive hlast
    | health discovery dynamicConfig => exact ih halive hlast
    | close =>
      rw [final_cons, final_dead parse rfl]
      exact hlast url
    | scrapeMetrics endpoints responses =>
      rw [final_cons]
      cases endpoints with
      | error e =>
        rw [final_dead parse (by simp [step, halive])]
        simp only [step, halive]
        exact hlast url
      | ok endpoints =>
        apply ih
        · simp [step, halive]
        · intro url
          simp only [step, halive, Bool.not_true, Bool.false_eq_true, if_false]
          rw [get?_replaceStats, collect_eq_ofList, Dict.get?_ofList]
          rfl

/-- A reading gives each URL the statistics of its last scrape that succeeded in the last completed round,
and nothing to any other URL. -/
theorem engine_stats_are_those_of_the_last_round (events : List Event) (url : String) :
    ∃ engineStats, (step parse (final (step parse) {} events) .getEngineStats).1 = .stats engineStats ∧
      engineStats.get? url = lastSuccess url (lastRound parse [] events) :=
  ⟨_, rfl, get?_final parse rfl (fun _ => rfl) events url⟩

theorem health_down (discovery : Bool) (dynamicConfig : Option Json) :
    health discovery false dynamicConfig =
      ⟨503, [("status", .str (if discovery then "Engine stats scraper is down." else "Service discovery module is down."))]⟩ := by
  cases discovery <;> rfl

section StaticLabels

variable {H : Type} [DecidableEq H] {md5 : String → H} {d : StaticServiceDiscovery H}

theorem getEndpointInfo_short_labels {labels : List String} (hlabels : d.modelLabels = some labels) (hne : labels ≠ [])
    {i : Nat} {pair : String × String} (hi : d.pairs[i]? = some pair) (hshort : labels.length ≤ i)
    (hkept : d.excluded md5 pair = false) (time : Int) : ∃ e, d.getEndpointInfo md5 time = .error e := by
  cases hinfos : d.getEndpointInfo md5 time with
  | error e => exact ⟨e, rfl⟩
  | ok infos =>
    obtain ⟨info, -, hinfo⟩ := StaticServiceDiscovery.getEndpointInfo_mem hinfos hi hkept
    obtain ⟨-, label, hlabel, -⟩ := StaticServiceDiscovery.endpointInfo_eq_ok hinfo
    cases labels with
    | nil => exact absurd rfl hne
    | cons first others =>
      rw [StaticServiceDiscovery.modelLabel, hlabels] at hlabel
      simp only [List.getElem?_eq_none hshort] at hlabel
      cases hlabel

/-- One round over a static discovery with too few labels, and no health check is passed any more, whatever
discovery takes its place. -/
theorem health_is_down_after_short_labels (md5 : String → H) (d : StaticServiceDiscovery H) (labels : List String)
    (hlabels : d.modelLabels = some labels) (hne : labels ≠ []) (i : Nat) (pair : String × String)
    (hi : d.pairs[i]? = some pair) (hshort : labels.length ≤ i) (hkept : d.excluded md5 pair = false) (time : Int)
    (responses : Nat → Except Exc String) (before after : List Event) (discovery : Bool) (dynamicConfig : Option Json) :
    (step parse
        (final (step parse) {} (before ++ .scrapeMetrics (d.getEndpointInfo md5 time) responses :: after))
        (.health discovery dynamicConfig)).1 =
      .response ⟨503, [("status", .str (if discovery then "Engine stats scraper is down."
        else "Service discovery module is down."))]⟩ := by
  obtain ⟨e, he⟩ := getEndpointInfo_short_labels hlabels hne hi hshort hkept time
  have hdead : ((step parse (final (step parse) {} before) (.scrapeMetrics (.error e) responses)).2).alive = false := by
    rw [step]
    split
    next hoff => simpa using hoff
    · rfl
  rw [← health_down discovery dynamicConfig, he, final_append, final_cons, final_dead parse hdead]
  exact congrArg (fun alive => Answer.response (health discovery alive dynamicConfig)) hdead

end StaticLabels

def oneLabel : StaticServiceDiscovery String where
  urls := ["http://prefill:8000", "http://decode:8000"]
  models := ["llama", "llama"]
  same_length := rfl
  modelLabels := some ["prefill"]
  modelTypes := none
  enginesId := ["0", "1"]
  ids_length := rfl
  ids_nodup := by decide
  addedTimestamp := 0
  prefillModelLabels := none
  decodeModelLabels := none

/-- The labels are completed before the second round, and the check is still not passed. -/
theorem health_is_down_after_oneLabel :
    (step (fun _ => .ok ([] : List (List (Sample ℚ)))) (final (step (fun _ => .ok [])) {}
        [.scrapeMetrics (oneLabel.getEndpointInfo id 0) (fun _ => .ok ""), .scrapeMetrics (.ok []) (fun _ => .ok "")])
        (.health true none)).1 = .response ⟨503, [("status", .str "Engine stats scraper is down.")]⟩ :=
  health_is_down_after_short_labels (fun _ => .ok []) id oneLabel ["prefill"] rfl (by simp) 1
    ("http://decode:8000", "llama") rfl (by decide) rfl 0 (fun _ => .ok "") []
    [.scrapeMetrics (.ok []) (fun _ => .ok "")] true none

end ProductionStack.EngineStatsScraper
