import ProductionStack.Batch
import ProductionStack.Selection

namespace ProductionStack.Batch

section Queries

/-- A number that is written out starts with a digit, a sign or a point, and there may be blanks in front of it. -/
def numberLike (c : Char) : Bool := c.isDigit || c = '+' || c = '-' || c = '.' || c.toNat ≤ ' '.toNat

/-- What the queries leave to SQLite: the numbers that texts are taken for when they are compared with a column of integers,
and the order of rows of one time, which may be another one for each query. -/
structure Sqlite where
  number : String → Option ℚ
  number_none : ∀ text, (∀ c, text.toList.head? = some c → numberLike c = false) → number text = none
  order : Int → Option String → Selection.Sorting byCreation

/-- A text that is no number is above every integer. -/
def Sqlite.greater (db : Sqlite) (createdAt : Int) (text : String) : Bool :=
  match db.number text with
  | some x => x < createdAt
  | none => false

def listedIds (db : Sqlite) (limit : Int) (after : Option String) (table : Table) : List String :=
  selectIds db.greater (db.order limit after) limit after table

theorem mem_keys_of_mem_listedIds {db : Sqlite} {limit : Int} {after : Option String} {table : Table} {id : String}
    (h : id ∈ listedIds db limit after table) : id ∈ table.keys := by
  obtain ⟨row, hrow⟩ := mem_selectIds h
  exact List.mem_map_of_mem hrow

def IsBatchId (id : String) : Prop :=
  ∃ hex : List Char, hex.length = 6 ∧ (∀ c ∈ hex, c ∈ "0123456789abcdef".toList) ∧ id = "batch_" ++ String.ofList hex

theorem IsBatchId.head {id : String} (h : IsBatchId id) : id.toList.head? = some 'b' := by
  obtain ⟨hex, -, -, rfl⟩ := h
  rw [String.toList_append]
  rfl

theorem IsBatchId.number {id : String} (h : IsBatchId id) (db : Sqlite) : db.number id = none := by
  apply db.number_none
  intro c hc
  obtain rfl : 'b' = c := Option.some.inj (h.head.symm.trans hc)
  decide

theorem IsBatchId.listedIds {id : String} (h : IsBatchId id) (db : Sqlite) (limit : Int) (table : Table) :
    listedIds db limit (some id) table = [] := by
  have hne : id ≠ "" := by
    rintro rfl
    cases h.head
  have hrows : selectedRows db.greater (some id) table = [] := by
    rw [selectedRows, if_neg hne]
    simp [Sqlite.greater, h.number db]
  have hsort : (db.order limit (some id)).sort [] = [] := List.perm_nil.mp ((db.order limit (some id)).perm [])
  simp only [Batch.listedIds, selectIds, hrows, hsort, List.map_nil, List.take_nil, ite_self]

theorem listedIds_none {limit : Int} (h : 1 ≤ limit) (db : Sqlite) (table : Table) :
    ∃ ids : List String, ids.Perm table.keys ∧ listedIds db limit none table = ids.take limit.toNat := by
  refine ⟨_, ((db.order limit none).perm table.entries).map Prod.fst, ?_⟩
  exact if_neg (by omega)

end Queries

section Pages

structure Page where
  object : String := "list"
  data : List (List (String × Json))
  firstId : Option Json
  lastId : Option Json
  hasMore : Bool

/-- The table stays as it is. Nothing raises the FileNotFoundError that the route catches. -/
def routeListBatches (db : Sqlite) (limit : Int) (after : Option String) (table : Table) : Except Exc Page := do
  let batches ← listBatches limit ((listedIds db limit after table).map (fun id => (id, table)))
  let batchData ← batches.mapM BatchInfo.toDict
  return {
    data := batchData
    firstId := batchData.head?.bind (List.lookup "id")
    lastId := batchData.getLast?.bind (List.lookup "id")
    hasMore := batchData.length = limit }

def Page.ids (page : Page) : List String := page.data.filterMap (fun batch => (batch.lookup "id").bind Json.asStr)

/-- The pages of a client that asks for what comes after the last id of each page as long as there is more. -/
def paged (db : Sqlite) (limit : Int) (table : Table) : Nat → Option String → Option (List Page)
  | 0, _ => none
  | fuel + 1, after =>
    match routeListBatches db limit after table with
    | .error _ => none
    | .ok page =>
      if page.hasMore then (paged db limit table fuel (page.lastId.bind Json.asStr)).map (page :: ·) else some [page]

variable {limit : Int} {table : Table}

theorem toDict_id {info : BatchInfo} {fields : List (String × Json)} (h : info.toDict = .ok fields) :
    fields.lookup "id" = some (.str info.id) := by
  obtain ⟨status, -, hfields⟩ := bind_eq_ok.mp h
  cases hfields
  rfl

theorem bindLimit_ok (hlimit : 1 ≤ limit) : bindLimit limit = .ok () ↔ limit < 2 ^ 63 := by
  rw [bindLimit]
  split <;> simp <;> omega

theorem retrieveRows_data {ids : List String} (h : ∀ id ∈ ids, Readable table id) :
    ∃ infos data, retrieveRows (ids.map (fun id => (id, table))) = .ok infos ∧ infos.mapM BatchInfo.toDict = .ok data ∧
      data.map (List.lookup "id") = ids.map (fun id => some (.str id)) := by
  induction ids with
  | nil => exact ⟨[], [], rfl, rfl, rfl⟩
  | cons id ids ih =>
    obtain ⟨_, info, fields, -, hretrieve, hreads, hfields⟩ := h id List.mem_cons_self
    obtain ⟨infos, data, hinfos, hdata, hlookups⟩ := ih (fun other hother => h other (List.mem_cons_of_mem id hother))
    refine ⟨info :: infos, fields :: data, ?_, ?_, ?_⟩
    · exact bind_eq_ok.mpr ⟨info, hretrieve, bind_eq_ok.mpr ⟨infos, hinfos, rfl⟩⟩
    · rw [List.mapM_cons, hfields, hdata]
      rfl
    · rw [List.map_cons, List.map_cons, toDict_id hfields, hreads.id, hlookups]

theorem routeListBatches_ok (db : Sqlite) (hbound : bindLimit limit = .ok ()) (after : Option String)
    (hread : ∀ id ∈ table.keys, Readable table id) :
    ∃ page, routeListBatches db limit after table = .ok page ∧ page.ids = listedIds db limit after table ∧
      page.lastId.bind Json.asStr = (listedIds db limit after table).getLast? ∧
      (page.hasMore = true ↔ (listedIds db limit after table).length = limit) := by
  have hlisted : ∀ id ∈ listedIds db limit after table, Readable table id :=
    fun id hid => hread id (mem_keys_of_mem_listedIds hid)
  obtain ⟨infos, data, hinfos, hdata, hlookups⟩ := retrieveRows_data hlisted
  have hroute : routeListBatches db limit after table = .ok ⟨"list", data, data.head?.bind (List.lookup "id"),
      data.getLast?.bind (List.lookup "id"), data.length = limit⟩ :=
    bind_eq_ok.mpr ⟨infos, bind_eq_ok.mpr ⟨(), hbound, hinfos⟩, bind_eq_ok.mpr ⟨data, hdata, rfl⟩⟩
  have hlength := congrArg List.length hlookups
  rw [List.length_map, List.length_map] at hlength
  refine ⟨_, hroute, ?_, ?_, ?_⟩
  · have hids := congrArg (List.filterMap (fun id => id.bind Json.asStr)) hlookups
    rw [List.filterMap_map, List.filterMap_map] at hids
    exact hids.trans (List.filterMap_some)
  · have hlast := congrArg (fun ids => ids.getLast?.bind (fun id => id.bind Json.asStr)) hlookups
    simp only [List.getLast?_map, Option.bind_map] at hlast
    rw [Option.bind_assoc]
    exact hlast.trans (Option.bind_fun_some _)
  · rw [decide_eq_true_iff, hlength]

theorem paged_after (db : Sqlite) (hread : ∀ id ∈ table.keys, Readable table id) (hlimit : 1 ≤ limit)
    (hbound : bindLimit limit = .ok ()) {id : String} (hid : IsBatchId id) :
    ∃ page : Page, page.ids = [] ∧ ∀ fuel, paged db limit table (fuel + 1) (some id) = some [page] := by
  obtain ⟨page, hroute, hids, -, hmore⟩ := routeListBatches_ok db hbound (some id) hread
  rw [hid.listedIds] at hids hmore
  refine ⟨page, hids, fun fuel => ?_⟩
  have hlast : ¬page.hasMore = true := by
    rw [hmore, List.length_nil]
    omega
  rw [paged, hroute]
  exact if_neg hlast

theorem paged_full {db : Sqlite} {page empty : Page} {last : String} (hroute : routeListBatches db limit none table = .ok page)
    (hmore : page.hasMore = true) (hlast : page.lastId.bind Json.asStr = some last)
    (hafter : ∀ fuel, paged db limit table (fuel + 1) (some last) = some [empty]) (fuel : Nat) (pages : List Page) :
    paged db limit table fuel none = some pages ↔ 2 ≤ fuel ∧ pages = [page, empty] := by
  cases fuel with
  | zero => simp [paged]
  | succ fuel =>
    rw [paged, hroute]
    dsimp only
    rw [if_pos hmore, hlast]
    cases fuel with
    | zero => simp [paged]
    | succ fuel => simp [hafter fuel, eq_comm]

theorem paged_first (db : Sqlite) (hread : ∀ id ∈ table.keys, Readable table id) (hids : ∀ id ∈ table.keys, IsBatchId id)
    (hlimit : 1 ≤ limit) (hbound : bindLimit limit = .ok ()) :
    (∃ pages, paged db limit table 2 none = some pages) ∧
      ∀ fuel pages, paged db limit table fuel none = some pages → pages.flatMap Page.ids = listedIds db limit none table := by
  obtain ⟨page, hroute, hpage, hnext, hmore⟩ := routeListBatches_ok db hbound none hread
  by_cases hfull : page.hasMore = true
  · have hnonempty : listedIds db limit none table ≠ [] := by
      intro hnil
      have hzero := hmore.mp hfull
      rw [hnil, List.length_nil] at hzero
      omega
    obtain ⟨last, hlast⟩ := Option.isSome_iff_exists.mp (List.getLast?_isSome.mpr hnonempty)
    have hkey := mem_keys_of_mem_listedIds (List.mem_of_getLast? hlast)
    obtain ⟨empty, hempty, hafter⟩ := paged_after db hread hlimit hbound (hids last hkey)
    have hpaged := paged_full hroute hfull (hnext.trans hlast) hafter
    refine ⟨⟨[page, empty], (hpaged 2 _).mpr ⟨le_rfl, rfl⟩⟩, ?_⟩
    intro fuel pages hpages
    obtain ⟨-, rfl⟩ := (hpaged fuel pages).mp hpages
    simp [hpage, hempty]
  · have hpaged : ∀ fuel, paged db limit table (fuel + 1) none = some [page] := by
      intro fuel
      rw [paged, hroute]
      exact if_neg hfull
    refine ⟨⟨[page], hpaged 1⟩, ?_⟩
    intro fuel pages hpages
    cases fuel with
    | zero => cases hpages
    | succ fuel =>
      obtain rfl : [page] = pages := Option.some.inj ((hpaged fuel).symm.trans hpages)
      simp [hpage]

theorem paged_overflow (db : Sqlite) (hbound : bindLimit limit ≠ .ok ()) (fuel : Nat) (after : Option String) :
    paged db limit table fuel after = none := by
  cases fuel with
  | zero => rfl
  | succ fuel =>
    have hraises : routeListBatches db limit after table = .error .overflowError := by
      rw [routeListBatches, listBatches, bindLimit, if_neg (fun h => hbound (if_pos h))]
      rfl
    rw [paged, hraises]

/-- A client that follows the last ids gets every batch once exactly when the first page
has room for all of them and its size can be bound. -/
theorem paged_once_iff (db : Sqlite) (hlimit : 1 ≤ limit) (table : Table) (hids : ∀ id ∈ table.keys, IsBatchId id)
    (hread : ∀ id ∈ table.keys, Readable table id) :
    (∃ fuel pages, paged db limit table fuel none = some pages ∧ (pages.flatMap Page.ids).Perm table.keys) ↔
      (table.keys.length : Int) ≤ limit ∧ limit < 2 ^ 63 := by
  rw [← bindLimit_ok hlimit]
  by_cases hbound : bindLimit limit = .ok ()
  · obtain ⟨⟨first, hfirst⟩, hall⟩ := paged_first db hread hids hlimit hbound
    obtain ⟨ids, hperm, hlisted⟩ := listedIds_none hlimit db table
    constructor
    · rintro ⟨fuel, pages, hpages, hpaged⟩
      rw [hall fuel pages hpages, hlisted] at hpaged
      have hlength := hpaged.length_eq
      rw [List.length_take] at hlength
      exact ⟨by omega, hbound⟩
    · rintro ⟨hle, -⟩
      refine ⟨2, first, hfirst, ?_⟩
      rw [hall 2 first hfirst, hlisted, List.take_of_length_le (by rw [hperm.length_eq]; omega)]
      exact hperm
  · simp [paged_overflow db hbound, hbound]

end Pages

section TwoBatches

def sqlite : Sqlite where
  number text := if text.toList.head?.any numberLike then text.toInt?.map Int.cast else none
  number_none := by
    intro text h
    cases hhead : text.toList.head? with
    | none => rfl
    | some c => simp [h c hhead]
  order _ _ := Selection.stable byCreation

def pending (createdAt : Int) : Row := ⟨"pending", "file-1", createdAt, "/v1/completions", "5s", none, none, none⟩

def twoBatches : Table := ⟨[("batch_00000a", pending 1), ("batch_00000b", pending 2)], by decide⟩

theorem twoBatches_ids : ∀ id ∈ twoBatches.keys, IsBatchId id := by
  simp only [Dict.keys, twoBatches, List.map_cons, List.map_nil, List.forall_mem_cons, List.not_mem_nil, false_implies,
    implies_true, and_true]
  exact ⟨⟨['0', '0', '0', '0', '0', 'a'], rfl, by simp, rfl⟩, ⟨['0', '0', '0', '0', '0', 'b'], rfl, by simp, rfl⟩⟩

theorem twoBatches_readable : ∀ id ∈ twoBatches.keys, Readable twoBatches id := by
  intro id hid
  obtain ⟨e, he, rfl⟩ := List.mem_map.mp hid
  have hpending : ∀ e ∈ twoBatches.entries, e.2.status = BatchStatus.pending.value := by decide
  exact readable_of_status (twoBatches.get?_of_mem he) (hpending e he)

theorem paged_once_two : ∃ fuel pages, paged sqlite 2 twoBatches fuel none = some pages ∧
    (pages.flatMap Page.ids).Perm twoBatches.keys :=
  (paged_once_iff sqlite (by decide) twoBatches twoBatches_ids twoBatches_readable).mpr (by decide)

/-- The older batch is on no page. -/
theorem paged_misses_older :
    (∀ id ∈ twoBatches.keys, IsBatchId id ∧ Readable twoBatches id) ∧
      (paged sqlite 1 twoBatches 2 none).map (fun pages => (pages.map Page.ids, pages.map Page.hasMore)) =
        some ([["batch_00000b"], []], [true, false]) := by
  refine ⟨fun id hid => ⟨twoBatches_ids id hid, twoBatches_readable id hid⟩, ?_⟩
  decide

end TwoBatches

end ProductionStack.Batch
