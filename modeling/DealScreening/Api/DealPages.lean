-- SUMMARY: Paging through the list of deals: every deal is visited once exactly when every page starts with a new value of the sort key.
import DealScreening.Api.DealCards
import DealScreening.Lib.Paging
import DealScreening.Services.ExtractionService

/-!
# Pages of deals

The pages are cut out of as many queries, and the sort column alone does not order the
deals: many share a score, and all without a score tie.
-/

namespace DealsApi

open Python Session ScoringService

/-- The answer to the query for a page. -/
def pageAnswer (order : Table.RowOrder) (tenantId : Uuid) (query : ListQuery) (db : DealDb)
    (j : Nat) : Except (Exn ServiceExn) (List DealCardSchema) :=
  (transaction (listDeals order tenantId { query with offset := j * query.limit }) db).1

/-- The pages that are read until one is empty. -/
structure Visits (orders : Nat → Table.RowOrder) (tenantId : Uuid) (query : ListQuery) (db : DealDb)
    (pages : List (List DealCardSchema)) : Prop where
  answered : ∀ j page, pages[j]? = some page → pageAnswer (orders j) tenantId query db j = .ok page
  nonempty : [] ∉ pages
  last : pageAnswer (orders pages.length) tenantId query db pages.length = .ok []

/-- The value of the sort column for the deal of a card. -/
def cardKey (db : DealDb) (query : ListQuery) (card : DealCardSchema) : Option Int :=
  if query.sortBy = "score" then maxScore db card.id else some card.createdAt

/-- The pages hold every deal of the tenant that passes the filter once, in order. -/
def EachOnce (orders : Nat → Table.RowOrder) (tenantId : Uuid) (query : ListQuery) (db : DealDb) :
    Prop :=
  ∃ pages, Visits orders tenantId query db pages ∧
    (pages.flatten.map DealCardSchema.id).Perm
      ((joinedDeals tenantId query db).map fun row => row.1.id) ∧
    pages.flatten.Pairwise fun c c' => sortLe query (cardKey db query c) (cardKey db query c')

/-- The order of the rows. -/
def rowLe (query : ListQuery) (row row' : Deal × Option Int) : Bool := sortLe query row.2 row'.2

/-- Every page starts with a new value of the sort key: as many deals as are on the pages
    before it come strictly before some deal. -/
def PagesStartAnew (tenantId : Uuid) (query : ListQuery) (db : DealDb) : Prop :=
  ∀ j, Paging.NewKeyAt (rowLe query) (joinedDeals tenantId query db) (j * query.limit)

-- ---------------------------------------------------------------------------
-- One page
-- ---------------------------------------------------------------------------

section
variable {query : ListQuery} {tenantId : Uuid} {db : DealDb} {order : Table.RowOrder}

theorem sortLe_total (a b : Option Int) : (sortLe query a b || sortLe query b a) = true := by
  cases a <;> cases b <;> simp only [sortLe, Bool.or_true, Bool.true_or]
  split <;> simp only [Bool.or_eq_true, decide_eq_true_eq] <;> omega

theorem sortLe_trans (a b c : Option Int) (h : sortLe query a b) (h' : sortLe query b c) :
    sortLe query a c := by
  cases a <;> cases b <;> cases c <;> simp only [sortLe] at h h' ⊢ <;> try contradiction
  split at h <;> simp_all only [if_true, if_false, decide_eq_true_eq] <;> omega

theorem sortLe_antisymm (a b : Option Int) (h : sortLe query a b) (h' : sortLe query b a) :
    a = b := by
  cases a <;> cases b <;> simp only [sortLe] at h h' <;> try contradiction
  · rfl
  · congr 1
    split at h <;> simp_all only [if_true, if_false, decide_eq_true_eq] <;> omega

theorem rowLe_total (row row' : Deal × Option Int) :
    (rowLe query row row' || rowLe query row' row) = true := sortLe_total ..

theorem rowLe_trans (a b c : Deal × Option Int) (h : rowLe query a b) (h' : rowLe query b c) :
    rowLe query a c := sortLe_trans _ _ _ h h'

/-- The rows as one query finds them. -/
def sortedRows (order : Table.RowOrder) (tenantId : Uuid) (query : ListQuery) (db : DealDb) :
    List (Deal × Option Int) :=
  Table.orderBy order (rowLe query) (joinedDeals tenantId query db)

theorem sortedRows_sorted : (sortedRows order tenantId query db).Pairwise fun a b => rowLe query a b :=
  Table.orderBy_sorted rowLe_total rowLe_trans

theorem sortedRows_perm : (sortedRows order tenantId query db).Perm (joinedDeals tenantId query db) :=
  Table.orderBy_perm

theorem exists_sortedRows {rows : List (Deal × Option Int)}
    (hsorted : rows.Pairwise fun a b => rowLe query a b)
    (hperm : rows.Perm (joinedDeals tenantId query db)) :
    ∃ order, sortedRows order tenantId query db = rows :=
  Table.exists_orderBy hsorted hperm.symm

/-- The card of a deal is built from queries alone. -/
theorem buildDealCard_run (order : Table.RowOrder) (db : DealDb) (deal : Deal) :
    ∃ card, buildDealCard order deal ⟨db, false, false⟩ = (.ok card, ⟨db, false, false⟩) ∧
      card.id = deal.id ∧ card.createdAt = deal.createdAt := by
  let rows := Table.orderBy order (fun f g => g.extractionRun ≤ f.extractionRun) (db.fieldsOf deal.id)
  let score := Table.latest DealScore.createdAt (db.scoresOf deal.id)
  let decision := Table.latest DealDecision.createdAt (db.decisionsOf deal.id)
  exact ⟨card deal (latestRunFields rows) score decision, rfl, rfl, rfl⟩

/-- The cards come in the order of the deals, and nothing raises. -/
theorem buildDealCards_run (order : Table.RowOrder) (db : DealDb) (deals : List Deal) :
    ∃ cards, buildDealCards order deals ⟨db, false, false⟩ = (.ok cards, ⟨db, false, false⟩) ∧
      cards.map (fun card => (card.id, card.createdAt)) = deals.map fun d => (d.id, d.createdAt) := by
  induction deals with
  | nil => exact ⟨[], rfl, rfl⟩
  | cons deal deals ih =>
    obtain ⟨card, hcard, hid, hcreated⟩ := buildDealCard_run order db deal
    obtain ⟨cards, hrun, hids⟩ := ih
    refine ⟨card :: cards, ?_, ?_⟩
    · simp only [buildDealCards, run_bind, hcard, hrun, run_pure]
    · rw [List.map_cons, List.map_cons, hids, hid, hcreated]

/-- A page shows the rows that are on it. -/
theorem pageAnswer_eq (order : Table.RowOrder) (tenantId : Uuid) (query : ListQuery) (db : DealDb)
    (j : Nat) :
    ∃ cards, pageAnswer order tenantId query db j = .ok cards ∧
      cards.map (fun card => (card.id, card.createdAt)) =
        (Paging.page (sortedRows order tenantId query db) query.limit j).map
          fun row => (row.1.id, row.1.createdAt) := by
  let deals := (Paging.page (sortedRows order tenantId query db) query.limit j).map Prod.fst
  obtain ⟨cards, hrun, hids⟩ := buildDealCards_run order db deals
  refine ⟨cards, ?_, by rw [hids, List.map_map]; rfl⟩
  have hdeals : ((sortedDeals order tenantId { query with offset := j * query.limit } db).drop
      (j * query.limit)).take query.limit = deals := by
    rw [sortedDeals, ← List.map_drop, ← List.map_take]
    rfl
  have hbody : listDeals order tenantId { query with offset := j * query.limit } ⟨db, false, false⟩ =
      (.ok cards, ⟨db, false, false⟩) := by
    simp only [listDeals, run_bind, run_select]
    rw [hdeals, hrun]
  rw [pageAnswer, transaction_ok hbody]

/-- The same of the values of the sort column. -/
theorem pageAnswer_rows (order : Table.RowOrder) (tenantId : Uuid) (query : ListQuery)
    (db : DealDb) (j : Nat) :
    ∃ cards, pageAnswer order tenantId query db j = .ok cards ∧
      cards.map DealCardSchema.id =
        (Paging.page (sortedRows order tenantId query db) query.limit j).map (fun row => row.1.id) ∧
      cards.map (cardKey db query) =
        (Paging.page (sortedRows order tenantId query db) query.limit j).map Prod.snd := by
  obtain ⟨cards, hanswer, hcards⟩ := pageAnswer_eq order tenantId query db j
  refine ⟨cards, hanswer, ?_, ?_⟩
  · have hids := congrArg (List.map Prod.fst) hcards
    rwa [List.map_map, List.map_map] at hids
  · let key : Uuid × Time → Option Int := fun shown =>
      if query.sortBy = "score" then maxScore db shown.1 else some shown.2
    have hkeys := congrArg (List.map key) hcards
    rw [List.map_map, List.map_map] at hkeys
    refine hkeys.trans (List.map_congr_left fun row hrow => ?_)
    have hmem := sortedRows_perm.subset (List.mem_of_mem_drop (List.mem_of_mem_take hrow))
    obtain ⟨deal, -, rfl⟩ := List.mem_map.mp hmem
    rfl

theorem nodup_joined (hids : db.deals.Pairwise fun d d' => d.id ≠ d'.id) :
    ((joinedDeals tenantId query db).map fun row => row.1.id).Nodup := by
  rw [joinedDeals, List.map_map]
  exact List.pairwise_map.mpr (hids.sublist List.filter_sublist)

-- ---------------------------------------------------------------------------
-- All pages
-- ---------------------------------------------------------------------------

theorem eachOnce_of_startAnew (hnew : PagesStartAnew tenantId query db)
    (orders : Nat → Table.RowOrder) : EachOnce orders tenantId query db := by
  have hlimit : 0 < query.limit := query.limit_pos
  let rows := joinedDeals tenantId query db
  let found := fun j => sortedRows (orders j) tenantId query db
  have hends : ∃ m, rows.length ≤ m * query.limit := ⟨rows.length, Nat.le_mul_of_pos_right _ hlimit⟩
  let m := Nat.find hends
  choose cards hanswer hids hkeys using fun j => pageAnswer_rows (orders j) tenantId query db j
  have hsorted : ∀ j, (found j).Pairwise fun a b => rowLe query a b := fun j => sortedRows_sorted
  have hrows : ∀ j, (found j).Perm rows := fun j => sortedRows_perm
  have hempty : ∀ j, cards j = [] ↔ rows.length ≤ j * query.limit := by
    intro j
    rw [← (hrows j).length_eq, ← Paging.page_eq_nil hlimit, ← List.map_eq_nil_iff, hids j,
      List.map_eq_nil_iff]
  refine ⟨(List.range m).map cards, ⟨?_, ?_, ?_⟩, ?_, ?_⟩
  · intro j page hpage
    rw [List.getElem?_map] at hpage
    obtain ⟨i, hi, rfl⟩ := Option.map_eq_some_iff.mp hpage
    obtain rfl : j = i := by
      obtain ⟨_, heq⟩ := List.getElem?_eq_some_iff.mp hi
      rwa [List.getElem_range] at heq
    exact hanswer j
  · intro hmem
    obtain ⟨j, hj, hnil⟩ := List.mem_map.mp hmem
    exact Nat.find_min hends (List.mem_range.mp hj) ((hempty j).mp hnil)
  · rw [List.length_map, List.length_range, hanswer m, (hempty m).mpr (Nat.find_spec hends)]
  · rw [← List.flatMap_def, List.map_flatMap]
    have hpages := Paging.flatMap_perm rowLe_trans hsorted hrows hnew (Nat.find_spec hends)
    have hshown := hpages.map fun row => row.1.id
    rw [List.map_flatMap] at hshown
    refine (List.Perm.of_eq ?_).trans hshown
    exact List.flatMap_congr fun j _ => hids j
  · have hpages : ((List.range m).flatMap fun j => Paging.page (found j) query.limit j).Pairwise
        fun a b => rowLe query a b :=
      Paging.flatMap_sorted Prod.snd (sortLe query) (fun _ _ => rfl) sortLe_antisymm hsorted hrows
    have hsame : ((List.range m).flatMap cards).map (cardKey db query) =
        ((List.range m).flatMap fun j => Paging.page (found j) query.limit j).map Prod.snd := by
      rw [List.map_flatMap, List.map_flatMap]
      exact List.flatMap_congr fun j _ => hkeys j
    have hordered : (((List.range m).flatMap fun j => Paging.page (found j) query.limit j).map
        Prod.snd).Pairwise fun k k' => sortLe query k k' :=
      List.pairwise_map.mpr hpages
    rw [← hsame] at hordered
    rw [← List.flatMap_def]
    exact List.pairwise_map.mp hordered

/-- A visited page shows the rows of that page. -/
theorem Visits.page_ids {orders : Nat → Table.RowOrder} {pages : List (List DealCardSchema)}
    (h : Visits orders tenantId query db pages) {j : Nat} {page : List DealCardSchema}
    (hpage : pages[j]? = some page) :
    page.map DealCardSchema.id =
      (Paging.page (sortedRows (orders j) tenantId query db) query.limit j).map fun row => row.1.id := by
  obtain ⟨cards, hanswer, hids, -⟩ := pageAnswer_rows (orders j) tenantId query db j
  rw [h.answered j page hpage, Except.ok.injEq] at hanswer
  rw [hanswer, hids]

/-- The pages go on while there are rows left. -/
theorem Visits.ended {orders : Nat → Table.RowOrder} {pages : List (List DealCardSchema)}
    (h : Visits orders tenantId query db pages) :
    (joinedDeals tenantId query db).length ≤ pages.length * query.limit := by
  obtain ⟨cards, hanswer, hids, -⟩ := pageAnswer_rows (orders pages.length) tenantId query db pages.length
  rw [h.last, Except.ok.injEq] at hanswer
  rw [← hanswer, List.map_nil, eq_comm, List.map_eq_nil_iff, Paging.page_eq_nil query.limit_pos] at hids
  rwa [← sortedRows_perm.length_eq]

/-- Two pages of a visit that holds every deal once have no deal in common. -/
theorem Visits.disjoint (hids : db.deals.Pairwise fun d d' => d.id ≠ d'.id)
    {pages : List (List DealCardSchema)}
    (hperm : (pages.flatten.map DealCardSchema.id).Perm
      ((joinedDeals tenantId query db).map fun row => row.1.id))
    {i : Nat} {first next : List DealCardSchema} (hfirst : pages[i]? = some first)
    (hnext : pages[i + 1]? = some next) {id : Uuid} (hmem : id ∈ first.map DealCardSchema.id) :
    id ∉ next.map DealCardSchema.id := by
  have hnodup := hperm.nodup_iff.mpr (nodup_joined hids)
  rw [List.map_flatten, List.Nodup, List.pairwise_flatten] at hnodup
  obtain ⟨hi, rfl⟩ := List.getElem?_eq_some_iff.mp hfirst
  obtain ⟨hi', rfl⟩ := List.getElem?_eq_some_iff.mp hnext
  have hdisjoint := List.pairwise_iff_getElem.mp hnodup.2 i (i + 1) (by simpa using hi)
    (by simpa using hi') (Nat.lt_succ_self i)
  rw [List.getElem_map, List.getElem_map] at hdisjoint
  exact fun hmem' => hdisjoint id hmem id hmem' rfl

theorem startAnew_of_eachOnce (hids : db.deals.Pairwise fun d d' => d.id ≠ d'.id)
    (heach : ∀ orders, EachOnce orders tenantId query db) : PagesStartAnew tenantId query db := by
  let plain : Table.RowOrder := ⟨id, fun _ => List.Perm.refl _⟩
  intro j
  cases j with
  | zero =>
    rw [Nat.zero_mul]
    have hsorted : (sortedRows plain tenantId query db).Pairwise _ := sortedRows_sorted
    exact Paging.newKeyAt_zero rowLe_total hsorted sortedRows_perm
  | succ i =>
    by_contra hp
    have hlt : (i + 1) * query.limit < (joinedDeals tenantId query db).length := by
      by_contra hge
      exact hp fun h => absurd h hge
    have hplain : (sortedRows plain tenantId query db).Pairwise _ := sortedRows_sorted
    obtain ⟨rows, a, hsorted, hperm, hmem, hmem'⟩ := Paging.exists_repeated rowLe_total rowLe_trans
      hplain sortedRows_perm query.limit_pos hp
    obtain ⟨swapped, rfl⟩ := exists_sortedRows hsorted hperm
    -- Only the query for the later page finds the tied rows the other way round.
    obtain ⟨pages, hvisits, hall, -⟩ := heach fun k => if k = i + 1 then swapped else plain
    have hmore : i + 1 < pages.length := by
      by_contra hle
      have := Nat.mul_le_mul_right query.limit (Nat.le_of_not_lt hle)
      have := hvisits.ended
      omega
    obtain ⟨first, hfirst⟩ : ∃ first, pages[i]? = some first :=
      ⟨_, List.getElem?_eq_getElem (Nat.lt_of_succ_lt hmore)⟩
    obtain ⟨next, hnext⟩ : ∃ next, pages[i + 1]? = some next :=
      ⟨_, List.getElem?_eq_getElem hmore⟩
    have hshown := hvisits.page_ids hfirst
    have hshown' := hvisits.page_ids hnext
    rw [if_neg (Nat.ne_of_lt (Nat.lt_succ_self i))] at hshown
    rw [if_pos rfl] at hshown'
    have hfirstId : a.1.id ∈ first.map DealCardSchema.id := hshown ▸ List.mem_map_of_mem hmem
    have hnextId : a.1.id ∈ next.map DealCardSchema.id := hshown' ▸ List.mem_map_of_mem hmem'
    exact Visits.disjoint hids hall hfirst hnext hfirstId hnextId

/-- Paging visits every deal once, in order, whatever the ties, exactly when no tie is across
    the edge of a page. -/
theorem eachOnce_iff (hids : db.deals.Pairwise fun d d' => d.id ≠ d'.id) :
    (∀ orders, EachOnce orders tenantId query db) ↔ PagesStartAnew tenantId query db :=
  ⟨startAnew_of_eachOnce hids, eachOnce_of_startAnew⟩

end

-- ---------------------------------------------------------------------------
-- Two deals that tie
-- ---------------------------------------------------------------------------

/-- By the time of arrival, the newest first, one deal on a page. -/
def singlePages : ListQuery := ⟨none, "created_at", "desc", 1, 0, by decide, by decide⟩

/-- Two deals that arrived at the given times. -/
def twoDeals (first second : Time) : DealDb :=
  let deal := ExtractionService.sampleDeal
  { DealDb.empty with
    deals := [{ deal with createdAt := first }, { deal with id := deal.id + 1, createdAt := second }] }

theorem eachOnce_iff_twoDeals :
    (∀ orders, EachOnce orders 2 singlePages (twoDeals 1 2)) ↔ PagesStartAnew 2 singlePages (twoDeals 1 2) :=
  eachOnce_iff (by decide)

/-- Two deals of one moment can change places between the queries. -/
theorem tied_not_eachOnce :
    ¬ ∀ (tenantId : Uuid) (query : ListQuery) (db : DealDb), (db.deals.Pairwise fun d d' => d.id ≠ d'.id) →
      ∀ orders, EachOnce orders tenantId query db := by
  intro hall
  have hnew := startAnew_of_eachOnce (by decide)
    (hall ExtractionService.sampleDeal.tenantId singlePages (twoDeals 1 1) (by decide)) 1
  obtain ⟨v, hv, hrank⟩ := hnew (by decide)
  revert v
  decide

end DealsApi
