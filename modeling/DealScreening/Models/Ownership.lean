-- SUMMARY: Which rows of the pipeline belong to a tenant, and the queries and writes that stay within them.
import DealScreening.Models.Deal

/-!
# Ownership

A deal and a config name their tenant. Every other row belongs to the tenant of the
deal or the config that it refers to.
-/

namespace DealDb

variable (db : DealDb)

/-- The tenant has a deal with this id. -/
def owns (tenantId dealId : Uuid) : Bool :=
  db.deals.any fun d => d.tenantId = tenantId ∧ d.id = dealId

/-- The tenant has a config with this id. -/
def ownsConfig (tenantId configId : Uuid) : Bool :=
  db.criteriaConfigs.any fun c => c.tenantId = tenantId ∧ c.id = configId

/-- The rows of some deals and configs. -/
def restrict (deal : Deal → Bool) (ofDeal : Uuid → Bool) (config : CriteriaConfig → Bool)
    (ofConfig : Uuid → Bool) : DealDb where
  deals := db.deals.filter deal
  extractedFields := db.extractedFields.filter fun f => ofDeal f.dealId
  dealScores := db.dealScores.filter fun s => ofDeal s.dealId
  dealDecisions := db.dealDecisions.filter fun d => ofDeal d.dealId
  dealAuditLog := db.dealAuditLog.filter fun entry => ofDeal entry.dealId
  criteriaConfigs := db.criteriaConfigs.filter config
  criteria := db.criteria.filter fun c => ofConfig c.configId

/-- The rows of a tenant. -/
def rowsOf (tenantId : Uuid) : DealDb :=
  db.restrict (fun d => d.tenantId = tenantId) (db.owns tenantId) (fun c => c.tenantId = tenantId)
    (db.ownsConfig tenantId)

/-- All other rows. -/
def rowsOfOthers (tenantId : Uuid) : DealDb :=
  db.restrict (fun d => d.tenantId ≠ tenantId) (fun id => !db.owns tenantId id)
    (fun c => c.tenantId ≠ tenantId) (fun id => !db.ownsConfig tenantId id)

/-- No two deals and no two configs share an id, and every reference leads to a row. -/
structure Sound : Prop where
  deals : db.deals.Pairwise fun d d' => d.id ≠ d'.id
  configs : db.criteriaConfigs.Pairwise fun c c' => c.id ≠ c'.id
  fields : ∀ f ∈ db.extractedFields, ∃ d ∈ db.deals, d.id = f.dealId
  scores : ∀ s ∈ db.dealScores, ∃ d ∈ db.deals, d.id = s.dealId
  decisions : ∀ decision ∈ db.dealDecisions, ∃ d ∈ db.deals, d.id = decision.dealId
  audit : ∀ entry ∈ db.dealAuditLog, ∃ d ∈ db.deals, d.id = entry.dealId
  criteria : ∀ criterion ∈ db.criteria, ∃ c ∈ db.criteriaConfigs, c.id = criterion.configId

/-- None of the deals has this id. -/
def NoDeal (id : Uuid) : Prop := ∀ d ∈ db.deals, d.id ≠ id

def NoConfig (id : Uuid) : Prop := ∀ c ∈ db.criteriaConfigs, c.id ≠ id

/-- `d'` holds the rows of the tenant in `d`, and `theirs` the other rows. -/
structure Part (tenantId : Uuid) (theirs d d' : DealDb) : Prop where
  sound : d.Sound
  others : d.rowsOfOthers tenantId = theirs
  part : d' = d.rowsOf tenantId

section
variable {tenantId id : Uuid} {theirs d d' : DealDb} {deal : Deal} {config : CriteriaConfig}

theorem owns_iff :
    d.owns tenantId id = true ↔ ∃ x ∈ d.deals, x.tenantId = tenantId ∧ x.id = id := by
  simp [owns]

theorem ownsConfig_iff :
    d.ownsConfig tenantId id = true ↔
      ∃ c ∈ d.criteriaConfigs, c.tenantId = tenantId ∧ c.id = id := by
  simp [ownsConfig]

/-- A deal is what its id and its tenant find. -/
theorem deal_of_mem (hdistinct : d.deals.Pairwise fun d d' => d.id ≠ d'.id) (hdeal : deal ∈ d.deals) :
    d.deal deal.id deal.tenantId = some deal := by
  cases hfound : d.deal deal.id deal.tenantId with
  | none =>
    have hnone := List.find?_eq_none.mp hfound deal hdeal
    simp at hnone
  | some other =>
    obtain ⟨hid, -⟩ := deal_key hfound
    have hlookup := Table.lookup_of_mem hdistinct (List.mem_of_find?_eq_some hfound)
    rw [hid, Table.lookup_of_mem hdistinct hdeal] at hlookup
    exact hlookup.symm

/-- A deal that exists and is nobody else's is the tenant's. -/
theorem Part.owns_of_mem (h : Part tenantId theirs d d') (hno : theirs.NoDeal id)
    (hmem : ∃ x ∈ d.deals, x.id = id) : d.owns tenantId id = true := by
  obtain ⟨-, rfl, rfl⟩ := h
  obtain ⟨x, hx, hid⟩ := hmem
  by_cases htenant : x.tenantId = tenantId
  · exact owns_iff.mpr ⟨x, hx, htenant, hid⟩
  · exact absurd hid (hno x (List.mem_filter.mpr ⟨hx, decide_eq_true htenant⟩))

theorem Part.ownsConfig_of_mem (h : Part tenantId theirs d d') (hno : theirs.NoConfig id)
    (hmem : ∃ c ∈ d.criteriaConfigs, c.id = id) : d.ownsConfig tenantId id = true := by
  obtain ⟨-, rfl, rfl⟩ := h
  obtain ⟨c, hc, hid⟩ := hmem
  by_cases htenant : c.tenantId = tenantId
  · exact ownsConfig_iff.mpr ⟨c, hc, htenant, hid⟩
  · exact absurd hid (hno c (List.mem_filter.mpr ⟨hc, decide_eq_true htenant⟩))

/-- No other tenant has a deal with the id of one of the tenant's. -/
theorem Part.noDeal (h : Part tenantId theirs d d') (hdeal : deal ∈ d.deals)
    (htenant : deal.tenantId = tenantId) : theirs.NoDeal deal.id := by
  obtain ⟨hsound, rfl, rfl⟩ := h
  intro x hx hid
  obtain ⟨hx, hne⟩ := List.mem_filter.mp hx
  have hfound := Table.lookup_of_mem hsound.deals hx
  rw [hid, Table.lookup_of_mem hsound.deals hdeal] at hfound
  cases hfound
  exact of_decide_eq_true hne htenant

theorem Part.noConfig (h : Part tenantId theirs d d') (hconfig : config ∈ d.criteriaConfigs)
    (htenant : config.tenantId = tenantId) : theirs.NoConfig config.id := by
  obtain ⟨hsound, rfl, rfl⟩ := h
  intro c hc hid
  obtain ⟨hc, hne⟩ := List.mem_filter.mp hc
  have hfound := Table.lookup_of_mem hsound.configs hc
  rw [hid, Table.lookup_of_mem hsound.configs hconfig] at hfound
  cases hfound
  exact of_decide_eq_true hne htenant

/-- An id of the tenant's is no other tenant's. -/
theorem Sound.owns_unique {tenantId' : Uuid} (h : d.Sound) (howns : d.owns tenantId id = true)
    (howns' : d.owns tenantId' id = true) : tenantId = tenantId' := by
  obtain ⟨x, hx, rfl, hid⟩ := owns_iff.mp howns
  obtain ⟨y, hy, rfl, hid'⟩ := owns_iff.mp howns'
  have hfound := Table.lookup_of_mem h.deals hx
  rw [hid, ← hid', Table.lookup_of_mem h.deals hy] at hfound
  cases hfound
  rfl

theorem Sound.ownsConfig_unique {tenantId' : Uuid} (h : d.Sound)
    (howns : d.ownsConfig tenantId id = true) (howns' : d.ownsConfig tenantId' id = true) :
    tenantId = tenantId' := by
  obtain ⟨c, hc, rfl, hid⟩ := ownsConfig_iff.mp howns
  obtain ⟨c', hc', rfl, hid'⟩ := ownsConfig_iff.mp howns'
  have hfound := Table.lookup_of_mem h.configs hc
  rw [hid, ← hid', Table.lookup_of_mem h.configs hc'] at hfound
  cases hfound
  rfl

/-- What is left of the rows of others without one more tenant. -/
theorem filter_filter_apart {α : Type} {xs : List α} {p q : α → Bool}
    (h : ∀ x ∈ xs, p x = true → q x = true) : (xs.filter q).filter p = xs.filter p := by
  rw [List.filter_filter]
  refine List.filter_congr fun x hx => ?_
  by_cases hp : p x = true
  · rw [hp, h x hx hp]
    rfl
  · simp [hp]

/-- The rows of a tenant are among those that are not another's. -/
theorem Sound.rowsOf_rowsOfOthers {tenantId' : Uuid} (h : d.Sound) (hne : tenantId ≠ tenantId') :
    (d.rowsOfOthers tenantId').rowsOf tenantId = d.rowsOf tenantId := by
  have hdeals : (d.deals.filter fun x => x.tenantId ≠ tenantId').filter (fun x => x.tenantId = tenantId) =
      d.deals.filter fun x => x.tenantId = tenantId :=
    filter_filter_apart fun x _ hx => decide_eq_true ((of_decide_eq_true hx).trans_ne hne)
  have hconfigs : (d.criteriaConfigs.filter fun c => c.tenantId ≠ tenantId').filter
      (fun c => c.tenantId = tenantId) = d.criteriaConfigs.filter fun c => c.tenantId = tenantId :=
    filter_filter_apart fun c _ hc => decide_eq_true ((of_decide_eq_true hc).trans_ne hne)
  have howns : (d.rowsOfOthers tenantId').owns tenantId = d.owns tenantId := by
    funext id
    refine Bool.eq_iff_iff.mpr ?_
    rw [owns_iff, owns_iff]
    constructor
    · rintro ⟨x, hx, hmine⟩
      exact ⟨x, (List.mem_filter.mp hx).1, hmine⟩
    · rintro ⟨x, hx, rfl, rfl⟩
      exact ⟨x, List.mem_filter.mpr ⟨hx, decide_eq_true hne⟩, rfl, rfl⟩
  have hownsConfig : (d.rowsOfOthers tenantId').ownsConfig tenantId = d.ownsConfig tenantId := by
    funext id
    refine Bool.eq_iff_iff.mpr ?_
    rw [ownsConfig_iff, ownsConfig_iff]
    constructor
    · rintro ⟨c, hc, hmine⟩
      exact ⟨c, (List.mem_filter.mp hc).1, hmine⟩
    · rintro ⟨c, hc, rfl, rfl⟩
      exact ⟨c, List.mem_filter.mpr ⟨hc, decide_eq_true hne⟩, rfl, rfl⟩
  have hdeal : ∀ {id}, d.owns tenantId id = true → (!d.owns tenantId' id) = true := by
    intro id hid
    rw [Bool.not_eq_true', Bool.eq_false_iff]
    exact fun hother => hne (h.owns_unique hid hother)
  have hconfig : ∀ {id}, d.ownsConfig tenantId id = true → (!d.ownsConfig tenantId' id) = true := by
    intro id hid
    rw [Bool.not_eq_true', Bool.eq_false_iff]
    exact fun hother => hne (h.ownsConfig_unique hid hother)
  rw [rowsOf, howns, hownsConfig]
  unfold rowsOf rowsOfOthers restrict
  rw [mk.injEq]
  exact ⟨hdeals, filter_filter_apart fun _ _ => hdeal, filter_filter_apart fun _ _ => hdeal,
    filter_filter_apart fun _ _ => hdeal, filter_filter_apart fun _ _ => hdeal, hconfigs,
    filter_filter_apart fun _ _ => hconfig⟩

-- ---------------------------------------------------------------------------
-- Queries
-- ---------------------------------------------------------------------------

theorem deal_rowsOf : (d.rowsOf tenantId).deal id tenantId = d.deal id tenantId := by
  simp only [DealDb.deal, rowsOf, restrict, List.find?_filter]
  refine congrArg (fun p => List.find? p d.deals) (funext fun x => ?_)
  by_cases h : x.tenantId = tenantId <;> simp [h]

theorem dealByHash_rowsOf {contentHash : String} :
    (d.rowsOf tenantId).dealByHash tenantId contentHash = d.dealByHash tenantId contentHash := by
  simp only [dealByHash, rowsOf, restrict, List.find?_filter]
  refine congrArg (fun p => List.find? p d.deals) (funext fun x => ?_)
  by_cases h : x.tenantId = tenantId <;> simp [h]

theorem dealIds_rowsOf {status : DealStatus} :
    (d.rowsOf tenantId).dealIds tenantId status = d.dealIds tenantId status := by
  simp only [dealIds, rowsOf, restrict, List.filter_filter]
  refine congrArg (fun p => (List.filter p d.deals).map Deal.id) (funext fun x => ?_)
  by_cases h : x.tenantId = tenantId <;> simp [h]

theorem configsOf_rowsOf : (d.rowsOf tenantId).configsOf tenantId = d.configsOf tenantId := by
  simp [configsOf, rowsOf, restrict, List.filter_filter]

theorem activeConfig_rowsOf :
    (d.rowsOf tenantId).activeConfig tenantId = d.activeConfig tenantId := by
  simp only [activeConfig, configsOf_rowsOf]

theorem activeConfig_mem (h : d.activeConfig tenantId = some config) :
    config ∈ d.criteriaConfigs ∧ config.tenantId = tenantId := by
  have hmem := (List.mem_filter.mp (Table.latest_mem h)).1
  obtain ⟨hmem, htenant⟩ := List.mem_filter.mp hmem
  exact ⟨hmem, of_decide_eq_true htenant⟩

/-- A filter for a key that another filter lets pass. -/
theorem filter_key {α : Type} {xs : List α} {k : α → Uuid} {p : Uuid → Bool}
    (h : ∀ x ∈ xs, k x = id → p id = true) :
    (xs.filter fun x => p (k x)).filter (fun x => k x = id) =
      xs.filter fun x => k x = id := by
  rw [List.filter_filter]
  refine List.filter_congr fun x hmem => ?_
  by_cases hx : k x = id
  · simp [hx, h x hmem hx]
  · simp [hx]

theorem Part.fieldsOf (h : Part tenantId theirs d d') (hno : theirs.NoDeal id) :
    d'.fieldsOf id = d.fieldsOf id := by
  rw [h.part]
  refine filter_key (k := ExtractedField.dealId) fun f hf hid => h.owns_of_mem hno ?_
  exact hid ▸ h.sound.fields f hf

theorem Part.scoresOf (h : Part tenantId theirs d d') (hno : theirs.NoDeal id) :
    d'.scoresOf id = d.scoresOf id := by
  rw [h.part]
  refine filter_key (k := DealScore.dealId) fun s hs hid => h.owns_of_mem hno ?_
  exact hid ▸ h.sound.scores s hs

theorem Part.decisionsOf (h : Part tenantId theirs d d') (hno : theirs.NoDeal id) :
    d'.decisionsOf id = d.decisionsOf id := by
  rw [h.part]
  refine filter_key (k := DealDecision.dealId) fun decision hd hid => h.owns_of_mem hno ?_
  exact hid ▸ h.sound.decisions decision hd

theorem Part.criteriaOf (h : Part tenantId theirs d d') (hno : theirs.NoConfig id) :
    d'.criteriaOf id = d.criteriaOf id := by
  rw [h.part]
  refine filter_key (k := Criterion.configId) fun c hc hid => h.ownsConfig_of_mem hno ?_
  exact hid ▸ h.sound.criteria c hc

/-- A search that no dropped row meets. -/
theorem find?_filter_of_dropped {α : Type} {rows : List α} {p q : α → Bool}
    (h : ∀ r ∈ rows.filter fun r => !p r, q r = false) :
    (rows.filter p).find? q = rows.find? q := by
  induction rows with
  | nil => rfl
  | cons r rows ih =>
    have hrows := ih fun r' hr' => h r' <| List.mem_filter.mpr
      ⟨List.mem_cons_of_mem r (List.mem_filter.mp hr').1, (List.mem_filter.mp hr').2⟩
    by_cases hp : p r = true
    · rw [List.filter_cons_of_pos hp, List.find?_cons, List.find?_cons, hrows]
    · have hq : q r = false := h r (by simp [hp])
      rw [List.filter_cons_of_neg hp, hrows, List.find?_cons_of_neg (by simp [hq])]

theorem lookup_filter {α K : Type} [DecidableEq K] {rows : List α} {key : α → K} {k : K}
    {p : α → Bool} (h : ∀ r ∈ rows.filter fun r => !p r, key r ≠ k) :
    Table.lookup key (rows.filter p) k = Table.lookup key rows k :=
  find?_filter_of_dropped fun r hr => decide_eq_false (h r hr)

theorem Part.dealById (h : Part tenantId theirs d d') (hno : theirs.NoDeal id) :
    d'.dealById id = d.dealById id := by
  obtain ⟨-, rfl, rfl⟩ := h
  refine lookup_filter fun x hx => hno x ?_
  simpa [rowsOfOthers, restrict] using hx

theorem Part.configById (h : Part tenantId theirs d d') (hno : theirs.NoConfig id) :
    d'.configById id = d.configById id := by
  obtain ⟨-, rfl, rfl⟩ := h
  refine lookup_filter fun c hc => hno c ?_
  simpa [rowsOfOthers, restrict] using hc

theorem Part.scoreById (h : Part tenantId theirs d d') (hno : ∀ s ∈ theirs.dealScores, s.id ≠ id) :
    d'.scoreById id = d.scoreById id := by
  obtain ⟨-, rfl, rfl⟩ := h
  exact lookup_filter hno

theorem mem_of_dealById (h : (d.dealById id).isSome = true) : ∃ x ∈ d.deals, x.id = id := by
  obtain ⟨x, hx⟩ := Option.isSome_iff_exists.mp h
  exact ⟨x, Table.lookup_mem hx, Table.lookup_key hx⟩

theorem mem_of_configById (h : (d.configById id).isSome = true) :
    ∃ c ∈ d.criteriaConfigs, c.id = id := by
  obtain ⟨c, hc⟩ := Option.isSome_iff_exists.mp h
  exact ⟨c, Table.lookup_mem hc, Table.lookup_key hc⟩

end

-- ---------------------------------------------------------------------------
-- Writes
-- ---------------------------------------------------------------------------

/-- A write that both databases accept, which keeps them in step, or both refuse. -/
def InStep (tenantId : Uuid) (theirs d d' : DealDb) (w : DealDb → Option DealDb) : Prop :=
  (∃ e e', w d = some e ∧ w d' = some e' ∧ Part tenantId theirs e e') ∨
    (w d = none ∧ w d' = none ∧ Part tenantId theirs d d')

section
variable {tenantId id : Uuid} {theirs d d' : DealDb} {f : Deal → Deal}

/-- An insert whose condition means the same for both databases. -/
theorem Part.insert {w : DealDb → Option DealDb} {c : DealDb → Prop} [DecidablePred c]
    {ins : DealDb → DealDb} (h : Part tenantId theirs d d')
    (hw : ∀ d, w d = if c d then some (ins d) else none) (hc : c d' ↔ c d)
    (hins : c d → Part tenantId theirs (ins d) (ins d')) : InStep tenantId theirs d d' w := by
  by_cases hok : c d
  · exact .inl ⟨ins d, ins d', (hw d).trans (if_pos hok), (hw d').trans (if_pos (hc.mpr hok)),
      hins hok⟩
  · exact .inr ⟨(hw d).trans (if_neg hok), (hw d').trans (if_neg fun h => hok (hc.mp h)), h⟩

/-- A row of the tenant joins the tenant's rows of its table, and not the others. -/
theorem filter_snoc_pos {α : Type} {xs : List α} {x : α} {p : α → Bool} (h : p x = true) :
    (xs ++ [x]).filter p = xs.filter p ++ [x] := by
  simp [h]

theorem filter_snoc_neg {α : Type} {xs : List α} {x : α} {p : α → Bool} (h : p x = false) :
    (xs ++ [x]).filter p = xs.filter p := by
  simp [h]

theorem forall_mem_snoc {α : Type} {xs : List α} {x : α} {P : α → Prop} (hxs : ∀ y ∈ xs, P y)
    (hx : P x) : ∀ y ∈ xs ++ [x], P y := by
  intro y hy
  rcases List.mem_append.mp hy with hy | hy
  · exact hxs y hy
  · cases List.mem_singleton.mp hy
    exact hx

theorem Part.insertAudit {entry : DealAuditLog} (h : Part tenantId theirs d d')
    (hno : theirs.NoDeal entry.dealId) :
    InStep tenantId theirs d d' fun d => d.insertAudit entry := by
  refine h.insert (fun d => rfl) (by rw [h.dealById hno]) fun hc => ?_
  have hmem := mem_of_dealById hc
  have howns := h.owns_of_mem hno hmem
  obtain ⟨hsound, rfl, rfl⟩ := h
  refine ⟨{ hsound with audit := forall_mem_snoc hsound.audit hmem }, ?_, ?_⟩
  · exact congrArg (fun rows : List DealAuditLog =>
        { d.rowsOfOthers tenantId with dealAuditLog := rows })
      (filter_snoc_neg (p := fun r : DealAuditLog => !d.owns tenantId r.dealId) (congrArg not howns))
  · exact congrArg (fun rows : List DealAuditLog => { d.rowsOf tenantId with dealAuditLog := rows })
      (filter_snoc_pos (p := fun r : DealAuditLog => d.owns tenantId r.dealId) howns).symm

theorem Part.insertField {field : ExtractedField} (h : Part tenantId theirs d d')
    (hno : theirs.NoDeal field.dealId) :
    InStep tenantId theirs d d' fun d => d.insertField field := by
  refine h.insert (fun d => rfl) (by rw [h.dealById hno]) fun hc => ?_
  have hmem := mem_of_dealById hc
  have howns := h.owns_of_mem hno hmem
  obtain ⟨hsound, rfl, rfl⟩ := h
  refine ⟨{ hsound with fields := forall_mem_snoc hsound.fields hmem }, ?_, ?_⟩
  · exact congrArg (fun rows : List ExtractedField =>
        { d.rowsOfOthers tenantId with extractedFields := rows })
      (filter_snoc_neg (p := fun r : ExtractedField => !d.owns tenantId r.dealId) (congrArg not howns))
  · exact congrArg (fun rows : List ExtractedField => { d.rowsOf tenantId with extractedFields := rows })
      (filter_snoc_pos (p := fun r : ExtractedField => d.owns tenantId r.dealId) howns).symm

/-- A score under an id that no other tenant uses. -/
theorem Part.insertScore {score : DealScore} (h : Part tenantId theirs d d')
    (hno : theirs.NoDeal score.dealId) (hconfig : theirs.NoConfig score.criteriaConfigId)
    (hfresh : ∀ s ∈ theirs.dealScores, s.id ≠ score.id) :
    InStep tenantId theirs d d' fun d => d.insertScore score := by
  refine h.insert (fun d => rfl)
    (by rw [h.dealById hno, h.configById hconfig, h.scoreById hfresh]) fun hc => ?_
  have hmem := mem_of_dealById hc.2.1
  have howns := h.owns_of_mem hno hmem
  obtain ⟨hsound, rfl, rfl⟩ := h
  refine ⟨{ hsound with scores := forall_mem_snoc hsound.scores hmem }, ?_, ?_⟩
  · exact congrArg (fun rows : List DealScore => { d.rowsOfOthers tenantId with dealScores := rows })
      (filter_snoc_neg (p := fun r : DealScore => !d.owns tenantId r.dealId) (congrArg not howns))
  · exact congrArg (fun rows : List DealScore => { d.rowsOf tenantId with dealScores := rows })
      (filter_snoc_pos (p := fun r : DealScore => d.owns tenantId r.dealId) howns).symm

/-- A decision on a score of its deal, or on none. -/
theorem Part.insertDecision {decision : DealDecision} (h : Part tenantId theirs d d')
    (hno : theirs.NoDeal decision.dealId)
    (hscore : ∀ id, decision.scoreId = some id → ∃ s ∈ d.scoresOf decision.dealId, s.id = id) :
    InStep tenantId theirs d d' fun d => d.insertDecision decision := by
  have hfound : ∀ e : DealDb, e.scoresOf decision.dealId = d.scoresOf decision.dealId →
      decision.scoreId.all (fun id => (e.scoreById id).isSome) = true := by
    intro e hsame
    cases hid : decision.scoreId with
    | none => rfl
    | some id =>
      obtain ⟨s, hs, rfl⟩ := hscore id hid
      rw [← hsame] at hs
      obtain ⟨s', hs'⟩ := Table.lookup_isSome_of_mem DealScore.id (List.mem_filter.mp hs).1
      exact Option.isSome_of_mem hs'
  refine h.insert (fun d => rfl)
    (by rw [h.dealById hno, hfound d rfl, hfound d' (h.scoresOf hno)]) fun hc => ?_
  have hmem := mem_of_dealById hc.1
  have howns := h.owns_of_mem hno hmem
  obtain ⟨hsound, rfl, rfl⟩ := h
  refine ⟨{ hsound with decisions := forall_mem_snoc hsound.decisions hmem }, ?_, ?_⟩
  · exact congrArg (fun rows : List DealDecision =>
        { d.rowsOfOthers tenantId with dealDecisions := rows })
      (filter_snoc_neg (p := fun r : DealDecision => !d.owns tenantId r.dealId) (congrArg not howns))
  · exact congrArg (fun rows : List DealDecision => { d.rowsOf tenantId with dealDecisions := rows })
      (filter_snoc_pos (p := fun r : DealDecision => d.owns tenantId r.dealId) howns).symm

theorem Part.insertCriterion {criterion : Criterion} (h : Part tenantId theirs d d')
    (hno : theirs.NoConfig criterion.configId) :
    InStep tenantId theirs d d' fun d => d.insertCriterion criterion := by
  refine h.insert (fun d => rfl) (by rw [h.configById hno]) fun hc => ?_
  have hmem := mem_of_configById hc
  have howns := h.ownsConfig_of_mem hno hmem
  obtain ⟨hsound, rfl, rfl⟩ := h
  refine ⟨{ hsound with criteria := forall_mem_snoc hsound.criteria hmem }, ?_, ?_⟩
  · exact congrArg (fun rows : List Criterion => { d.rowsOfOthers tenantId with criteria := rows })
      (filter_snoc_neg (p := fun r : Criterion => !d.ownsConfig tenantId r.configId)
        (congrArg not howns))
  · exact congrArg (fun rows : List Criterion => { d.rowsOf tenantId with criteria := rows })
      (filter_snoc_pos (p := fun r : Criterion => d.ownsConfig tenantId r.configId) howns).symm

/-! ## Writes to deals and configs -/

section
variable {xs : List Deal} {ys : List CriteriaConfig}

/-- Every deal and every config stays, perhaps with other columns. -/
theorem Sound.retable (h : d.Sound) (hxs : xs.Pairwise fun x x' => x.id ≠ x'.id)
    (hys : ys.Pairwise fun y y' => y.id ≠ y'.id) (hdeals : ∀ x ∈ d.deals, ∃ x' ∈ xs, x'.id = x.id)
    (hconfigs : ∀ y ∈ d.criteriaConfigs, ∃ y' ∈ ys, y'.id = y.id) :
    Sound { d with deals := xs, criteriaConfigs := ys } := by
  have hdeal : ∀ {id}, (∃ x ∈ d.deals, x.id = id) → ∃ x ∈ xs, x.id = id := by
    rintro _ ⟨x, hx, rfl⟩
    exact hdeals x hx
  have hconfig : ∀ {id}, (∃ y ∈ d.criteriaConfigs, y.id = id) → ∃ y ∈ ys, y.id = id := by
    rintro _ ⟨y, hy, rfl⟩
    exact hconfigs y hy
  exact ⟨hxs, hys, fun f hf => hdeal (h.fields f hf), fun s hs => hdeal (h.scores s hs),
    fun decision hd => hdeal (h.decisions decision hd), fun entry he => hdeal (h.audit entry he),
    fun c hc => hconfig (h.criteria c hc)⟩

/-- The rows that refer to deals and configs belong to whom they did. -/
theorem Sound.restrict_retable (h : d.Sound) {p : Deal → Bool} {q u : Uuid → Bool}
    {r : CriteriaConfig → Bool} {s w : Uuid → Bool} (hq : ∀ x ∈ d.deals, q x.id = u x.id)
    (hs : ∀ y ∈ d.criteriaConfigs, s y.id = w y.id) :
    restrict { d with deals := xs, criteriaConfigs := ys } p q r s =
      { d.restrict p u r w with deals := xs.filter p, criteriaConfigs := ys.filter r } := by
  have hdeal : ∀ {id}, (∃ x ∈ d.deals, x.id = id) → q id = u id := by
    rintro _ ⟨x, hx, rfl⟩
    exact hq x hx
  have hconfig : ∀ {id}, (∃ y ∈ d.criteriaConfigs, y.id = id) → s id = w id := by
    rintro _ ⟨y, hy, rfl⟩
    exact hs y hy
  simp only [restrict, mk.injEq, true_and]
  exact ⟨List.filter_congr fun f hf => hdeal (h.fields f hf),
    List.filter_congr fun s hs => hdeal (h.scores s hs),
    List.filter_congr fun decision hd => hdeal (h.decisions decision hd),
    List.filter_congr fun entry he => hdeal (h.audit entry he),
    List.filter_congr fun c hc => hconfig (h.criteria c hc)⟩

/-- The tables of deals and configs change within the tenant's rows. -/
theorem Part.retable {e' : DealDb} (h : Part tenantId theirs d d') (xs : List Deal)
    (ys : List CriteriaConfig)
    (hsound : Sound { d with deals := xs, criteriaConfigs := ys })
    (howns : ∀ x ∈ d.deals, DealDb.owns { d with deals := xs, criteriaConfigs := ys } tenantId x.id =
      d.owns tenantId x.id)
    (hconfigs : ∀ y ∈ d.criteriaConfigs,
      DealDb.ownsConfig { d with deals := xs, criteriaConfigs := ys } tenantId y.id =
        d.ownsConfig tenantId y.id)
    (hxs : xs.filter (fun x => x.tenantId ≠ tenantId) =
      d.deals.filter fun x => x.tenantId ≠ tenantId)
    (hys : ys.filter (fun y => y.tenantId ≠ tenantId) =
      d.criteriaConfigs.filter fun y => y.tenantId ≠ tenantId)
    (he' : e' = { d' with deals := xs.filter fun x => x.tenantId = tenantId,
                          criteriaConfigs := ys.filter fun y => y.tenantId = tenantId }) :
    Part tenantId theirs { d with deals := xs, criteriaConfigs := ys } e' := by
  obtain ⟨hsound', rfl, rfl⟩ := h
  refine ⟨hsound, ?_, he'.trans (hsound'.restrict_retable howns hconfigs).symm⟩
  refine (hsound'.restrict_retable (u := fun id => !d.owns tenantId id)
    (w := fun id => !d.ownsConfig tenantId id) (fun x hx => congrArg not (howns x hx))
    fun y hy => congrArg not (hconfigs y hy)).trans ?_
  rw [hxs, hys]
  rfl

theorem owns_retable :
    owns { d with deals := xs, criteriaConfigs := ys } tenantId id =
      xs.any fun x => x.tenantId = tenantId ∧ x.id = id := rfl

theorem ownsConfig_retable :
    ownsConfig { d with deals := xs, criteriaConfigs := ys } tenantId id =
      ys.any fun y => y.tenantId = tenantId ∧ y.id = id := rfl

end

theorem Part.updateDeal (h : Part tenantId theirs d d') (hno : theirs.NoDeal id)
    (hid : ∀ x, (f x).id = x.id) (htenant : ∀ x, (f x).tenantId = x.tenantId) :
    Part tenantId theirs (d.updateDeal id f) (d'.updateDeal id f) := by
  have hsound := h.sound
  let g : Deal → Deal := fun x => if x.id = id then f x else x
  have hgid : ∀ x, (g x).id = x.id := fun x => by
    simp only [g]
    split
    · exact hid x
    · rfl
  have hgtenant : ∀ x, (g x).tenantId = x.tenantId := fun x => by
    simp only [g]
    split
    · exact htenant x
    · rfl
  have hgothers : ∀ x ∈ d.deals, x.tenantId ≠ tenantId → g x = x := by
    intro x hx hne
    rw [← h.others] at hno
    exact if_neg (hno x (List.mem_filter.mpr ⟨hx, decide_eq_true hne⟩))
  refine h.retable (d.deals.map g) d.criteriaConfigs ?_ (fun x _ => ?_) (fun _ _ => rfl)
    ?_ rfl ?_
  · refine hsound.retable ?_ hsound.configs (fun x hx => ⟨g x, List.mem_map_of_mem hx, hgid x⟩)
      fun y hy => ⟨y, hy, rfl⟩
    rw [List.pairwise_map]
    exact hsound.deals.imp fun {x x'} hne => by rwa [hgid, hgid]
  · rw [owns_retable, List.any_map]
    refine congrArg (List.any d.deals) (funext fun y => ?_)
    simp only [Function.comp, hgid, hgtenant]
  · rw [List.filter_map]
    have hcomp : (fun x : Deal => decide (x.tenantId ≠ tenantId)) ∘ g =
        fun x => decide (x.tenantId ≠ tenantId) :=
      funext fun x => by simp only [Function.comp, hgtenant]
    rw [hcomp]
    refine (List.map_congr_left fun x hx => ?_).trans (List.map_id _)
    obtain ⟨hx, hne⟩ := List.mem_filter.mp hx
    exact hgothers x hx (of_decide_eq_true hne)
  · obtain ⟨-, rfl, rfl⟩ := h
    have hcomp : (fun x : Deal => decide (x.tenantId = tenantId)) ∘ g =
        fun x => decide (x.tenantId = tenantId) :=
      funext fun x => by simp only [Function.comp, hgtenant]
    have hdeals : (d.deals.map g).filter (fun x => x.tenantId = tenantId) =
        (d.deals.filter fun x => x.tenantId = tenantId).map g := by
      rw [List.filter_map, hcomp]
    rw [hdeals]
    rfl

/-- A deal under an id that nobody uses. -/
theorem Part.insertDeal {deal : Deal} (h : Part tenantId theirs d d')
    (htenant : deal.tenantId = tenantId) (hno : theirs.NoDeal deal.id) :
    InStep tenantId theirs d d' fun d => d.insertDeal deal := by
  have hhash : d'.dealByHash deal.tenantId deal.contentHash =
      d.dealByHash deal.tenantId deal.contentHash := by
    rw [htenant, h.part]
    exact dealByHash_rowsOf
  refine h.insert (fun d => rfl) (by rw [h.dealById hno, hhash]) fun hc => ?_
  have hnew : ∀ x ∈ d.deals, x.id ≠ deal.id :=
    Table.lookup_eq_none.mp (Option.isNone_iff_eq_none.mp hc.1)
  have hsound := h.sound
  refine h.retable (d.deals ++ [deal]) d.criteriaConfigs ?_ (fun x hx => ?_)
    (fun _ _ => rfl) ?_ rfl ?_
  · refine hsound.retable ?_ hsound.configs
      (fun x hx => ⟨x, List.mem_append_left _ hx, rfl⟩) fun y hy => ⟨y, hy, rfl⟩
    refine List.pairwise_append.mpr ⟨hsound.deals, List.pairwise_singleton _ _, fun x hx y hy => ?_⟩
    cases List.mem_singleton.mp hy
    exact hnew x hx
  · rw [owns_retable, List.any_append]
    have hne : ¬ deal.id = x.id := fun heq => hnew x hx heq.symm
    simp [hne, DealDb.owns]
  · exact filter_snoc_neg (by simp [htenant])
  · obtain ⟨-, rfl, rfl⟩ := h
    rw [filter_snoc_pos (by simp [htenant])]
    rfl

/-- A config under an id that nobody uses. -/
theorem Part.insertConfig {config : CriteriaConfig} (h : Part tenantId theirs d d')
    (htenant : config.tenantId = tenantId) (hno : theirs.NoConfig config.id) :
    InStep tenantId theirs d d' fun d => d.insertConfig config := by
  have hconfigs : d'.configsOf config.tenantId = d.configsOf config.tenantId := by
    rw [htenant, h.part]
    exact configsOf_rowsOf
  refine h.insert (fun d => rfl) (by rw [h.configById hno, hconfigs]) fun hc => ?_
  have hnew : ∀ y ∈ d.criteriaConfigs, y.id ≠ config.id :=
    Table.lookup_eq_none.mp (Option.isNone_iff_eq_none.mp hc.1)
  have hsound := h.sound
  refine h.retable d.deals (d.criteriaConfigs ++ [config]) ?_ (fun _ _ => rfl)
    (fun y hy => ?_) rfl ?_ ?_
  · refine hsound.retable hsound.deals ?_ (fun x hx => ⟨x, hx, rfl⟩)
      fun y hy => ⟨y, List.mem_append_left _ hy, rfl⟩
    refine List.pairwise_append.mpr ⟨hsound.configs, List.pairwise_singleton _ _, fun x hx y hy => ?_⟩
    cases List.mem_singleton.mp hy
    exact hnew x hx
  · rw [ownsConfig_retable, List.any_append]
    have hne : ¬ config.id = y.id := fun heq => hnew y hy heq.symm
    simp [hne, DealDb.ownsConfig]
  · exact filter_snoc_neg (by simp [htenant])
  · obtain ⟨-, rfl, rfl⟩ := h
    rw [filter_snoc_pos (by simp [htenant])]
    rfl

theorem Part.deactivateConfigs (h : Part tenantId theirs d d') :
    Part tenantId theirs (d.deactivateConfigs tenantId) (d'.deactivateConfigs tenantId) := by
  have hsound := h.sound
  let g : CriteriaConfig → CriteriaConfig := fun c =>
    if c.tenantId = tenantId ∧ c.isActive then { c with isActive := false } else c
  have hgid : ∀ c, (g c).id = c.id := fun c => by
    simp only [g]
    split <;> rfl
  have hgtenant : ∀ c, (g c).tenantId = c.tenantId := fun c => by
    simp only [g]
    split <;> rfl
  refine h.retable d.deals (d.criteriaConfigs.map g) ?_ (fun _ _ => rfl) (fun c _ => ?_)
    rfl ?_ ?_
  · refine hsound.retable hsound.deals ?_ (fun x hx => ⟨x, hx, rfl⟩)
      fun c hc => ⟨g c, List.mem_map_of_mem hc, hgid c⟩
    rw [List.pairwise_map]
    exact hsound.configs.imp fun {c c'} hne => by rwa [hgid, hgid]
  · rw [ownsConfig_retable, List.any_map]
    refine congrArg (List.any d.criteriaConfigs) (funext fun c => ?_)
    simp only [Function.comp, hgid, hgtenant]
  · rw [List.filter_map]
    have hcomp : (fun c : CriteriaConfig => decide (c.tenantId ≠ tenantId)) ∘ g =
        fun c => decide (c.tenantId ≠ tenantId) :=
      funext fun c => by simp only [Function.comp, hgtenant]
    rw [hcomp]
    refine (List.map_congr_left fun c hc => ?_).trans (List.map_id _)
    have hne := of_decide_eq_true (List.mem_filter.mp hc).2
    exact if_neg fun hc => hne hc.1
  · obtain ⟨-, rfl, rfl⟩ := h
    have hcomp : (fun c : CriteriaConfig => decide (c.tenantId = tenantId)) ∘ g =
        fun c => decide (c.tenantId = tenantId) :=
      funext fun c => by simp only [Function.comp, hgtenant]
    have hconfigs : (d.criteriaConfigs.map g).filter (fun c => c.tenantId = tenantId) =
        (d.criteriaConfigs.filter fun c => c.tenantId = tenantId).map g := by
      rw [List.filter_map, hcomp]
    rw [hconfigs]
    rfl

end

end DealDb
