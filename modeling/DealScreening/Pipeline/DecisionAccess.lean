-- SUMMARY: Who can decide on a deal: the ids of users as they are minted, and as the column of a decision reads them.
import DealScreening.Auth.Identity
import DealScreening.Pipeline.DecisionRace

/-!
# Access to decisions

A user id is `usr_` and hex digits, and the column of a decision's user is a UUID. No text
of a UUID has the prefix, so the row of a decision is refused whoever makes it.
-/

-- ---------------------------------------------------------------------------
-- Minted ids
-- ---------------------------------------------------------------------------

namespace Auth

open Session

/-- The ids of all users are minted by `_prefixed_id`. -/
def Minted (db : AuthDb) : Prop :=
  ∀ id ∈ db.users.map User.userId, ∃ hex, id = prefixedId "usr" hex

/-- Ids of users stay minted. -/
def KeepsMinted (db db' : AuthDb) : Prop := Minted db → Minted db'

instance : IsPreorder AuthDb KeepsMinted where
  refl _ := id
  trans _ _ _ h h' := h' ∘ h

section
variable {env : AuthEnv} {now : Time} {draw : AuthDraw} {db db' : AuthDb} {bundle : TokenBundle}
  {ipAddress userAgent : Option String}

theorem keepsMinted_of_ids (h : db'.users.map User.userId = db.users.map User.userId) :
    KeepsMinted db db' := by
  unfold KeepsMinted Minted
  rw [h]
  exact id

theorem keepsMinted_newUser {tenantId email password : String}
    (h : db.insertUser (newUser env now draw tenantId email password) = some db') :
    KeepsMinted db db' := by
  intro hminted id hid
  rw [AuthDb.insertUser_eq_some h, List.map_append, List.mem_append] at hid
  rcases hid with hid | hid
  · exact hminted id hid
  · exact ⟨draw.userHex, List.mem_singleton.mp hid⟩

theorem keepsMinted_repassworded {userId newPassword : String} :
    KeepsMinted db (db.updateUser userId (repassworded env now draw newPassword)) := by
  refine keepsMinted_of_ids ?_
  unfold AuthDb.updateUser Table.modify
  rw [List.map_map]
  refine List.map_congr_left fun user _ => ?_
  dsimp only [Function.comp]
  split <;> rfl

theorem LoginEffect.users {email password : String}
    (h : LoginEffect env now draw email password ipAddress userAgent db bundle db') :
    db'.users = db.users := by
  obtain ⟨user, accessToken, db₁, db₂, -, -, -, hsession, htoken, -, haudit, -⟩ := h
  rw [AuthDb.insertAudit_eq_some haudit, (AuthDb.insertRefreshToken_eq_some htoken).1,
    (AuthDb.insertSession_eq_some hsession).1]

theorem RefreshEffect.users {refreshToken : String}
    (h : RefreshEffect env now draw refreshToken ipAddress db bundle db') : db'.users = db.users := by
  obtain ⟨rt, session, user, accessToken, db₁, -, -, -, -, -, hinsert, -, -, haudit, -⟩ := h
  rw [AuthDb.insertAudit_eq_some haudit, (AuthDb.insertRefreshToken_eq_some hinsert).1]
  rfl

theorem LogoutEffect.users {refreshToken : String}
    (h : LogoutEffect env now draw refreshToken db db') : db'.users = db.users := by
  rcases h with rfl | ⟨rt, session, -, -, -, haudit⟩
  · rfl
  · rw [AuthDb.insertAudit_eq_some haudit]
    rfl

theorem RevokeEffect.users {reason : String} {sessions : List AuthSession} {auditHexes : List String}
    (h : RevokeEffect now draw reason sessions auditHexes db db') : db'.users = db.users := by
  induction h with
  | nil => rfl
  | cons hrevoked _ ih =>
    rw [ih, AuthDb.insertAudit_eq_some hrevoked]
    rfl

end

theorem step_keepsMinted (env : AuthEnv) (s : St) (a : Act) : KeepsMinted s.db (step env s a).db := by
  have same : ∀ {db db' : AuthDb}, db'.users = db.users → KeepsMinted db db' := fun h =>
    keepsMinted_of_ids (congrArg (List.map User.userId) h)
  cases a with
  | register =>
    refine registerRoute_commits.preserves fun db bundle db' h => ?_
    obtain ⟨db₁, -, hinsert, hlogin⟩ := h
    exact trans_of KeepsMinted (keepsMinted_newUser hinsert) (same hlogin.users)
  | login => exact loginRoute_commits.preserves fun _ _ _ h => same h.users
  | refresh => exact refreshRoute_commits.preserves fun _ _ _ h => same h.users
  | logout => exact logoutRoute_commits.preserves fun _ _ _ h => same h.users
  | createUser =>
    refine createUser_commits.preserves fun _ _ _ h => ?_
    exact keepsMinted_newUser (h.1 ▸ h.2)
  | revokeUserSessions => exact revokeUserSessions_commits.preserves fun _ _ _ h => same h.2.users
  | changePassword =>
    refine changePassword_commits.preserves fun db _ db' h => ?_
    exact trans_of KeepsMinted keepsMinted_repassworded (same h.2.users)
  | advance d => exact refl_of KeepsMinted s.db

theorem run_minted (env : AuthEnv) (start : Time) (as : List Act) :
    Minted (run env ⟨AuthDb.empty, start⟩ as).db := by
  have hrun : ∀ s, KeepsMinted s.db (run env s as).db := by
    induction as with
    | nil => exact fun s => refl_of KeepsMinted s.db
    | cons a as ih =>
      exact fun s => trans_of KeepsMinted (step_keepsMinted env s a) (ih (step env s a))
  exact hrun ⟨AuthDb.empty, start⟩ nofun

end Auth

-- ---------------------------------------------------------------------------
-- The route
-- ---------------------------------------------------------------------------

namespace DealsApi

open Python Session ScoringService Statements

/-- The column takes texts of hex digits, hyphens and braces. -/
def UuidColumn (readUuid : String → Option Uuid) : Prop :=
  ∀ s id, readUuid s = some id → ∀ c ∈ text s,
    (Json.hexValue c).isSome = true ∨ c ∈ text "-\x7b\x7d"

theorem UuidColumn.refuses_minted {readUuid : String → Option Uuid} (h : UuidColumn readUuid)
    (hex : String) : readUuid (prefixedId "usr" hex) = none := by
  cases hread : readUuid (prefixedId "usr" hex) with
  | none => rfl
  | some id =>
    have hmem : 0x75 ∈ text (prefixedId "usr" hex) := by
      have hkind : 0x75 ∈ text (toString "usr" ++ toString "_") := by decide
      rw [prefixedId, text_append]
      exact List.mem_append_left _ hkind
    rcases h _ id hread _ hmem with hdigit | hsign
    · exact absurd hdigit (by decide)
    · exact absurd hsign (by decide)

/-- `decide_deal` for the caller that `require_auth` returned. `parseUuid` is `uuid.UUID`. -/
def decideFor (parseUuid readUuid : String → Option Uuid) (now : Time) (dealId : Uuid)
    (caller : AuthContext) (body : DealDecisionRequest) : ServiceM DecisionType :=
  match parseUuid caller.tenantId with
  | none => raise (.valueError (text "badly formed hexadecimal UUID string"))
  | some tenantId => decideDeal readUuid now dealId tenantId caller.userId body

/-- A SCORED deal of the tenant gets one decision of the caller, one audit row and its status,
    and any other request changes nothing. -/
def Atomic (readUuid : String → Option Uuid) (dealId tenantId : Uuid) (caller : AuthContext)
    (body : DealDecisionRequest) (db db' : DealDb) : Prop :=
  (∀ deal, db.deal dealId tenantId = some deal → deal.status = .scored →
    ∃ decision, decision.dealId = deal.id ∧ readUuid caller.userId = some decision.userId ∧
      decision.decision = body.decision ∧ decision.notes.map PgText.val = body.notes.map text ∧
      decision.scoreId =
        (Table.latest DealScore.createdAt (db.scoresOf deal.id)).map DealScore.id ∧
      db' = db.change deal.id (decisionChange deal decision caller.userId body)) ∧
  ((∀ deal, db.deal dealId tenantId = some deal → deal.status ≠ .scored) → db' = db)

section
variable {parseUuid readUuid : String → Option Uuid} {now : Time} {dealId tenantId : Uuid}
  {caller : AuthContext} {body : DealDecisionRequest} {db : DealDb}

theorem decideFor_tenant (htenant : parseUuid caller.tenantId = some tenantId) :
    decideFor parseUuid readUuid now dealId caller body =
      decideDeal readUuid now dealId tenantId caller.userId body := by
  unfold decideFor
  rw [htenant]

/-- Without a row for the decision nothing is committed. -/
theorem decideDeal_refused (hread : readUuid caller.userId = none) :
    (transaction (decideDeal readUuid now dealId tenantId caller.userId body) db).2 = db := by
  have hrow : ∀ deal latest, flushDecision readUuid now deal caller.userId body latest = none := by
    intro deal latest
    simp [flushDecision, decisionRow, hread]
  rw [decideDeal_statements, decideAlone]
  cases loadScored db dealId tenantId with
  | none => rfl
  | some deal => simp [hrow]

/-- The row of a decision is refused for every user there is, so the request of one is atomic
    only where there is nothing to decide. -/
theorem decide_atomic_iff {env : AuthEnv} {start clock : Time} {as : List Auth.Act}
    {authorization : Authorization} {authDb : AuthDb}
    (hcaller : transaction (Auth.requireAuth env clock authorization)
      (Auth.run env ⟨AuthDb.empty, start⟩ as).db = (.ok caller, authDb))
    (hunforged : Auth.Unforged env ⟨AuthDb.empty, start⟩ as authorization)
    (htenant : parseUuid caller.tenantId = some tenantId) (hcolumn : UuidColumn readUuid) :
    Atomic readUuid dealId tenantId caller body db
        (transaction (decideFor parseUuid readUuid now dealId caller body) db).2 ↔
      ∀ deal, db.deal dealId tenantId = some deal → deal.status ≠ .scored := by
  have hbacked := Auth.requireAuth_backed hcaller hunforged
  obtain ⟨session, user, -, -, -, -, huser, -⟩ := hbacked
  have hid : user.userId = caller.userId := Table.lookup_key huser
  obtain ⟨hex, hminted⟩ := Auth.run_minted env start as caller.userId
    (List.mem_map.mpr ⟨user, Table.lookup_mem huser, hid⟩)
  have hread : readUuid caller.userId = none := hminted ▸ hcolumn.refuses_minted hex
  rw [decideFor_tenant htenant, decideDeal_refused hread]
  constructor
  · rintro ⟨hdecides, -⟩ deal hdeal hstatus
    obtain ⟨decision, -, -, -, -, -, hdb⟩ := hdecides deal hdeal hstatus
    have hlength := congrArg (fun db => db.dealDecisions.length) hdb
    simp [DealDb.change, decisionChange] at hlength
  · exact fun hnone => ⟨fun deal hdeal hstatus => absurd hstatus (hnone deal hdeal), fun _ => rfl⟩

end

-- ---------------------------------------------------------------------------
-- A user and a scored deal
-- ---------------------------------------------------------------------------

/-- The number of a text of 32 hex digits, with any hyphens and braces. -/
def uuidOfText (s : String) : Option Uuid :=
  let digits := (text s).filter fun c => c ∉ text "-\x7b\x7d"
  if digits.length = 32 then (digits.mapM Json.hexValue).map (List.foldl (fun n d => 16 * n + d) 0)
  else none

theorem uuidColumn_uuidOfText : UuidColumn uuidOfText := by
  intro s id h c hc
  unfold uuidOfText at h
  dsimp only at h
  split at h
  · obtain ⟨ds, hds, -⟩ := Option.map_eq_some_iff.mp h
    by_cases hsign : c ∈ text "-\x7b\x7d"
    · exact .inr hsign
    · refine .inl (Option.mapM_isSome_iff.mp (Option.isSome_iff_exists.mpr ⟨ds, hds⟩) c ?_)
      exact List.mem_filter.mpr ⟨hc, by simpa using hsign⟩
  · cases h

/-- A user of tenant 2, logged in. -/
def analyst : List Auth.Act :=
  [.createUser (Uuid.str 2) "ana@fund.com" "password" (Auth.toyDraw "0"),
    .login "ana@fund.com" "password" none none (Auth.toyDraw "1")]

def analystToken : AccessToken :=
  { Auth.loggedInToken with claims := { Auth.loggedInToken.claims with tnt := Uuid.str 2 } }

def analystContext : AuthContext := ⟨"usr_0", Uuid.str 2, "sess_1", []⟩

theorem analyst_admitted :
    transaction (Auth.requireAuth Auth.toyEnv 0 (.bearer analystToken))
        (Auth.run Auth.toyEnv ⟨AuthDb.empty, 0⟩ analyst).db =
      (.ok analystContext, (Auth.run Auth.toyEnv ⟨AuthDb.empty, 0⟩ analyst).db) ∧
    Auth.Unforged Auth.toyEnv ⟨AuthDb.empty, 0⟩ analyst (.bearer analystToken) ∧
    uuidOfText analystContext.tenantId = some 2 := by
  refine ⟨by decide +kernel, ?_, by decide +kernel⟩
  rintro token ⟨⟩ -
  decide +kernel

/-- The deal is only uploaded. -/
theorem decide_atomic_iff_uploaded : Atomic uuidOfText 1 2 analystContext DecisionRace.pursue
    { DealDb.empty with deals := [ExtractionService.sampleDeal] }
    (transaction (decideFor uuidOfText uuidOfText 0 1 analystContext DecisionRace.pursue)
      { DealDb.empty with deals := [ExtractionService.sampleDeal] }).2 := by
  obtain ⟨hcaller, hunforged, htenant⟩ := analyst_admitted
  refine (decide_atomic_iff hcaller hunforged htenant uuidColumn_uuidOfText).mpr ?_
  rintro deal ⟨⟩
  decide

/-- The deal is scored, and the analyst's decision is lost. -/
theorem scored_deal_undecided :
    ¬ ∀ (_ : Runtime) (settings : Pipeline.Settings) (disk : Disk) (acts : List Pipeline.Act)
        (s : Pipeline.St) (env : AuthEnv) (start clock now : Time) (as : List Auth.Act)
        (authorization : Authorization) (caller : AuthContext) (authDb : AuthDb)
        (parseUuid : String → Option Uuid) (dealId tenantId : Uuid) (body : DealDecisionRequest),
      Run.exec (Pipeline.step settings) (Pipeline.init disk) acts = some s →
      transaction (Auth.requireAuth env clock authorization)
        (Auth.run env ⟨AuthDb.empty, start⟩ as).db = (.ok caller, authDb) →
      Auth.Unforged env ⟨AuthDb.empty, start⟩ as authorization →
      parseUuid caller.tenantId = some tenantId → UuidColumn settings.readUuid →
      Atomic settings.readUuid dealId tenantId caller body s.tables
        (transaction (decideFor parseUuid settings.readUuid now dealId caller body) s.tables).2 := by
  intro h
  let _ := asciiRuntime
  have hruns : (do
      let s ← Run.exec (Pipeline.step { Pipeline.sampleSettings with readUuid := uuidOfText })
        (Pipeline.init ⟨[], []⟩) (DecisionRace.sampleExtracted ++ [.score ⟨7, 0⟩])
      let deal ← s.tables.deal 1 2
      return decide (deal.status = .scored) : Option Bool) = some true := by
    decide +kernel
  obtain ⟨s, hreach, hruns⟩ := Option.bind_eq_some_iff.mp hruns
  obtain ⟨deal, hdeal, hscored⟩ := Option.bind_eq_some_iff.mp hruns
  obtain ⟨hcaller, hunforged, htenant⟩ := analyst_admitted
  have hatomic := h asciiRuntime _ ⟨[], []⟩ _ s Auth.toyEnv 0 0 0 analyst (.bearer analystToken)
    analystContext _ uuidOfText 1 2 DecisionRace.pursue hreach hcaller hunforged htenant
    uuidColumn_uuidOfText
  obtain ⟨decision, -, hread, -⟩ :=
    hatomic.1 deal hdeal (of_decide_eq_true (Option.some.inj hscored))
  have hnone : uuidOfText analystContext.userId = none :=
    uuidColumn_uuidOfText.refuses_minted "0"
  cases hnone.symm.trans hread

end DealsApi
