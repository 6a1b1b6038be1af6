-- SUMMARY: The refresh tokens of a session form one chain from the login's token, of which only the last is unconsumed, and a refresh succeeds for that one alone.
import DealScreening.Auth.AuditTrail
import DealScreening.Auth.Identity
import DealScreening.Auth.Reuse
import DealScreening.Auth.TokenRows
import Mathlib.Data.List.Chain

/-!
# Token chains
-/

namespace Auth

open Session

/-- The tokens of a session, in the order in which they were issued. -/
def tokensOf (db : AuthDb) (sid : String) : List RefreshToken :=
  db.refreshTokens.filter fun r => r.sessionId = sid

/-- The first token has no parent, and the parent of every other is the one before it; all
    but the last are consumed. -/
structure TokenChain (tokens : List RefreshToken) : Prop where
  root : ∃ first rest, tokens = first :: rest ∧ first.parentTokenId = none
  linked : tokens.IsChain fun r r' => r'.parentTokenId = some r.tokenId
  consumed : ∀ r ∈ tokens.dropLast, r.consumedAt ≠ none
  live : ∀ r ∈ tokens.getLast?, r.consumedAt = none

/-- Every session has its chain. -/
def ChainsOk (db : AuthDb) : Prop :=
  ∀ session ∈ db.sessions, TokenChain (tokensOf db session.sessionId)

-- ---------------------------------------------------------------------------
-- Chains
-- ---------------------------------------------------------------------------

theorem tokenChain_root {root : RefreshToken} (hparent : root.parentTokenId = none)
    (hlive : root.consumedAt = none) : TokenChain [root] where
  root := ⟨root, [], rfl, hparent⟩
  linked := List.isChain_singleton root
  consumed := fun _ hr => nomatch hr
  live := fun _ hr => Option.some.inj hr ▸ hlive

section
variable {tokens : List RefreshToken} {t : RefreshToken}

/-- The unconsumed token is the last. -/
theorem TokenChain.unconsumed_iff (h : TokenChain tokens) (ht : t ∈ tokens) :
    t.consumedAt = none ↔ tokens.getLast? = some t := by
  constructor
  · intro hnone
    obtain ⟨first, rest, rfl, -⟩ := h.root
    have hsplit := List.dropLast_append_getLast (List.cons_ne_nil first rest)
    rw [← hsplit, List.mem_append, List.mem_singleton] at ht
    rcases ht with ht | ht
    · exact absurd hnone (h.consumed t ht)
    · rw [List.getLast?_eq_getLast_of_ne_nil (List.cons_ne_nil first rest), ht]
  · exact fun hlast => h.live t hlast

/-- An exchange of the last token adds its child to the chain. -/
theorem TokenChain.exchange {child : RefreshToken} {consumedAt : Time} {ipAddress : Option String}
    (h : TokenChain tokens) (hlast : tokens.getLast? = some t)
    (hparent : child.parentTokenId = some t.tokenId) (hlive : child.consumedAt = none) :
    TokenChain (tokens.map (consume t.tokenId consumedAt ipAddress) ++ [child]) where
  root := by
    obtain ⟨first, rest, rfl, hroot⟩ := h.root
    exact ⟨_, _, rfl, consume_parentTokenId.trans hroot⟩
  linked := by
    refine List.isChain_append.mpr ⟨?_, List.isChain_singleton child, ?_⟩
    · rw [List.isChain_map]
      simpa using h.linked
    · intro r hr c hc
      rw [List.getLast?_map, hlast] at hr
      cases hr
      cases hc
      rw [consume_tokenId, hparent]
  consumed := by
    intro r hr hnone
    rw [List.dropLast_concat, List.mem_map] at hr
    obtain ⟨r, hr, rfl⟩ := hr
    obtain ⟨hne, hnone⟩ := consume_consumedAt_eq_none.mp hnone
    rw [h.unconsumed_iff hr, hlast] at hnone
    cases hnone
    exact hne rfl
  live := by
    intro r hr
    rw [List.getLast?_concat] at hr
    exact Option.some.inj hr ▸ hlive

end

-- ---------------------------------------------------------------------------
-- Requests keep the chains
-- ---------------------------------------------------------------------------

section
variable {env : AuthEnv} {now : Time} {draw : AuthDraw} {db db' : AuthDb}

theorem chainsOk_empty : ChainsOk AuthDb.empty := fun _ hsession => nomatch hsession

/-- Users and audit rows do not matter. -/
theorem ChainsOk.of_eq (h : ChainsOk db) (htokens : db'.refreshTokens = db.refreshTokens)
    (hsessions : db'.sessions = db.sessions) : ChainsOk db' := by
  intro session hsession
  rw [tokensOf, htokens]
  exact h session (hsessions ▸ hsession)

theorem ChainsOk.insertAudit {entry : AuthAuditLog} (h : ChainsOk db)
    (hinsert : db.insertAudit entry = some db') : ChainsOk db' := by
  rw [AuthDb.insertAudit_eq_some hinsert]
  exact h.of_eq rfl rfl

theorem ChainsOk.insertUser {user : User} (h : ChainsOk db)
    (hinsert : db.insertUser user = some db') : ChainsOk db' := by
  rw [AuthDb.insertUser_eq_some hinsert]
  exact h.of_eq rfl rfl

theorem ChainsOk.revoked {id reason : String} (h : ChainsOk db) :
    ChainsOk (db.updateSession id (Auth.revoked now reason)) := by
  intro session hsession
  obtain ⟨old, hold, rfl⟩ := List.mem_map.mp hsession
  have hsame : (if old.sessionId = id then Auth.revoked now reason old else old).sessionId =
      old.sessionId := by
    split <;> rfl
  rw [hsame]
  exact h old hold

/-- A new session starts its chain. -/
theorem LoginEffect.chainsOk {email password : String} {ipAddress userAgent : Option String}
    {bundle : TokenBundle} (hok : DbOk db) (h : ChainsOk db)
    (heffect : LoginEffect env now draw email password ipAddress userAgent db bundle db') :
    ChainsOk db' := by
  obtain ⟨user, accessToken, db₁, db₂, -, -, -, hsession, htoken, -, haudit, -⟩ := heffect
  obtain ⟨rfl, hnew⟩ := AuthDb.insertSession_eq_some hsession
  obtain ⟨rfl, -⟩ := AuthDb.insertRefreshToken_eq_some htoken
  refine ChainsOk.insertAudit ?_ haudit
  intro session hmem
  unfold tokensOf
  rw [List.filter_append]
  rcases List.mem_append.mp hmem with hmem | hmem
  · -- an old session has no part in the new token
    have hother : ¬ (newSession draw user ipAddress userAgent).sessionId = session.sessionId :=
      fun heq => hnew session hmem heq.symm
    have hnone : [newRefreshToken env now draw (newSession draw user ipAddress userAgent).sessionId
        none].filter (fun r => r.sessionId = session.sessionId) = [] := by
      refine List.filter_eq_nil_iff.mpr fun r hr hmatch => ?_
      obtain rfl := List.mem_singleton.mp hr
      exact hother (of_decide_eq_true hmatch)
    rw [hnone, List.append_nil]
    exact h session hmem
  · rw [List.mem_singleton.mp hmem]
    have hnone : db.refreshTokens.filter
        (fun r => r.sessionId = (newSession draw user ipAddress userAgent).sessionId) = [] := by
      rw [List.filter_eq_nil_iff]
      intro r hr heq
      obtain ⟨old, hold, hid⟩ := hok.sessions r hr
      exact hnew old hold (hid.trans (by simpa using heq))
    rw [hnone, List.filter_cons_of_pos (by simp [newRefreshToken]), List.nil_append]
    exact tokenChain_root rfl rfl

theorem RefreshEffect.chainsOk {refreshToken : String} {ipAddress : Option String}
    {bundle : TokenBundle} (hok : DbOk db) (h : ChainsOk db)
    (heffect : RefreshEffect env now draw refreshToken ipAddress db bundle db') : ChainsOk db' := by
  obtain ⟨rt, session, user, accessToken, db₁, hrt, hsession, hlive, -, -, hinsert, -, -, haudit,
    -⟩ := heffect
  have hsid : session.sessionId = rt.sessionId := Table.lookup_key hsession
  obtain ⟨hrows, -⟩ := exchange_rows hinsert
  have hsessions : db₁.sessions = db.sessions := by
    rw [(AuthDb.insertRefreshToken_eq_some hinsert).1]
    rfl
  refine ChainsOk.insertAudit ?_ haudit
  intro other hother
  rw [hsessions] at hother
  have hmap : (db.refreshTokens.map (consume rt.tokenId now ipAddress)).filter
      (fun r => r.sessionId = other.sessionId) =
      (tokensOf db other.sessionId).map (consume rt.tokenId now ipAddress) := by
    rw [List.filter_map]
    congr 2
    funext r
    simp
  rw [tokensOf, hrows, List.filter_append, hmap]
  by_cases hsame : other.sessionId = rt.sessionId
  · have hmem : rt ∈ tokensOf db other.sessionId :=
      List.mem_filter.mpr ⟨Table.lookup_mem hrt, by simp [hsame]⟩
    rw [List.filter_cons_of_pos (by simp [newRefreshToken, hsid, hsame]), List.filter_nil]
    exact (h other hother).exchange (((h other hother).unconsumed_iff hmem).mp hlive) rfl rfl
  · -- no token of another session has the id
    have hkeep : (tokensOf db other.sessionId).map (consume rt.tokenId now ipAddress) =
        tokensOf db other.sessionId := by
      refine (List.map_congr_left fun r hr => ?_).trans (List.map_id _)
      obtain ⟨hr, hrsid⟩ := List.mem_filter.mp hr
      refine if_neg fun hid => ?_
      have heq : r = rt := by
        by_contra hne
        exact hok.tokens.ids.forall hr (Table.lookup_mem hrt) hne hid
      have hrtsid : rt.sessionId = other.sessionId := by simpa [heq] using hrsid
      exact hsame hrtsid.symm
    rw [hkeep, List.filter_cons_of_neg (by simpa [newRefreshToken, hsid] using fun heq => hsame heq.symm),
      List.filter_nil, List.append_nil]
    exact h other hother

theorem LogoutEffect.chainsOk {refreshToken : String} (h : ChainsOk db)
    (heffect : LogoutEffect env now draw refreshToken db db') : ChainsOk db' := by
  rcases heffect with rfl | ⟨rt, session, -, -, -, haudit⟩
  · exact h
  · exact h.revoked.insertAudit haudit

theorem RevokeEffect.chainsOk {reason : String} {sessions : List AuthSession}
    {auditHexes : List String} (h : ChainsOk db)
    (heffect : RevokeEffect now draw reason sessions auditHexes db db') : ChainsOk db' := by
  induction heffect with
  | nil => exact h
  | cons hrevoked _ ih => exact ih (h.revoked.insertAudit hrevoked)

end

theorem step_chainsOk {env : AuthEnv} {s : St} (a : Act) (hok : DbOk s.db) (h : ChainsOk s.db) :
    ChainsOk (step env s a).db := by
  cases a with
  | register =>
    refine registerRoute_commits.keeps h fun bundle db' heffect => ?_
    obtain ⟨db₁, -, hinsert, hlogin⟩ := heffect
    exact hlogin.chainsOk (hok.insertUser hinsert) (h.insertUser hinsert)
  | login => exact loginRoute_commits.keeps h fun _ _ heffect => heffect.chainsOk hok h
  | refresh =>
    exact refreshRoute_commits.keeps h fun _ _ heffect => heffect.chainsOk hok h
  | logout => exact logoutRoute_commits.keeps h fun _ _ heffect => heffect.chainsOk h
  | createUser =>
    exact createUser_commits.keeps h fun _ _ heffect => h.insertUser heffect.2
  | revokeUserSessions =>
    exact revokeUserSessions_commits.keeps h fun _ _ heffect => heffect.2.chainsOk h
  | changePassword userId newPassword auditHexes draw =>
    have hdb : ChainsOk (s.db.updateUser userId (repassworded env s.now draw newPassword)) :=
      h.of_eq rfl rfl
    exact changePassword_commits.keeps h fun _ _ heffect => heffect.2.chainsOk hdb
  | advance d => exact h

theorem run_chainsOk {env : AuthEnv} {s : St} (as : List Act) (hok : DbOk s.db) (h : ChainsOk s.db) :
    ChainsOk (run env s as).db := by
  induction as generalizing s with
  | nil => exact h
  | cons a as ih => exact ih (step_dbOk a hok) (step_chainsOk a hok h)

-- ---------------------------------------------------------------------------
-- Consumed tokens stay consumed
-- ---------------------------------------------------------------------------

/-- The token exists and has been consumed. -/
def ConsumedIn (db : AuthDb) (tokenId : String) : Prop :=
  ∃ row, db.tokenById tokenId = some row ∧ row.consumedAt ≠ none

/-- No token that was consumed is no longer so. -/
def KeepsConsumed (db db' : AuthDb) : Prop :=
  ∀ tokenId, ConsumedIn db tokenId → ConsumedIn db' tokenId

instance : IsPreorder AuthDb KeepsConsumed where
  refl _ _ h := h
  trans _ _ _ h h' tokenId hconsumed := h' tokenId (h tokenId hconsumed)

section
variable {env : AuthEnv} {now : Time} {draw : AuthDraw} {db db' : AuthDb}

theorem keepsConsumed_of_tokens (h : db'.refreshTokens = db.refreshTokens) :
    KeepsConsumed db db' := by
  intro tokenId hconsumed
  unfold ConsumedIn AuthDb.tokenById at hconsumed ⊢
  rw [h]
  exact hconsumed

theorem keepsConsumed_of_append {rows : List RefreshToken}
    (h : db'.refreshTokens = db.refreshTokens ++ rows) : KeepsConsumed db db' := by
  rintro tokenId ⟨row, hrow, hconsumed⟩
  refine ⟨row, ?_, hconsumed⟩
  unfold AuthDb.tokenById at hrow ⊢
  rw [h, Table.lookup_append, hrow]
  rfl

theorem LoginEffect.keepsConsumed {email password : String} {ipAddress userAgent : Option String}
    {bundle : TokenBundle}
    (h : LoginEffect env now draw email password ipAddress userAgent db bundle db') :
    KeepsConsumed db db' := by
  obtain ⟨user, accessToken, db₁, db₂, -, -, -, hsession, htoken, -, haudit, -⟩ := h
  obtain ⟨rfl, -⟩ := AuthDb.insertSession_eq_some hsession
  obtain ⟨rfl, -⟩ := AuthDb.insertRefreshToken_eq_some htoken
  rw [AuthDb.insertAudit_eq_some haudit]
  exact keepsConsumed_of_append rfl

theorem RefreshEffect.keepsConsumed {refreshToken : String} {ipAddress : Option String}
    {bundle : TokenBundle} (h : RefreshEffect env now draw refreshToken ipAddress db bundle db') :
    KeepsConsumed db db' := by
  obtain ⟨rt, session, user, accessToken, db₁, -, -, -, -, -, hinsert, -, -, haudit, -⟩ := h
  obtain ⟨hrows, -⟩ := exchange_rows hinsert
  rintro tokenId ⟨row, hrow, hconsumed⟩
  refine ⟨consume rt.tokenId now ipAddress row, ?_, fun hnone =>
    hconsumed (consume_consumedAt_eq_none.mp hnone).2⟩
  unfold AuthDb.tokenById at hrow ⊢
  rw [AuthDb.insertAudit_eq_some haudit]
  dsimp only
  rw [hrows, Table.lookup_append, Table.lookup_map fun _ => consume_tokenId, hrow]
  rfl

theorem LogoutEffect.keepsConsumed {refreshToken : String}
    (h : LogoutEffect env now draw refreshToken db db') : KeepsConsumed db db' := by
  rcases h with rfl | ⟨rt, session, -, -, -, haudit⟩
  · exact refl_of KeepsConsumed db'
  · rw [AuthDb.insertAudit_eq_some haudit]
    exact keepsConsumed_of_tokens rfl

theorem RevokeEffect.refreshTokens {reason : String} {sessions : List AuthSession}
    {auditHexes : List String} (h : RevokeEffect now draw reason sessions auditHexes db db') :
    db'.refreshTokens = db.refreshTokens := by
  induction h with
  | nil => rfl
  | cons hrevoked _ ih =>
    rw [ih, AuthDb.insertAudit_eq_some hrevoked]
    rfl

end

theorem step_keepsConsumed (env : AuthEnv) (s : St) (a : Act) :
    KeepsConsumed s.db (step env s a).db := by
  cases a with
  | register =>
    refine registerRoute_commits.preserves fun db bundle db' h => ?_
    obtain ⟨db₁, -, hinsert, hlogin⟩ := h
    have hsame : db₁.refreshTokens = db.refreshTokens := by
      rw [AuthDb.insertUser_eq_some hinsert]
    exact trans_of KeepsConsumed (keepsConsumed_of_tokens hsame) hlogin.keepsConsumed
  | login => exact loginRoute_commits.preserves fun _ _ _ h => h.keepsConsumed
  | refresh => exact refreshRoute_commits.preserves fun _ _ _ h => h.keepsConsumed
  | logout => exact logoutRoute_commits.preserves fun _ _ _ h => h.keepsConsumed
  | createUser =>
    refine createUser_commits.preserves fun _ _ _ h => ?_
    rw [AuthDb.insertUser_eq_some h.2]
    exact keepsConsumed_of_tokens rfl
  | revokeUserSessions =>
    exact revokeUserSessions_commits.preserves fun _ _ _ h =>
      keepsConsumed_of_tokens h.2.refreshTokens
  | changePassword =>
    exact changePassword_commits.preserves fun _ _ _ h =>
      keepsConsumed_of_tokens h.2.refreshTokens
  | advance d => exact refl_of KeepsConsumed s.db

theorem run_keepsConsumed (env : AuthEnv) (s : St) (as : List Act) :
    KeepsConsumed s.db (run env s as).db := by
  induction as generalizing s with
  | nil => exact refl_of KeepsConsumed s.db
  | cons a as ih => exact trans_of KeepsConsumed (step_keepsConsumed env s a) (ih (step env s a))

-- ---------------------------------------------------------------------------
-- What a refresh accepts
-- ---------------------------------------------------------------------------

/-- The token is known and the last of its session, which is not revoked, and it has not
    expired. -/
def Exchangeable (env : AuthEnv) (now : Time) (db : AuthDb) (refreshToken : String) : Prop :=
  ∃ rt session, db.tokenByHash (env.sha256 refreshToken) = some rt ∧
    db.session rt.sessionId = some session ∧
    (tokensOf db rt.sessionId).getLast? = some rt ∧ session.revokedAt = none ∧
    ¬ rt.expiresAt < now

section
variable {env : AuthEnv} {now : Time} {draw : AuthDraw} {db : AuthDb}

/-- The child of a token of the session goes in. -/
theorem insertChild (now : Time) (ipAddress : Option String) {refreshToken : String}
    {rt : RefreshToken} {session : AuthSession} (htoken : NewToken env draw db)
    (hrt : db.tokenByHash (env.sha256 refreshToken) = some rt)
    (hsession : db.session rt.sessionId = some session) :
    ∃ db₁, (db.updateRefreshToken rt.tokenId (consumed now ipAddress)).insertRefreshToken
      (newRefreshToken env now draw session.sessionId (some rt.tokenId)) = some db₁ := by
  have hid : ∀ k, (db.updateRefreshToken rt.tokenId (consumed now ipAddress)).tokenById k =
      (db.tokenById k).map (consume rt.tokenId now ipAddress) :=
    fun k => Table.lookup_map fun _ => consume_tokenId
  have hhash : ∀ k, (db.updateRefreshToken rt.tokenId (consumed now ipAddress)).tokenByHash k =
      (db.tokenByHash k).map (consume rt.tokenId now ipAddress) :=
    fun k => Table.lookup_map fun _ => consume_tokenHash
  obtain ⟨parent, hparent⟩ := Table.lookup_isSome_of_mem RefreshToken.tokenId (Table.lookup_mem hrt)
  have hparent : db.tokenById rt.tokenId = some parent := hparent
  refine ⟨_, if_pos ⟨?_, ?_, ?_, ?_⟩⟩
  · rw [hid]
    change ((db.tokenById (prefixedId "rt" draw.tokenHex)).map _).isNone
    rw [htoken.1]
    rfl
  · rw [hhash]
    change ((db.tokenByHash (generateRefreshToken env draw).2).map _).isNone
    rw [htoken.2]
    rfl
  · change (db.session session.sessionId).isSome
    rw [Table.lookup_key hsession, hsession]
    rfl
  · simp [newRefreshToken, hid, hparent]

/-- An unconsumed token of a live session is exchanged. -/
theorem refreshRoute_returns (ipAddress : Option String) {refreshToken : String}
    {rt : RefreshToken} {session : AuthSession} {user : User}
    (hkey : ∃ key, env.ring.current = some key) (hnew : NewAudit draw db)
    (htoken : NewToken env draw db) (hrt : db.tokenByHash (env.sha256 refreshToken) = some rt)
    (hsession : db.session rt.sessionId = some session)
    (huser : db.userById session.userId = some user) (hlive : rt.consumedAt = none)
    (hrevoked : session.revokedAt = none) (hexpires : ¬ rt.expiresAt < now) :
    ∃ bundle, (transaction (refreshRoute env now draw refreshToken ipAddress) db).1 =
      .ok bundle := by
  obtain ⟨key, hkey⟩ := hkey
  obtain ⟨db₁, hinsert⟩ := insertChild now ipAddress htoken hrt hsession
  obtain ⟨hrows, -⟩ := AuthDb.insertRefreshToken_eq_some hinsert
  have huser₁ : db₁.userById session.userId = some user := by
    rw [hrows]
    exact huser
  have hnew₁ : NewAudit draw db₁ := by
    rw [hrows]
    exact hnew
  obtain ⟨accessToken, hissue⟩ :
      ∃ accessToken, accessTokenFor env now user session.sessionId = some accessToken := by
    rw [accessTokenFor, createAccessToken, hkey]
    exact ⟨_, rfl⟩
  have hexchange : ∃ db₂, exchange env now draw rt session ipAddress ⟨db, false, false⟩ =
      (.ok (tokenBundle env user accessToken (generateRefreshToken env draw).1),
        ⟨db₂, false, false⟩) := by
    rw [exchange, run_bind, run_update]
    dsimp only
    rw [run_bind, run_write hinsert]
    dsimp only
    rw [run_bind, run_select]
    dsimp only
    rw [huser₁]
    dsimp only
    rw [hissue]
    dsimp only
    rw [run_bind, writeAudit_run hnew₁]
    exact ⟨_, rfl⟩
  obtain ⟨db₂, hexchange⟩ := hexchange
  have hrefresh : refresh env now draw refreshToken ipAddress ⟨db, false, false⟩ =
      exchange env now draw rt session ipAddress ⟨db, false, false⟩ := by
    simp [refresh, hrt, hsession, hlive, hrevoked, hexpires]
  have hroute : refreshRoute env now draw refreshToken ipAddress ⟨db, false, false⟩ =
      exchange env now draw rt session ipAddress ⟨db, false, false⟩ := by
    rw [refreshRoute, Session.tryCatch, hrefresh, hexchange]
  rw [transaction_ok (hroute.trans hexchange)]
  exact ⟨_, rfl⟩

theorem refreshRoute_returns_iff (ipAddress : Option String) (refreshToken : String)
    (hkey : ∃ key, env.ring.current = some key) (hnew : NewAudit draw db)
    (htoken : NewToken env draw db) (hchains : ChainsOk db) (hidentities : IdentitiesOk db) :
    (∃ bundle, (transaction (refreshRoute env now draw refreshToken ipAddress) db).1 =
      .ok bundle) ↔ Exchangeable env now db refreshToken := by
  have hlast : ∀ rt session, db.tokenByHash (env.sha256 refreshToken) = some rt →
      db.session rt.sessionId = some session →
      (rt.consumedAt = none ↔ (tokensOf db rt.sessionId).getLast? = some rt) := by
    intro rt session hrt hsession
    have hchain := hchains session (Table.lookup_mem hsession)
    rw [Table.lookup_key hsession] at hchain
    exact hchain.unconsumed_iff (List.mem_filter.mpr ⟨Table.lookup_mem hrt, by simp⟩)
  constructor
  · rintro ⟨bundle, hbundle⟩
    obtain ⟨rt, session, -, -, -, hrt, hsession, hlive, hrevoked, hexpires, -⟩ :=
      refreshRoute_commits.transaction (Prod.ext hbundle rfl)
    exact ⟨rt, session, hrt, hsession, (hlast rt session hrt hsession).mp hlive, hrevoked, hexpires⟩
  · rintro ⟨rt, session, hrt, hsession, hrtlast, hrevoked, hexpires⟩
    obtain ⟨user, huser, -⟩ := hidentities.owned _ session hsession
    exact refreshRoute_returns ipAddress hkey hnew htoken hrt hsession huser
      ((hlast rt session hrt hsession).mpr hrtlast) hrevoked hexpires

end

/-- In every run from an empty database, the tokens of every session form one chain, of
    which only the last is unconsumed; what is consumed or revoked stays so; and the next
    refresh succeeds exactly for a token that can be exchanged. -/
theorem token_chain (env : AuthEnv) (start : Time) (as : List Act)
    (hkey : ∃ key, env.ring.current = some key) :
    let s := run env ⟨AuthDb.empty, start⟩ as
    ChainsOk s.db ∧
    (∀ bs tokenId, ConsumedIn s.db tokenId → ConsumedIn (run env s bs).db tokenId) ∧
    (∀ bs sid, RevokedIn s.db sid → RevokedIn (run env s bs).db sid) ∧
    ∀ draw refreshToken ipAddress, NewAudit draw s.db → NewToken env draw s.db →
      ((∃ bundle, (transaction (refreshRoute env s.now draw refreshToken ipAddress) s.db).1 =
        .ok bundle) ↔ Exchangeable env s.now s.db refreshToken) := by
  intro s
  have hchains : ChainsOk s.db := run_chainsOk as dbOk_empty chainsOk_empty
  have hidentities : IdentitiesOk s.db :=
    (run_keepsIdentity env ⟨AuthDb.empty, start⟩ as).ok identitiesOk_empty
  exact ⟨hchains, fun bs => run_keepsConsumed env s bs, fun bs => run_keepsRevoked env s bs,
    fun draw refreshToken ipAddress hnew htoken =>
      refreshRoute_returns_iff ipAddress refreshToken hkey hnew htoken hchains hidentities⟩

/-- After a login and one exchange, the session has a chain of two tokens. -/
theorem token_chain_exchanged : ChainsOk (run toyEnv ⟨AuthDb.empty, 0⟩ exchangedOnce).db :=
  (token_chain toyEnv 0 exchangedOnce ⟨_, rfl⟩).1

end Auth
