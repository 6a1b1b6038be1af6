-- SUMMARY: The rows of `refresh_tokens`: an exchange consumes a token and adds its one child, and every sequence of requests leaves them in order.
import DealScreening.Auth.Effects
import Mathlib.Data.List.Pairwise

/-!
# Refresh-token rows

A login adds a token without a parent; a refresh consumes a token and adds its
child. Run one after the other, requests leave each token with at most one child
and each session with at most one token that is not consumed.
-/

namespace Auth

open Session

/-- Two tokens made from the same parent. -/
def Siblings (r r' : RefreshToken) : Prop :=
  r.parentTokenId ≠ none ∧ r.parentTokenId = r'.parentTokenId

/-- Two tokens of one session that can both still be exchanged. -/
def BothLive (r r' : RefreshToken) : Prop :=
  r.sessionId = r'.sessionId ∧ r.consumedAt = none ∧ r'.consumedAt = none

/-- The rows between requests: keys are unique, a parent exists and is consumed and
    has one child, and a session has one unconsumed token at most. -/
structure TokensOk (rows : List RefreshToken) : Prop where
  ids : rows.Pairwise fun r r' => r.tokenId ≠ r'.tokenId
  hashes : rows.Pairwise fun r r' => r.tokenHash ≠ r'.tokenHash
  parents : ∀ r ∈ rows, ∀ p, r.parentTokenId = some p → ∃ q ∈ rows, q.tokenId = p
  consumedParents : ∀ r ∈ rows, ∀ q ∈ rows, r.parentTokenId = some q.tokenId → q.consumedAt ≠ none
  oneChild : rows.Pairwise fun r r' => ¬ Siblings r r'
  oneLive : rows.Pairwise fun r r' => ¬ BothLive r r'

/-- What the `UPDATE` of an exchange makes of a row. -/
def consume (tokenId : String) (consumedAt : Time) (ipAddress : Option String) (r : RefreshToken) :
    RefreshToken :=
  if r.tokenId = tokenId then consumed consumedAt ipAddress r else r

section
variable {tokenId : String} {consumedAt : Time} {ipAddress : Option String} {r : RefreshToken}

@[simp] theorem consume_tokenId : (consume tokenId consumedAt ipAddress r).tokenId = r.tokenId := by
  unfold consume
  split <;> rfl

@[simp] theorem consume_tokenHash :
    (consume tokenId consumedAt ipAddress r).tokenHash = r.tokenHash := by
  unfold consume
  split <;> rfl

@[simp] theorem consume_sessionId :
    (consume tokenId consumedAt ipAddress r).sessionId = r.sessionId := by
  unfold consume
  split <;> rfl

@[simp] theorem consume_parentTokenId :
    (consume tokenId consumedAt ipAddress r).parentTokenId = r.parentTokenId := by
  unfold consume
  split <;> rfl

theorem consume_consumedAt_eq_none :
    (consume tokenId consumedAt ipAddress r).consumedAt = none ↔
      r.tokenId ≠ tokenId ∧ r.consumedAt = none := by
  unfold consume
  split
  · rename_i h
    simp [consumed, h]
  · rename_i h
    simp [h]

end

instance : Std.Symm fun r r' : RefreshToken => ¬ BothLive r r' :=
  ⟨fun _ _ h h' => h ⟨h'.1.symm, h'.2.2, h'.2.1⟩⟩

instance : Std.Symm fun r r' : RefreshToken => r.tokenId ≠ r'.tokenId :=
  ⟨fun _ _ h => h.symm⟩

instance : Std.Symm fun r r' : RefreshToken => r.tokenHash ≠ r'.tokenHash :=
  ⟨fun _ _ h => h.symm⟩

/-- An exchange of an unconsumed token keeps the tables in order. -/
theorem TokensOk.exchange {rows : List RefreshToken} {t child : RefreshToken} {consumedAt : Time}
    {ipAddress : Option String} (h : TokensOk rows) (ht : t ∈ rows) (hlive : t.consumedAt = none)
    (hparent : child.parentTokenId = some t.tokenId) (hsession : child.sessionId = t.sessionId)
    (hfresh : ∀ r ∈ rows, r.tokenId ≠ child.tokenId ∧ r.tokenHash ≠ child.tokenHash) :
    TokensOk (rows.map (consume t.tokenId consumedAt ipAddress) ++ [child]) := by
  -- no row has the presented token as its parent, which is not consumed yet
  have hchildless : ∀ r ∈ rows, r.parentTokenId ≠ some t.tokenId := fun r hr hp =>
    h.consumedParents r hr t ht hp hlive
  have hparents : ∀ r ∈ rows, r.parentTokenId ≠ some child.tokenId := fun r hr hp => by
    obtain ⟨q, hq, hqid⟩ := h.parents r hr _ hp
    exact (hfresh q hq).1 hqid
  constructor
  · rw [List.pairwise_append, List.pairwise_map]
    refine ⟨h.ids.imp (by simp), List.pairwise_singleton _ _, ?_⟩
    simpa using fun r hr => (hfresh r hr).1
  · rw [List.pairwise_append, List.pairwise_map]
    refine ⟨h.hashes.imp (by simp), List.pairwise_singleton _ _, ?_⟩
    simpa using fun r hr => (hfresh r hr).2
  · intro r hr p hp
    simp only [List.mem_append, List.mem_map, List.mem_singleton] at hr ⊢
    rcases hr with ⟨r, hr, rfl⟩ | rfl
    · rw [consume_parentTokenId] at hp
      obtain ⟨q, hq, hqid⟩ := h.parents r hr p hp
      exact ⟨_, .inl ⟨q, hq, rfl⟩, by rw [consume_tokenId, hqid]⟩
    · rw [hparent] at hp
      cases hp
      exact ⟨_, .inl ⟨t, ht, rfl⟩, consume_tokenId⟩
  · intro r hr q hq hp
    simp only [List.mem_append, List.mem_map, List.mem_singleton] at hr hq
    rcases hr with ⟨r, hr, rfl⟩ | rfl <;> rcases hq with ⟨q, hq, rfl⟩ | rfl
    · simp only [consume_parentTokenId, consume_tokenId] at hp
      have hold := h.consumedParents r hr q hq hp
      exact fun hnone => hold (consume_consumedAt_eq_none.mp hnone).2
    · rw [consume_parentTokenId] at hp
      exact absurd hp (hparents r hr)
    · rw [hparent, consume_tokenId, Option.some.injEq] at hp
      exact fun hnone => (consume_consumedAt_eq_none.mp hnone).1 hp.symm
    · rw [hparent, Option.some.injEq] at hp
      exact absurd hp (hfresh t ht).1
  · rw [List.pairwise_append, List.pairwise_map]
    refine ⟨h.oneChild.imp ?_, List.pairwise_singleton _ _, ?_⟩
    · simp only [Siblings, consume_parentTokenId, imp_self, implies_true]
    · intro r hr c hc hsib
      simp only [List.mem_map, List.mem_singleton] at hr hc
      obtain ⟨r, hr, rfl⟩ := hr
      subst hc
      rw [Siblings, consume_parentTokenId, hparent] at hsib
      exact hchildless r hr hsib.2
  · rw [List.pairwise_append, List.pairwise_map]
    refine ⟨h.oneLive.imp ?_, List.pairwise_singleton _ _, ?_⟩
    · rintro r r' hnot ⟨hs, hr, hr'⟩
      simp only [consume_sessionId] at hs
      exact hnot ⟨hs, (consume_consumedAt_eq_none.mp hr).2, (consume_consumedAt_eq_none.mp hr').2⟩
    · rintro r hr c hc ⟨hs, hnone, -⟩
      simp only [List.mem_map, List.mem_singleton] at hr hc
      obtain ⟨r, hr, rfl⟩ := hr
      subst hc
      obtain ⟨hne, hrlive⟩ := consume_consumedAt_eq_none.mp hnone
      rw [consume_sessionId, hsession] at hs
      have hrt : r ≠ t := fun e => hne (by rw [e])
      exact h.oneLive.forall hr ht hrt ⟨hs, hrlive, hlive⟩

/-- The rows after the `UPDATE` and the `INSERT` of an exchange. -/
theorem exchange_rows {db db₁ : AuthDb} {tokenId : String} {consumedAt : Time}
    {ipAddress : Option String} {child : RefreshToken}
    (h : (db.updateRefreshToken tokenId (consumed consumedAt ipAddress)).insertRefreshToken child =
      some db₁) :
    db₁.refreshTokens = db.refreshTokens.map (consume tokenId consumedAt ipAddress) ++ [child] ∧
      ∀ r ∈ db.refreshTokens, r.tokenId ≠ child.tokenId ∧ r.tokenHash ≠ child.tokenHash := by
  obtain ⟨rfl, hfresh⟩ := AuthDb.insertRefreshToken_eq_some h
  refine ⟨rfl, fun r hr => ?_⟩
  have hmem : consume tokenId consumedAt ipAddress r ∈
      (db.updateRefreshToken tokenId (consumed consumedAt ipAddress)).refreshTokens :=
    List.mem_map_of_mem hr
  simpa using hfresh _ hmem

/-- The first token of a new session keeps the rows in order. -/
theorem TokensOk.root {rows : List RefreshToken} {root : RefreshToken} (h : TokensOk rows)
    (hparent : root.parentTokenId = none) (hsession : ∀ r ∈ rows, r.sessionId ≠ root.sessionId)
    (hfresh : ∀ r ∈ rows, r.tokenId ≠ root.tokenId ∧ r.tokenHash ≠ root.tokenHash) :
    TokensOk (rows ++ [root]) := by
  constructor
  · refine List.pairwise_append.mpr ⟨h.ids, List.pairwise_singleton _ _, ?_⟩
    simpa using fun r hr => (hfresh r hr).1
  · refine List.pairwise_append.mpr ⟨h.hashes, List.pairwise_singleton _ _, ?_⟩
    simpa using fun r hr => (hfresh r hr).2
  · intro r hr p hp
    rcases List.mem_append.mp hr with hr | hr
    · obtain ⟨q, hq, hid⟩ := h.parents r hr p hp
      exact ⟨q, List.mem_append_left _ hq, hid⟩
    · rw [List.mem_singleton.mp hr, hparent] at hp
      cases hp
  · intro r hr q hq hp
    rcases List.mem_append.mp hr with hr | hr
    · rcases List.mem_append.mp hq with hq | hq
      · exact h.consumedParents r hr q hq hp
      · obtain ⟨p, hmem, hid⟩ := h.parents r hr _ hp
        rw [List.mem_singleton.mp hq] at hid
        exact absurd hid (hfresh p hmem).1
    · rw [List.mem_singleton.mp hr, hparent] at hp
      cases hp
  · refine List.pairwise_append.mpr ⟨h.oneChild, List.pairwise_singleton _ _, ?_⟩
    rintro r _ r' hr' ⟨hne, heq⟩
    rw [List.mem_singleton.mp hr', hparent] at heq
    exact hne heq
  · refine List.pairwise_append.mpr ⟨h.oneLive, List.pairwise_singleton _ _, ?_⟩
    rintro r hr r' hr' ⟨hs, _⟩
    rw [List.mem_singleton.mp hr'] at hs
    exact hsession r hr hs

-- ---------------------------------------------------------------------------
-- Serial runs
-- ---------------------------------------------------------------------------

/-- The rows are in order, and each names a session that exists. -/
structure DbOk (db : AuthDb) : Prop where
  tokens : TokensOk db.refreshTokens
  sessions : ∀ r ∈ db.refreshTokens, ∃ session ∈ db.sessions, session.sessionId = r.sessionId

theorem dbOk_empty : DbOk AuthDb.empty where
  tokens := by constructor <;> simp [AuthDb.empty]
  sessions := by simp [AuthDb.empty]

section
variable {env : AuthEnv} {now : Time} {draw : AuthDraw} {db db' : AuthDb}

/-- Users and audit rows do not matter. -/
theorem DbOk.of_eq (h : DbOk db) (htokens : db'.refreshTokens = db.refreshTokens)
    (hsessions : db'.sessions = db.sessions) : DbOk db' := by
  constructor
  · rw [htokens]
    exact h.tokens
  · rw [htokens, hsessions]
    exact h.sessions

theorem DbOk.revoked {id reason : String} (h : DbOk db) :
    DbOk (db.updateSession id (revoked now reason)) where
  tokens := h.tokens
  sessions := fun r hr => by
    obtain ⟨session, hsession, hid⟩ := h.sessions r hr
    refine ⟨_, List.mem_map_of_mem hsession, ?_⟩
    split <;> exact hid

theorem DbOk.insertAudit {entry : AuthAuditLog} (h : DbOk db)
    (hinsert : db.insertAudit entry = some db') : DbOk db' := by
  rw [AuthDb.insertAudit_eq_some hinsert]
  exact h.of_eq rfl rfl

theorem DbOk.insertUser {user : User} (h : DbOk db) (hinsert : db.insertUser user = some db') :
    DbOk db' := by
  rw [AuthDb.insertUser_eq_some hinsert]
  exact h.of_eq rfl rfl

theorem LoginEffect.dbOk {email password : String} {ipAddress userAgent : Option String}
    {bundle : TokenBundle} (h : DbOk db)
    (heffect : LoginEffect env now draw email password ipAddress userAgent db bundle db') :
    DbOk db' := by
  obtain ⟨user, accessToken, db₁, db₂, -, -, -, hsession, htoken, -, haudit, -⟩ := heffect
  obtain ⟨rfl, hnew⟩ := AuthDb.insertSession_eq_some hsession
  obtain ⟨rfl, hfresh⟩ := AuthDb.insertRefreshToken_eq_some htoken
  refine DbOk.insertAudit ⟨?_, ?_⟩ haudit
  · refine h.tokens.root rfl (fun r hr heq => ?_) hfresh
    obtain ⟨session, hmem, hid⟩ := h.sessions r hr
    exact hnew session hmem (hid.trans heq)
  · intro r hr
    rcases List.mem_append.mp hr with hr | hr
    · obtain ⟨session, hmem, hid⟩ := h.sessions r hr
      exact ⟨session, List.mem_append_left _ hmem, hid⟩
    · rw [List.mem_singleton.mp hr]
      exact ⟨_, List.mem_append_right _ (List.mem_singleton_self _), rfl⟩

theorem RefreshEffect.dbOk {refreshToken : String} {ipAddress : Option String}
    {bundle : TokenBundle} (h : DbOk db)
    (heffect : RefreshEffect env now draw refreshToken ipAddress db bundle db') : DbOk db' := by
  obtain ⟨rt, session, user, accessToken, db₁, hrt, hsession, hlive, -, -, hinsert, -, -, haudit, -⟩ :=
    heffect
  have hsid : session.sessionId = rt.sessionId := Table.lookup_key hsession
  obtain ⟨hrows, hfresh⟩ := exchange_rows hinsert
  have hsessions : db₁.sessions = db.sessions := by
    rw [(AuthDb.insertRefreshToken_eq_some hinsert).1]
    rfl
  refine DbOk.insertAudit ⟨?_, ?_⟩ haudit
  · rw [hrows]
    exact h.tokens.exchange (Table.lookup_mem hrt) hlive rfl hsid hfresh
  · rw [hrows, hsessions]
    intro r hr
    simp only [List.mem_append, List.mem_map, List.mem_singleton] at hr
    rcases hr with ⟨r, hr, rfl⟩ | rfl
    · rw [consume_sessionId]
      exact h.sessions r hr
    · exact ⟨session, Table.lookup_mem hsession, rfl⟩

theorem LogoutEffect.dbOk {refreshToken : String} (h : DbOk db)
    (heffect : LogoutEffect env now draw refreshToken db db') : DbOk db' := by
  rcases heffect with rfl | ⟨rt, session, -, -, -, haudit⟩
  · exact h
  · exact h.revoked.insertAudit haudit

theorem RevokeEffect.dbOk {reason : String} {sessions : List AuthSession}
    {auditHexes : List String} (h : DbOk db)
    (heffect : RevokeEffect now draw reason sessions auditHexes db db') : DbOk db' := by
  induction heffect with
  | nil => exact h
  | cons hrevoked _ ih => exact ih (h.revoked.insertAudit hrevoked)

end

theorem step_dbOk {env : AuthEnv} {s : St} (a : Act) (h : DbOk s.db) : DbOk (step env s a).db := by
  cases a with
  | register =>
    refine registerRoute_commits.keeps h fun bundle db' heffect => ?_
    obtain ⟨db₁, -, hinsert, hlogin⟩ := heffect
    exact hlogin.dbOk (h.insertUser hinsert)
  | login => exact loginRoute_commits.keeps h fun _ _ heffect => heffect.dbOk h
  | refresh => exact refreshRoute_commits.keeps h fun _ _ heffect => heffect.dbOk h
  | logout => exact logoutRoute_commits.keeps h fun _ _ heffect => heffect.dbOk h
  | createUser =>
    exact createUser_commits.keeps h fun _ _ heffect => h.insertUser heffect.2
  | revokeUserSessions =>
    exact revokeUserSessions_commits.keeps h fun _ _ heffect => heffect.2.dbOk h
  | changePassword userId newPassword auditHexes draw =>
    have hdb : DbOk (s.db.updateUser userId (repassworded env s.now draw newPassword)) :=
      h.of_eq rfl rfl
    exact changePassword_commits.keeps h fun _ _ heffect => heffect.2.dbOk hdb
  | advance d => exact h

theorem run_dbOk {env : AuthEnv} {s : St} (as : List Act) (h : DbOk s.db) :
    DbOk (run env s as).db := by
  induction as generalizing s with
  | nil => exact h
  | cons a as ih => exact ih (step_dbOk a h)

end Auth
