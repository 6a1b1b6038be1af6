-- SUMMARY: Every change of a tenant's rows or jobs goes back to a request behind which there is a live session of one of the tenant's users.
import DealScreening.Pipeline.Isolation

/-!
# Authority

The routes take the tenant from the token, and the worker takes it from the payload of a job.
Neither looks at a user. That a change is nevertheless one of the tenant's users is an
invariant: of the accounts, for requests, and of the uploads, for jobs.
-/

namespace Tenancy

open Python Session DealDb Noninterference IngestionService UploadApi Handlers Pipeline

section
variable {d : Deployment} {tenantId dealId : Uuid} {s t : St} {a : Act} {start : Time} {disk : Disk}
  {as : List Act} {authorization : Authorization}

/-- `require_auth` lets the request pass for the tenant, and the session that it goes by is a
    live one of a user of the tenant. -/
def Authorised (d : Deployment) (s : St) (authorization : Authorization) (tenantId : Uuid) : Prop :=
  ∃ context, (transaction (Auth.requireAuth d.auth s.auth.now authorization) s.auth.db).1 = .ok context ∧
    d.parseUuid context.tenantId = some tenantId ∧ Auth.Backed s.auth.db context

/-- A token that a key of the ring has signed was given out. -/
def Genuine (d : Deployment) (s : St) (a : Act) : Prop :=
  ∀ token op, a = .request (.bearer token) op →
    token.signedBy ∈ d.auth.ring.allKeys.map SigningKey.seed → token ∈ s.issued

-- ---------------------------------------------------------------------------
-- Requests
-- ---------------------------------------------------------------------------

/-- Sessions belong to users of their tenant, and tokens name sessions of their user. -/
structure Accounts (s : St) : Prop where
  identities : Auth.IdentitiesOk s.auth.db
  tokens : ∀ token ∈ s.issued, Auth.TokenOk s.auth.db token

theorem accounts_init : Accounts (init start disk) :=
  ⟨Auth.identitiesOk_empty, fun _ h => absurd h List.not_mem_nil⟩

/-- A caller whose token is not forged is authorised. -/
theorem callerOf_authorised {op : Operation} {caller : Caller} (h : Accounts s)
    (hgenuine : Genuine d s (.request authorization op)) (hcaller : callerOf d s authorization = some caller) :
    Authorised d s authorization caller.tenantId := by
  unfold callerOf at hcaller
  split at hcaller
  · rename_i context hcontext
    obtain ⟨tenantId, hread, rfl⟩ := Option.map_eq_some_iff.mp hcaller
    obtain ⟨-, token, session, rfl, hverified, hsession, hlive, rfl⟩ :=
      Auth.requireAuth_commits.transaction (Prod.ext hcontext rfl)
    have hissued := hgenuine token op rfl (Auth.verifyAccessToken_signedBy hverified)
    obtain ⟨session', user, hsession', hsub, htnt, huser, htenant⟩ := h.tokens token hissued
    cases hsession.symm.trans hsession'
    exact ⟨_, hcontext, hread, session, user, hsession, hlive, hsub, htnt, huser, htenant⟩
  · cases hcaller

variable [ReTables]

theorem Accounts.step (h : Accounts s) (hstep : step d s a = some t) : Accounts t := by
  cases a with
  | auth a =>
    cases hstep
    have hkeeps := Auth.step_keepsIdentity d.auth s.auth a
    refine ⟨hkeeps.ok h.identities, fun token htoken => ?_⟩
    rcases List.mem_append.mp htoken with hold | hnew
    · exact hkeeps.tokenOk (h.tokens token hold)
    · obtain ⟨bundle, hbundle, rfl⟩ := List.mem_map.mp hnew
      exact Auth.response_tokenOk h.identities (Option.mem_toList.mp hbundle)
  | request authorization op =>
    rcases step_request hstep with ⟨-, rfl⟩ | ⟨caller, -, rfl⟩
    · exact h
    · exact ⟨h.identities, h.tokens⟩
  | extract jobId reply =>
    obtain ⟨job, -, rfl⟩ := step_extract hstep
    exact ⟨h.identities, h.tokens⟩
  | score job draw =>
    obtain ⟨-, rfl⟩ := step_score hstep
    exact ⟨h.identities, h.tokens⟩
  | crash job =>
    obtain ⟨-, rfl⟩ := step_crash hstep
    exact ⟨h.identities, h.tokens⟩

-- ---------------------------------------------------------------------------
-- Jobs
-- ---------------------------------------------------------------------------

/-- An authorised request of the run has uploaded the deal for the tenant. -/
def Uploaded (d : Deployment) (start : Time) (disk : Disk) (as : List Act) (dealId tenantId : Uuid) :
    Prop :=
  ∃ before authorization draw file after u,
    as = before ++ .request authorization (.upload draw file) :: after ∧
    Run.exec (step d) (init start disk) before = some u ∧
    Authorised d u authorization tenantId ∧ draw.dealId = dealId

theorem Uploaded.later (h : Uploaded d start disk as dealId tenantId) (a : Act) :
    Uploaded d start disk (as ++ [a]) dealId tenantId := by
  obtain ⟨before, authorization, draw, file, after, u, rfl, hrun, hauthorised, hid⟩ := h
  exact ⟨before, authorization, draw, file, after ++ [a], u, by simp, hrun, hauthorised, hid⟩

/-- The state at the end of the run: every deal was uploaded, and every job that is under way is
    for a deal that was. -/
structure Traced (d : Deployment) (start : Time) (disk : Disk) (as : List Act) (s : St) : Prop where
  run : Run.exec (step d) (init start disk) as = some s
  ok : Ok d s
  accounts : Accounts s
  deals : ∀ deal ∈ s.tables.deals, Uploaded d start disk as deal.id deal.tenantId
  executing : ∀ job ∈ s.executing, Uploaded d start disk as job.dealId job.tenantId

/-- A job in the queue is for a deal that was uploaded. -/
theorem Traced.job (h : Traced d start disk as s) {jobId : String} {row : BackgroundJob ExtractionJob}
    (hrow : Queue.find s.jobs jobId = some row) :
    Uploaded d start disk as row.payload.dealId row.payload.tenantId := by
  obtain ⟨deal, hdeal, hpayload, -⟩ := h.ok.custody.jobs row (Table.lookup_mem hrow)
  rw [hpayload]
  exact h.deals deal hdeal

theorem Traced.step (h : Traced d start disk as s) (hparse : Uuids d.parseUuid) (hfresh : DrawsFresh s a)
    (hgenuine : Genuine d s a) (hstep : step d s a = some t) : Traced d start disk (as ++ [a]) t := by
  refine ⟨Run.exec_snoc_eq_some.mpr ⟨s, h.run, hstep⟩, h.ok.step hparse hfresh hstep,
    h.accounts.step hstep, ?_, ?_⟩
  · rcases step_cases hstep with ⟨authorization, draw, file, caller, rfl, hcaller, hworld⟩ |
      ⟨-, -, hedits⟩
    · rw [St.tables, hworld]
      rcases upload_ingests d.api.config d.api.validatePdf none draw caller.tenantId file s.world with
        hsame | ⟨-, ⟨deal, hrow, hdeals⟩, -⟩
      · rw [hsame]
        exact fun deal hdeal => (h.deals deal hdeal).later _
      · rw [hdeals]
        refine forall_mem_snoc (fun deal hdeal => (h.deals deal hdeal).later _) ?_
        obtain ⟨hid, htenant, -⟩ := row_eq_some hrow
        rw [hid, htenant]
        exact ⟨as, authorization, draw, file, [], s, rfl, h.run,
          callerOf_authorised h.accounts hgenuine hcaller, rfl⟩
    · intro deal' hdeal'
      obtain ⟨hgrows, hlength⟩ := hedits.grows h.ok.inv
      obtain ⟨deal, hdeal, hlater⟩ := hgrows.deals.of_mem hlength hdeal'
      rw [hlater.1]
      exact (h.deals deal hdeal).later a
  · have hsame : ∀ job ∈ s.executing, Uploaded d start disk (as ++ [a]) job.dealId job.tenantId :=
      fun job hjob => (h.executing job hjob).later a
    cases a with
    | auth a =>
      cases hstep
      exact hsame
    | request authorization op =>
      rcases step_request hstep with ⟨-, rfl⟩ | ⟨caller, -, rfl⟩ <;> exact hsame
    | extract jobId reply =>
      obtain ⟨row, hrow, rfl⟩ := step_extract hstep
      intro job hjob
      rcases List.mem_append.mp hjob with hold | hnew
      · exact hsame job hold
      · unfold pending at hnew
        split at hnew
        · cases hnew
        · rw [List.mem_singleton.mp hnew]
          exact (h.job hrow).later _
    | score job draw =>
      obtain ⟨-, rfl⟩ := step_score hstep
      exact fun j hj => hsame j (List.mem_of_mem_erase hj)
    | crash job =>
      obtain ⟨-, rfl⟩ := step_crash hstep
      exact fun j hj => hsame j (List.mem_of_mem_erase hj)

-- ---------------------------------------------------------------------------
-- Changes
-- ---------------------------------------------------------------------------

/-- The action executes a job for the deal. -/
def Executes (s : St) (a : Act) (job : ExtractionJob) : Prop :=
  (∃ jobId reply row, a = .extract jobId reply ∧ Queue.find s.jobs jobId = some row ∧ row.payload = job) ∨
    ∃ draw, a = .score job draw

/-- Ids are fresh and tokens are genuine. -/
def Proper (d : Deployment) (s : St) (a : Act) : Prop := DrawsFresh s a ∧ Genuine d s a

theorem traced_run (hparse : Uuids d.parseUuid)
    (hproper : Run.Guarded (step d) (Proper d) (init start disk) as)
    (hrun : Run.exec (step d) (init start disk) as = some s) : Traced d start disk as s := by
  have hinit : Traced d start disk [] (init start disk) :=
    ⟨rfl, ok_init d start disk, accounts_init, fun _ h => absurd h List.not_mem_nil,
      fun _ h => absurd h List.not_mem_nil⟩
  exact hproper.history (Traced d start disk)
    (fun h hok hstep => h.step hparse hok.1 hok.2 hstep) hinit hrun

/-- A step that changes the rows or the jobs of a tenant is a request that is authorised for the
    tenant, or executes a job for a deal that such a request has uploaded. -/
theorem changes_authorised (hparse : Uuids d.parseUuid) (hT : tenantId < 2 ^ 128)
    (hproper : Run.Guarded (step d) (Proper d) (init start disk) as)
    (hrun : Run.exec (step d) (init start disk) as = some s) (hlast : Proper d s a)
    (hstep : step d s a = some t) (hchanged : ¬ Agree tenantId s.world t.world) :
    (∃ authorization op, a = .request authorization op ∧ Authorised d s authorization tenantId) ∨
      ∃ job, Executes s a job ∧ job.tenantId = tenantId ∧
        Uploaded d start disk as job.dealId tenantId := by
  have htraced := traced_run hparse hproper hrun
  rcases step_confined htraced.ok.sound hlast.1 hstep with hworld | ⟨owner, howner, -⟩
  · rw [hworld] at hchanged
    exact absurd ⟨rfl, rfl⟩ hchanged
  have hmine : owner = tenantId := by
    by_contra hne
    obtain ⟨hrows, hjobs⟩ := part_stays htraced.ok hparse hT hlast.1 howner (Ne.symm hne) hstep
    exact hchanged ⟨hrows.symm, hjobs.symm⟩
  subst hmine
  cases a with
  | auth a => cases howner
  | request authorization op =>
    obtain ⟨caller, hcaller, rfl⟩ := Option.map_eq_some_iff.mp howner
    exact .inl ⟨authorization, op, rfl, callerOf_authorised htraced.accounts hlast.2 hcaller⟩
  | extract jobId reply =>
    obtain ⟨row, hrow, rfl⟩ := Option.map_eq_some_iff.mp howner
    exact .inr ⟨row.payload, .inl ⟨jobId, reply, row, rfl, hrow, rfl⟩, rfl, htraced.job hrow⟩
  | score job draw =>
    cases howner
    exact .inr ⟨job, .inr ⟨draw, rfl⟩, rfl, htraced.executing job (step_score hstep).1⟩
  | crash job =>
    obtain ⟨-, rfl⟩ := step_crash hstep
    exact absurd ⟨rfl, rfl⟩ hchanged

end

/-- `Proper`, computed. -/
def proper (s : St) (a : Act) : Bool :=
  drawsFresh s a && match a with
    | .request (.bearer token) _ => token ∈ s.issued
    | _ => true

theorem proper_sound (d : Deployment) (s : St) (a : Act) (h : proper s a = true) : Proper d s a := by
  simp only [proper, Bool.and_eq_true] at h
  refine ⟨drawsFresh_sound s a h.1, ?_⟩
  rintro token op rfl -
  exact of_decide_eq_true h.2

/-- The document of the first tenant cannot be read, and its job fails the deal. -/
theorem changes_authorised_twoTenants :
    letI := asciiTables
    ∃ s t : St, Run.exec (step sampleDeployment) (init 0 ⟨[], []⟩) (twoTenants.take 6) = some s ∧
      ¬ Agree 2 s.world t.world ∧
      Uploaded sampleDeployment 0 ⟨[], []⟩ (twoTenants.take 6) 1 2 := by
  let _ := asciiTables
  have hbound : (2 : Uuid) < 2 ^ 128 := by decide
  have hchecks : Run.checks (step sampleDeployment) proper (init 0 ⟨[], []⟩) (twoTenants.take 6) = true := by
    decide +kernel
  have hruns : (do
      let s ← Run.exec (step sampleDeployment) (init 0 ⟨[], []⟩) (twoTenants.take 6)
      let t ← step sampleDeployment s (.extract "a" fun _ _ => .content none)
      return decide (s.tables.rowsOf 2 ≠ t.tables.rowsOf 2 ∧
        (Queue.find s.jobs "a").map (fun row => row.payload) = some ⟨1, 2⟩) : Option Bool) = some true := by
    decide +kernel
  obtain ⟨s, hrun, hruns⟩ := Option.bind_eq_some_iff.mp hruns
  obtain ⟨t, hstep, hruns⟩ := Option.bind_eq_some_iff.mp hruns
  obtain ⟨hrows, hpayload⟩ := of_decide_eq_true (Option.some.inj hruns)
  have hchanged : ¬ Agree 2 s.world t.world := fun h => hrows h.1
  refine ⟨s, t, hrun, hchanged, ?_⟩
  have hproper := Run.guarded_of_checks proper (proper_sound sampleDeployment) hchecks
  rcases changes_authorised uuids_sampleDeployment hbound hproper hrun
      (proper_sound sampleDeployment s (.extract "a" fun _ _ => .content none) rfl) hstep hchanged with
    ⟨_, _, hact, -⟩ | ⟨job, hexecutes, htenant, huploaded⟩
  · cases hact
  · rcases hexecutes with ⟨jobId, reply, row, hact, hrow, rfl⟩ | ⟨draw, hact⟩
    · cases hact
      rw [hrow, Option.map_some] at hpayload
      rwa [Option.some.inj hpayload] at huploaded
    · cases hact

end Tenancy
