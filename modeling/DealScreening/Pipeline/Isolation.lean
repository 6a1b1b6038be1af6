-- SUMMARY: Noninterference over whole runs: a tenant's answers, rows, jobs and documents are those of the run without any request and any job of other tenants.
import DealScreening.Pipeline.Tenancy

/-!
# Isolation of tenants

A run is compared with the run in which the requests and the jobs of all other tenants never
happen. The accounts are shared, so every login takes place in both.
-/

namespace Tenancy

open Python Session DealDb Noninterference IngestionService UploadApi Handlers Pipeline

-- ---------------------------------------------------------------------------
-- Jobs of a tenant
-- ---------------------------------------------------------------------------

section
variable {α : Type} {xs : List α} {p q : α → Bool} {x : α}

theorem find?_filter_of_found (h : xs.find? q = some x) (hx : p x = true) :
    (xs.filter p).find? q = some x := by
  obtain ⟨hq, before, after, rfl, hbefore⟩ := List.find?_eq_some_iff_append.mp h
  refine List.find?_eq_some_iff_append.mpr ⟨hq, before.filter p, after.filter p, ?_, fun y hy => ?_⟩
  · rw [List.filter_append, List.filter_cons_of_pos hx]
  · exact hbefore y (List.mem_filter.mp hy).1

end

section
variable {config : IngestionConfig} {w : World} {job : BackgroundJob ExtractionJob}

/-- A job is for the tenant of its deal, in its column and in its payload. -/
theorem job_tenant (h : Custody config w) (hjob : job ∈ w.db.jobs) :
    job.tenantId = some (Uuid.str job.payload.tenantId) ∧
      ∃ deal ∈ w.db.tables.deals, job.payload = ⟨deal.id, deal.tenantId⟩ := by
  obtain ⟨deal, hdeal, hpayload, -⟩ := h.jobs job hjob
  obtain ⟨-, -, only, honly, -, -, htenant⟩ := h.deals deal hdeal
  have hmem : job ∈ w.db.jobs.filter fun j => j.payload.dealId = deal.id :=
    List.mem_filter.mpr ⟨hjob, decide_eq_true (by rw [hpayload])⟩
  rw [honly] at hmem
  rw [List.mem_singleton.mp hmem] at hpayload ⊢
  exact ⟨by rw [htenant, hpayload], deal, hdeal, hpayload⟩

end

section
variable [ReTables] {d : Deployment} {tenantId : Uuid} {s s' t : St} {a : Act} {start : Time} {disk : Disk}
  {as : List Act}

-- ---------------------------------------------------------------------------
-- Two runs side by side
-- ---------------------------------------------------------------------------

/-- `s'` holds what is the tenant's in `s`. -/
structure Beside (d : Deployment) (tenantId : Uuid) (s s' : St) : Prop where
  ok : Ok d s
  auth : s'.auth = s.auth
  part : WorldPart tenantId (s.tables.rowsOfOthers tenantId) (jobsOfOthers tenantId s.jobs) s.world s'.world
  executing : s'.executing = s.executing.filter fun job => job.tenantId = tenantId
  documents : SameDocuments d.api.config tenantId s.world s'.world

omit [ReTables] in
theorem beside_init : Beside d tenantId (init start disk) (init start disk) where
  ok := ok_init d start disk
  auth := rfl
  part := ⟨⟨(ok_init d start disk).sound, rfl, rfl⟩, rfl, rfl⟩
  executing := rfl
  documents _ _ _ := rfl

omit [ReTables] in
theorem callerOf_congr (h : s'.auth = s.auth) : callerOf d s' = callerOf d s := by
  unfold callerOf
  rw [h]

/-- A request to both is answered alike and leaves the same documents. -/
theorem Beside.request {caller : Caller} {op : Operation} (h : Beside d caller.tenantId s s')
    (hfresh : FreshIds s.world op ∧ ∀ draw file, op = .upload draw file → draw.dealId < 2 ^ 128)
    (hok : Ok d (served d s caller op)) :
    (serve d.api caller op s'.world).1 = (serve d.api caller op s.world).1 ∧
      Beside d caller.tenantId (served d s caller op) (served d s' caller op) := by
  obtain ⟨hanswer, hpart⟩ := serve_local d.api hfresh.1 h.part
  refine ⟨hanswer.symm, hok, h.auth, ⟨⟨hpart.tables.sound, rfl, ?_⟩, rfl, ?_⟩, h.executing, ?_⟩
  · exact hpart.tables.part
  · exact hpart.jobs
  · by_cases hupload : ∃ draw file, op = .upload draw file
    · obtain ⟨draw, file, rfl⟩ := hupload
      have hnew := Table.lookup_eq_none.mpr hfresh.1.1
      exact h.documents.upload h.ok.custody (hfresh.2 draw file rfl) hnew h.part.tables.part
        hpart.tables.part
    · have hedited : ∀ w, Edited w (serve d.api caller op w).2 := fun w =>
        (serve_cases d.api caller op w).resolve_left fun ⟨draw, file, hop, _⟩ => hupload ⟨draw, file, hop⟩
      exact h.documents.edited h.ok.inv (hedited s.world) (hedited s'.world).1

/-- What is the tenant's own is done on both sides. -/
theorem Beside.kept (h : Beside d tenantId s s') (hparse : Uuids d.parseUuid) (hfresh : DrawsFresh s a)
    (hmine : spares d tenantId s a = true) (hstep : step d s a = some t) :
    ∃ t', step d s' a = some t' ∧ answer d tenantId s' a = answer d tenantId s a ∧
      Beside d tenantId t t' := by
  have hok := h.ok.step hparse hfresh hstep
  cases a with
  | auth a =>
    cases hstep
    exact ⟨_, rfl, rfl, hok, congrArg (Auth.step d.auth · a) h.auth, h.part, h.executing, h.documents⟩
  | request authorization op =>
    rcases step_request hstep with ⟨hnone, rfl⟩ | ⟨caller, hcaller, rfl⟩
    · have hnone' : callerOf d s' authorization = none := by rw [callerOf_congr h.auth, hnone]
      exact ⟨s', by simp only [step, hnone'], by simp only [answer, hnone', hnone], h⟩
    · have hcaller' : callerOf d s' authorization = some caller := by
        rw [callerOf_congr h.auth, hcaller]
      have htenant : caller.tenantId = tenantId := by
        simpa [spares, tenantOf, hcaller] using hmine
      subst htenant
      obtain ⟨hanswer, hbeside⟩ := h.request hfresh hok
      refine ⟨served d s' caller op, by simp only [step, hcaller', served], ?_, hbeside⟩
      simp only [answer, hcaller, hcaller', if_true, hanswer]
  | extract jobId reply =>
    obtain ⟨job, hjob, rfl⟩ := step_extract hstep
    have htenant : job.payload.tenantId = tenantId := by
      simpa [spares, tenantOf, hjob] using hmine
    subst htenant
    have hcolumn := (job_tenant h.ok.custody (Table.lookup_mem hjob)).1
    have hjob' : Queue.find s'.jobs jobId = some job := by
      rw [St.jobs, h.part.jobs]
      exact find?_filter_of_found hjob (decide_eq_true hcolumn)
    obtain ⟨hprogress, hpart⟩ := extraction_local _ _ (Worker.jobContext job) h.part.tables
      fun deal hdeal => fetchFields_congr reply h.ok h.documents hdeal
    refine ⟨{ s'.setTables (extracted d s' reply job).2 with
        executing := s'.executing ++ pending (extracted d s' reply job).1 job.payload }, ?_, rfl, hok,
      h.auth, ⟨⟨hpart.sound, rfl, ?_⟩, rfl, h.part.jobs⟩, ?_, ?_⟩
    · simp only [step, hjob', Option.map_some, extracted]
    · exact hpart.part
    · have hpending : (pending (extracted d s reply job).1 job.payload).filter
          (fun j => j.tenantId = job.payload.tenantId) = pending (extracted d s' reply job).1 job.payload := by
        have hprogress : (extracted d s reply job).1 = (extracted d s' reply job).1 := hprogress
        rw [hprogress]
        unfold pending
        split <;> simp
      rw [List.filter_append, hpending, ← h.executing]
    · refine h.documents.edited h.ok.inv ⟨rfl, rfl, ?_⟩ rfl
      exact extraction_edits _ job.payload (Worker.jobContext job) s.tables
  | score job draw =>
    obtain ⟨hjob, rfl⟩ := step_score hstep
    have htenant : job.tenantId = tenantId := by simpa [spares, tenantOf] using hmine
    subst htenant
    have hjob' : job ∈ s'.executing := by
      rw [h.executing]
      exact List.mem_filter.mpr ⟨hjob, decide_eq_true rfl⟩
    have hpart := scoring_local draw h.part.tables
      fun score hscore => hfresh score (List.mem_filter.mp hscore).1
    refine ⟨{ s'.setTables (scoring draw job s'.tables).2 with executing := s'.executing.erase job },
      by simp only [step, hjob', if_true], rfl, hok, h.auth, ⟨⟨hpart.sound, rfl, hpart.part⟩, rfl, h.part.jobs⟩,
      ?_, ?_⟩
    · dsimp only
      rw [h.executing, List.erase_filter]
    · exact h.documents.edited h.ok.inv ⟨rfl, rfl, scoring_edits draw job s.tables⟩ rfl
  | crash job =>
    obtain ⟨hjob, rfl⟩ := step_crash hstep
    have htenant : job.tenantId = tenantId := by simpa [spares, tenantOf] using hmine
    have hjob' : job ∈ s'.executing := by
      rw [h.executing]
      exact List.mem_filter.mpr ⟨hjob, decide_eq_true htenant⟩
    refine ⟨{ s' with executing := s'.executing.erase job }, by simp only [step, hjob', if_true], rfl, hok,
      h.auth, h.part, ?_, h.documents⟩
    dsimp only
    rw [h.executing, List.erase_filter]

/-- The part of a tenant stays in a step of another. -/
theorem part_stays {other : Uuid} (hok : Ok d s) (hparse : Uuids d.parseUuid) (hT : tenantId < 2 ^ 128)
    (hfresh : DrawsFresh s a) (hother : tenantOf d s a = some other) (hne : tenantId ≠ other)
    (hstep : step d s a = some t) :
    t.tables.rowsOf tenantId = s.tables.rowsOf tenantId ∧
      jobsOf tenantId t.jobs = jobsOf tenantId s.jobs := by
  rcases step_confined hok.sound hfresh hstep with hworld | ⟨owner, howner, hsound, hrows, hjobs⟩
  · rw [St.tables, St.tables, St.jobs, St.jobs, hworld]
    exact ⟨rfl, rfl⟩
  · cases hother.symm.trans howner
    constructor
    · rw [← hsound.rowsOf_rowsOfOthers hne, ← hok.sound.rowsOf_rowsOfOthers hne]
      exact congrArg (DealDb.rowsOf · tenantId) hrows
    · rcases step_cases hstep with ⟨authorization, draw, file, caller, rfl, hcaller, -⟩ | ⟨-, hsame, -⟩
      · have hcallerId : caller.tenantId = other := by simpa [tenantOf, hcaller] using hother
        have hbound : other < 2 ^ 128 := hcallerId ▸ callerOf_bound hparse hcaller
        have hkeys : Uuid.str tenantId ≠ Uuid.str other := fun heq =>
          hne (Uuid.str_injective hT hbound heq)
        have hamong : ∀ jobs, jobsOf tenantId (jobsOfOthers other jobs) = jobsOf tenantId jobs := fun jobs =>
          filter_filter_apart fun job _ hjob => by
            simpa [of_decide_eq_true hjob] using hkeys
        rw [← hamong, ← hamong s.jobs]
        exact congrArg (jobsOf tenantId) hjobs
      · rw [St.jobs, St.jobs, hsame]

omit [ReTables] in
theorem filter_erase_other {job : ExtractionJob} {jobs : List ExtractionJob} (hne : tenantId ≠ job.tenantId) :
    (jobs.erase job).filter (fun j => j.tenantId = tenantId) =
      jobs.filter fun j => j.tenantId = tenantId := by
  rw [← List.erase_filter]
  exact List.erase_of_not_mem fun hmem => hne (of_decide_eq_true (List.mem_filter.mp hmem).2).symm

/-- So do its jobs between two transactions, and all accounts. -/
theorem executing_stays {other : Uuid} (hother : tenantOf d s a = some other) (hne : tenantId ≠ other)
    (hstep : step d s a = some t) :
    t.auth = s.auth ∧ t.executing.filter (fun job => job.tenantId = tenantId) =
      s.executing.filter fun job => job.tenantId = tenantId := by
  cases a with
  | auth a => cases hother
  | request authorization op =>
    rcases step_request hstep with ⟨-, rfl⟩ | ⟨caller, -, rfl⟩ <;> exact ⟨rfl, rfl⟩
  | extract jobId reply =>
    obtain ⟨job, hjob, rfl⟩ := step_extract hstep
    have hjobId : job.payload.tenantId = other := by simpa [tenantOf, hjob] using hother
    have hpending : (pending (extracted d s reply job).1 job.payload).filter
        (fun j => j.tenantId = tenantId) = [] := by
      unfold pending
      split <;> simp [hjobId, Ne.symm hne]
    refine ⟨rfl, ?_⟩
    rw [List.filter_append, hpending, List.append_nil]
  | score job draw =>
    obtain ⟨-, rfl⟩ := step_score hstep
    exact ⟨rfl, filter_erase_other (Option.some.inj hother ▸ hne)⟩
  | crash job =>
    obtain ⟨-, rfl⟩ := step_crash hstep
    exact ⟨rfl, filter_erase_other (Option.some.inj hother ▸ hne)⟩

/-- What is another tenant's is not seen. -/
theorem Beside.gone (h : Beside d tenantId s s') (hparse : Uuids d.parseUuid) (hT : tenantId < 2 ^ 128)
    (hfresh : DrawsFresh s a) (hgone : spares d tenantId s a = false) (hstep : step d s a = some t) :
    answer d tenantId s a = none ∧ Beside d tenantId t s' := by
  obtain ⟨other, hother, hne⟩ : ∃ other, tenantOf d s a = some other ∧ tenantId ≠ other := by
    unfold spares at hgone
    cases hother : tenantOf d s a with
    | none => simp [hother] at hgone
    | some other =>
      rw [hother] at hgone
      exact ⟨other, rfl, fun heq => by simp [heq] at hgone⟩
  have hok := h.ok.step hparse hfresh hstep
  obtain ⟨hrows, hjobs⟩ := part_stays h.ok hparse hT hfresh hother hne hstep
  obtain ⟨hauth, hexecuting⟩ := executing_stays hother hne hstep
  constructor
  · cases a with
    | request authorization op =>
      unfold tenantOf at hother
      obtain ⟨caller, hcaller, rfl⟩ := Option.map_eq_some_iff.mp hother
      simp only [answer, hcaller]
      exact if_neg (Ne.symm hne)
    | _ => rfl
  · refine ⟨hok, ?_, ⟨⟨hok.sound, rfl, ?_⟩, rfl, ?_⟩, ?_, ?_⟩
    · rw [h.auth, hauth]
    · exact h.part.tables.part.trans hrows.symm
    · exact h.part.jobs.trans hjobs.symm
    · exact h.executing.trans hexecuting.symm
    · rcases step_cases hstep with ⟨authorization, draw, file, caller, rfl, -, hworld⟩ | hedited
      · obtain ⟨hid, hnew⟩ := hfresh.deal
        rw [St.tables, hworld] at hrows
        rw [hworld]
        exact h.documents.other h.ok.custody hid hnew hrows
      · exact h.documents.edited h.ok.inv hedited rfl

/-- In every run a tenant gets the answers, and is left with the rows, jobs and documents, of the
    run in which no other tenant does anything. -/
theorem others_unseen (hparse : Uuids d.parseUuid) (hT : tenantId < 2 ^ 128)
    (hfresh : Run.Guarded (step d) DrawsFresh (init start disk) as)
    (hrun : Run.exec (step d) (init start disk) as = some t) :
    let own := Run.purge (step d) (spares d tenantId) (init start disk) as
    ∃ t', Run.exec (step d) (init start disk) own = some t' ∧
      Run.outputs (step d) (answer d tenantId) (init start disk) own =
        Run.outputs (step d) (answer d tenantId) (init start disk) as ∧
      t'.tables = t.tables.rowsOf tenantId ∧ t'.jobs = jobsOf tenantId t.jobs ∧
      SameDocuments d.api.config tenantId t.world t'.world := by
  obtain ⟨t', hrun', houts, hlast⟩ := hfresh.purged (spares d tenantId) (answer d tenantId) (Beside d tenantId)
    (fun _ _ _ _ h hfresh hmine hstep => h.kept hparse hfresh hmine hstep)
    (fun _ _ _ _ h hfresh hgone hstep => h.gone hparse hT hfresh hgone hstep) beside_init hrun
  exact ⟨t', hrun', houts, hlast.part.tables.part, hlast.part.jobs, hlast.documents⟩

end

/-- The second tenant does not see that the document was there before, nor its extraction. -/
theorem others_unseen_twoTenants :
    letI := asciiTables
    let answers := Run.outputs (step sampleDeployment) (answer sampleDeployment 9) (init 0 ⟨[], []⟩)
    let own := Run.purge (step sampleDeployment) (spares sampleDeployment 9) (init 0 ⟨[], []⟩) twoTenants
    (answers twoTenants).length = 2 ∧ answers own = answers twoTenants := by
  let _ := asciiTables
  have hbound : (9 : Uuid) < 2 ^ 128 := by decide
  obtain ⟨hchecks, hruns, hanswers⟩ := twoTenants_runs
  obtain ⟨t, hrun⟩ := Option.isSome_iff_exists.mp hruns
  obtain ⟨t', -, hsame, -⟩ := others_unseen uuids_sampleDeployment hbound
    (Run.guarded_of_checks drawsFresh drawsFresh_sound hchecks) hrun
  exact ⟨hanswers, hsame⟩

end Tenancy
