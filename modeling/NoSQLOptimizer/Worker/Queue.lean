import NoSQLOptimizer.Worker.Durable

namespace NoSQLOptimizer.Worker

open ControlPlane

/-- The table, one clock, and what each worker's variable `job` holds. -/
structure Queue where
  now : Instant := 0
  jobs : Jobs := ∅
  job : WorkerId → Option ClaimedJob := fun _ => none

/-- The calls of the repository by any workers.  A worker that dies makes no more of them. -/
inductive Op
  | tick : Nat → Op
  | enqueue : JobId → JobPayload → Option RunId → String → Op
  | claim : WorkerId → Option String → (JobId → Bool) → Op
  | heartbeat : JobId → WorkerId → Op
  | complete : JobId → WorkerId → Op
  | fail : ClaimedJob → WorkerId → String → Bool → Op

namespace JobRepository

variable (R : JobRepository)

/-- What the call hands to its worker. -/
def taken (s : Queue) : Op → Option (WorkerId × ClaimedJob)
  | .claim w tag locked => (R.claim s.now w tag locked s.jobs).1.map (fun c => (w, c))
  | _ => none

def step (s : Queue) (op : Op) : Queue :=
  match op with
  | .tick d => { s with now := s.now + d }
  | .enqueue id payload run kind => { s with jobs := (enqueue s.now id payload run kind s.jobs).2 }
  | .claim w tag locked =>
    { s with
      jobs := (R.claim s.now w tag locked s.jobs).2
      job := match R.taken s op with
        | none => s.job
        | some (_, c) => Function.update s.job w (some c) }
  | .heartbeat id w => { s with jobs := (R.heartbeat s.now id w s.jobs).2 }
  | .complete id w => { s with jobs := (complete s.now id w s.jobs).2 }
  | .fail c w error permanent => { s with jobs := (R.fail s.now c w error permanent s.jobs).2 }

def run (s : Queue) (ops : List Op) : Queue := ops.foldl R.step s

/-- Who claims the job by this call. -/
def claimant (id : JobId) (s : Queue) (op : Op) : Option WorkerId :=
  match R.taken s op with
  | some (w, c) => if c.id = id then some w else none
  | none => none

/-- Who has claimed the job, in order. -/
def claimants (id : JobId) : Queue → List Op → List WorkerId
  | _, [] => []
  | s, op :: ops => (R.claimant id s op).toList ++ claimants id (R.step s op) ops

end JobRepository

def terminal : JobStatus → Bool
  | .completed | .failed => true
  | .pending | .running => false

def Queue.ended (s : Queue) (id : JobId) : Bool := (s.jobs.lookup id).any (terminal ·.status)

/-- Every call of the run is made where `P` holds of it. -/
def JobRepository.Along (R : JobRepository) (P : Queue → Op → Prop) : Queue → List Op → Prop
  | _, [] => True
  | s, op :: ops => P s op ∧ Along R P (R.step s op) ops

/-- How often the job comes into a terminal status. -/
def JobRepository.terminations (R : JobRepository) (id : JobId) : Queue → List Op → Nat
  | _, [] => 0
  | s, op :: ops =>
    (if !s.ended id && (R.step s op).ended id then 1 else 0) + terminations R id (R.step s op) ops

/-- All that a call can do to a row, and who claims it thereby. -/
inductive RowStep (R : JobRepository) (s : Queue) (id : JobId) :
    Op → Option Job → Option WorkerId → Option Job → Prop
  | same (op : Op) (row : Option Job) : RowStep R s id op row none row
  | enqueued : RowStep R s id (.enqueue id payload run kind) none none
      (some (newJob s.now payload run kind))
  | claimed : claimable s.now tag job = true →
      RowStep R s id (.claim w tag locked) (some job) (some w) (some (R.claimed s.now w job))
  | beaten : leasedBy w job = true → unexpired s.now job = true →
      RowStep R s id (.heartbeat id w) (some job) none (some (R.beaten s.now job))
  | completed : leasedBy w job = true →
      RowStep R s id (.complete id w) (some job) none (some (JobRepository.completed s.now job))
  | failed : leasedBy w job = true → c.id = id →
      RowStep R s id (.fail c w error permanent) (some job) none
        (some (R.failed s.now c error permanent job))

theorem rowStep (R : JobRepository) (s : Queue) (id : JobId) (op : Op) :
    RowStep R s id op (s.jobs.lookup id) (R.claimant id s op) ((R.step s op).jobs.lookup id) := by
  cases op with
  | tick d => exact .same _ _
  | enqueue id' payload run kind =>
    rcases enqueue_cases s.now id' payload run kind s.jobs with h | ⟨hnone, h⟩
    · simp only [JobRepository.step, h]
      exact .same _ _
    · simp only [JobRepository.step, h]
      by_cases hid : id = id'
      · subst hid
        rw [AList.lookup_insert, hnone]
        exact .enqueued
      · rw [AList.lookup_insert_ne hid]
        exact .same _ _
  | claim w tag locked =>
    simp only [JobRepository.step, JobRepository.claimant, JobRepository.taken]
    rcases R.claim_cases s.now w tag locked s.jobs with h | ⟨id', job, hjob, hclaimable, -, h⟩
    · simp only [h, Option.map_none]
      exact .same _ _
    · simp only [h, Option.map_some]
      by_cases hid : id = id'
      · subst hid
        rw [AList.lookup_insert, hjob, if_pos rfl]
        exact .claimed hclaimable
      · rw [AList.lookup_insert_ne hid, if_neg (Ne.symm hid)]
        exact .same _ _
  | heartbeat id' w =>
    rcases lookup_updateJob id id' (fun job => leasedBy w job && unexpired s.now job)
      (R.beaten s.now) s.jobs with h | ⟨job, rfl, hfound, hjob, h⟩
    · exact h ▸ .same _ _
    · obtain ⟨hleased, hunexpired⟩ := Bool.and_eq_true_iff.mp hfound
      rw [hjob]
      exact h ▸ .beaten hleased hunexpired
  | complete id' w =>
    rcases lookup_updateJob id id' (leasedBy w) (JobRepository.completed s.now) s.jobs with
      h | ⟨job, rfl, hfound, hjob, h⟩
    · exact h ▸ .same _ _
    · rw [hjob]
      exact h ▸ .completed hfound
  | fail c w error permanent =>
    rcases lookup_updateJob id c.id (leasedBy w) (R.failed s.now c error permanent) s.jobs with
      h | ⟨job, hid, hfound, hjob, h⟩
    · exact h ▸ .same _ _
    · rw [hjob]
      exact h ▸ .failed hfound hid

section

variable {R : JobRepository} {s : Queue} {op : Op} {w : WorkerId} {c : ClaimedJob}

theorem claim_of_taken (h : R.taken s op = some (w, c)) :
    ∃ job, s.jobs.lookup c.id = some job ∧ c.attempts = job.attempts + 1 ∧
      R.claimant c.id s op = some w ∧
      (R.step s op).jobs.lookup c.id = some (R.claimed s.now w job) ∧
      (R.step s op).job = Function.update s.job w (some c) := by
  cases op with
  | claim w' tag locked =>
    obtain ⟨c', hc, hpair⟩ := Option.map_eq_some_iff.mp h
    obtain ⟨rfl, rfl⟩ := Prod.mk.inj hpair
    rcases R.claim_cases s.now w' tag locked s.jobs with hnone | ⟨id, job, hjob, -, -, hclaim⟩
    · rw [hnone] at hc
      cases hc
    · rw [hclaim] at hc
      cases hc
      refine ⟨job, hjob, rfl, ?_, ?_, ?_⟩
      · simp [JobRepository.claimant, h]
      · simp [JobRepository.step, hclaim]
      · simp [JobRepository.step, h]
  | _ => cases h

theorem taken_of_claimant {id : JobId} (h : R.claimant id s op = some w) :
    ∃ c, R.taken s op = some (w, c) ∧ c.id = id := by
  unfold JobRepository.claimant at h
  split at h
  · next w' c hc =>
    split at h
    · next hid =>
      cases h
      exact ⟨c, hc, hid⟩
    · cases h
  · cases h

theorem job_step (hnone : R.taken s op = none) : (R.step s op).job = s.job := by
  cases op with
  | claim w tag locked => simp [JobRepository.step, hnone]
  | _ => rfl

end

/-- A worker knows the attempts of a job that it has under lease. -/
def Known (s : Queue) (id : JobId) : Prop :=
  ∀ job w c, s.jobs.lookup id = some job → leasedBy w job = true → s.job w = some c → c.id = id →
    c.attempts = job.attempts

theorem Known.of_same {R : JobRepository} {s : Queue} {id : JobId} {op : Op} (h : Known s id)
    (hsame : ∀ job' w, (R.step s op).jobs.lookup id = some job' → leasedBy w job' = true →
      ∃ job, s.jobs.lookup id = some job ∧ leasedBy w job = true ∧ job.attempts = job'.attempts)
    (hclaimant : R.claimant id s op = none) : Known (R.step s op) id := by
  intro job' w c hjob' hw' hc hid
  obtain ⟨job, hjob, hw, hattempts⟩ := hsame job' w hjob' hw'
  rw [← hattempts]
  cases htaken : R.taken s op with
  | none =>
    rw [job_step htaken] at hc
    exact h job w c hjob hw hc hid
  | some t =>
    obtain ⟨w', c'⟩ := t
    obtain ⟨-, -, -, hclaimed, -, hupdate⟩ := claim_of_taken htaken
    rw [hupdate] at hc
    by_cases hww : w = w'
    · subst hww
      rw [Function.update_self] at hc
      cases hc
      rw [hid, hclaimant] at hclaimed
      cases hclaimed
    · rw [Function.update_of_ne hww] at hc
      exact h job w c hjob hw hc hid

theorem Known.step {R : JobRepository} {s : Queue} {id : JobId} (h : Known s id) (op : Op) :
    Known (R.step s op) id := by
  have hrow := rowStep R s id op
  generalize hold : s.jobs.lookup id = row at hrow
  generalize hnew : (R.step s op).jobs.lookup id = row' at hrow
  generalize hw : R.claimant id s op = claimant at hrow
  cases hrow with
  | same => exact h.of_same (fun job w hjob hl => ⟨job, by rw [hold, ← hnew, hjob], hl, rfl⟩) hw
  | enqueued =>
    refine h.of_same (fun job w hjob hl => ?_) hw
    cases hnew.symm.trans hjob
    cases hl
  | @claimed tag job w locked =>
    intro job' w' c' hjob' hl hc' hid
    obtain ⟨c, htaken, rfl⟩ := taken_of_claimant hw
    obtain ⟨old, hjob, hattempts, -, -, hupdate⟩ := claim_of_taken htaken
    obtain rfl : old = job := Option.some_inj.mp (hjob.symm.trans hold)
    cases hnew.symm.trans hjob'
    obtain rfl : w' = w := by simpa [leasedBy, JobRepository.claimed, eq_comm] using hl
    rw [hupdate, Function.update_self] at hc'
    cases hc'
    exact hattempts
  | @beaten w job =>
    refine h.of_same (fun job' w' hjob hl => ?_) hw
    cases hnew.symm.trans hjob
    exact ⟨job, hold, hl, rfl⟩
  | completed =>
    refine h.of_same (fun job' w' hjob hl => ?_) hw
    cases hnew.symm.trans hjob
    cases hl
  | failed =>
    refine h.of_same (fun job' w' hjob hl => ?_) hw
    cases hnew.symm.trans hjob
    simp [leasedBy, JobRepository.failed] at hl

/-- The row against those who have claimed the job so far. -/
structure Owned (row : Option Job) (claimants : List WorkerId) : Prop where
  owner : ∀ job, row = some job → job.status = .running → job.leaseOwner = claimants.getLast?
  attempts : ∀ job, row = some job → job.attempts = claimants.length
  unborn : row = none → claimants = []

theorem RowStep.owned {R : JobRepository} {s : Queue} {id : JobId} {op : Op} {row row' : Option Job}
    {w : Option WorkerId} {ws : List WorkerId} (h : RowStep R s id op row w row')
    (hrow : Owned row ws) : Owned row' (ws ++ w.toList) := by
  cases h with
  | same => simpa using hrow
  | enqueued =>
    obtain rfl := hrow.unborn rfl
    exact ⟨by simp [newJob], by simp [newJob], nofun⟩
  | claimed =>
    refine ⟨?_, ?_, nofun⟩
    · simp [JobRepository.claimed]
    · simp [JobRepository.claimed, hrow.attempts _ rfl]
  | beaten =>
    simp only [Option.toList_none, List.append_nil]
    exact ⟨by simpa [JobRepository.beaten] using hrow.owner, by
      simpa [JobRepository.beaten] using hrow.attempts, nofun⟩
  | completed =>
    simp only [Option.toList_none, List.append_nil]
    exact ⟨by simp [JobRepository.completed], by
      simpa [JobRepository.completed] using hrow.attempts, nofun⟩
  | failed =>
    simp only [Option.toList_none, List.append_nil]
    refine ⟨fun job hjob hrunning => ?_, by
      simpa [JobRepository.failed] using hrow.attempts, nofun⟩
    cases hjob
    simp only [JobRepository.failed] at hrunning
    split at hrunning <;> cases hrunning

theorem Owned.run (R : JobRepository) (id : JobId) (ops : List Op) :
    ∀ (s : Queue) (ws : List WorkerId), Owned (s.jobs.lookup id) ws →
      Owned ((R.run s ops).jobs.lookup id) (ws ++ R.claimants id s ops) := by
  induction ops with
  | nil =>
    intro s ws h
    simpa [JobRepository.run, JobRepository.claimants] using h
  | cons op ops ih =>
    intro s ws h
    have hstep := ih (R.step s op) _ ((rowStep R s id op).owned h)
    rwa [List.append_assoc] at hstep

theorem Owned.of_run (R : JobRepository) (id : JobId) (ops : List Op) :
    Owned ((R.run {} ops).jobs.lookup id) (R.claimants id {} ops) :=
  Owned.run R id ops {} [] ⟨by simp, by simp, fun _ => rfl⟩

/-- Nobody but the latest claimant has the lease. -/
theorem Owned.leasedBy {row : Option Job} {ws : List WorkerId} (h : Owned row ws) {w : WorkerId}
    {job : Job} (hjob : row = some job) (hw : leasedBy w job = true) : ws.getLast? = some w := by
  simp only [Worker.leasedBy, Bool.and_eq_true, decide_eq_true_eq] at hw
  exact (h.owner job hjob hw.1).symm.trans hw.2

theorem terminal_of_leasedBy {w : WorkerId} {job : Job} (h : leasedBy w job = true) :
    terminal job.status = false := by
  simp only [leasedBy, Bool.and_eq_true, decide_eq_true_eq] at h
  rw [h.1]
  rfl

theorem terminal_of_claimable {now : Instant} {tag : Option String} {job : Job}
    (h : claimable now tag job = true) : terminal job.status = false := by
  unfold claimable at h
  cases hs : job.status <;> simp_all [terminal]

/-- A row in a terminal status is never written again. -/
theorem RowStep.terminal {R : JobRepository} {s : Queue} {id : JobId} {op : Op} {job : Job}
    {w : Option WorkerId} {row' : Option Job} (h : RowStep R s id op (some job) w row')
    (hjob : terminal job.status = true) : row' = some job := by
  cases h with
  | same => rfl
  | claimed hc => exact absurd hjob (by simp [terminal_of_claimable hc])
  | beaten hl => exact absurd hjob (by simp [terminal_of_leasedBy hl])
  | completed hl => exact absurd hjob (by simp [terminal_of_leasedBy hl])
  | failed hl => exact absurd hjob (by simp [terminal_of_leasedBy hl])

theorem Queue.ended_step {R : JobRepository} {s : Queue} {id : JobId} (op : Op)
    (h : s.ended id = true) : (R.step s op).ended id = true := by
  obtain ⟨job, hjob, hterminal⟩ := (Option.any_eq_true _ _).mp h
  have hstep := rowStep R s id op
  rw [hjob] at hstep
  rw [Queue.ended, hstep.terminal hterminal]
  exact hterminal

theorem terminations_le (R : JobRepository) (id : JobId) (ops : List Op) :
    ∀ s : Queue, R.terminations id s ops ≤ if s.ended id then 0 else 1 := by
  induction ops with
  | nil => exact fun s => Nat.zero_le _
  | cons op ops ih =>
    intro s
    have hrest := ih (R.step s op)
    cases hs : s.ended id with
    | true =>
      rw [Queue.ended_step op hs] at hrest
      simpa [JobRepository.terminations, hs] using hrest
    | false =>
      cases ht : (R.step s op).ended id with
      | true =>
        rw [ht] at hrest
        simp [JobRepository.terminations, hs, ht, Nat.le_zero.mp hrest]
      | false =>
        rw [ht] at hrest
        simpa [JobRepository.terminations, hs, ht] using hrest

/-- The call is refused, and the table is as it was. -/
theorem refused_of_not_leased {id : JobId} {found : Job → Bool} {set : Job → Job} {jobs : Jobs}
    (h : ∀ job, jobs.lookup id = some job → found job = false) :
    updateJob id found set jobs = (false, jobs) := by
  rcases updateJob_cases id found set jobs with ⟨hrefused, -⟩ | ⟨job, hjob, hfound, -⟩
  · exact hrefused
  · exact absurd hfound (by simp [h job hjob])

/-- Over any calls of any workers, a job's lease is its latest claimant's alone, and a terminal job
is left as it is. -/
theorem lease_exclusive (R : JobRepository) (ops : List Op) (id : JobId) :
    let s := R.run {} ops
    (∀ w, (R.claimants id {} ops).getLast? ≠ some w →
      R.heartbeat s.now id w s.jobs = (false, s.jobs) ∧
      JobRepository.complete s.now id w s.jobs = (false, s.jobs) ∧
      ∀ c error permanent, c.id = id →
        R.fail s.now c w error permanent s.jobs = (false, s.jobs)) ∧
    (∀ w, (R.heartbeat s.now id w s.jobs).1 = true →
      (R.claimants id {} ops).getLast? = some w ∧
      ∃ job expires, s.jobs.lookup id = some job ∧ job.leaseExpiresAt = some expires ∧
        s.now < expires) ∧
    (∀ job, s.jobs.lookup id = some job → terminal job.status = true →
      ∀ op, (R.step s op).jobs.lookup id = some job) ∧
    R.terminations id {} ops ≤ 1 := by
  have howned := Owned.of_run R id ops
  refine ⟨fun w hw => ?_, fun w hbeat => ?_, fun job hjob hterminal op => ?_, ?_⟩
  · have hleased : ∀ job, (R.run {} ops).jobs.lookup id = some job → leasedBy w job = false :=
      fun job hjob => Bool.eq_false_iff.mpr (fun h => hw (howned.leasedBy hjob h))
    refine ⟨refused_of_not_leased (fun job hjob => ?_), refused_of_not_leased hleased, ?_⟩
    · rw [hleased job hjob, Bool.false_and]
    · rintro c error permanent rfl
      exact refused_of_not_leased hleased
  · rcases updateJob_cases id (fun job => leasedBy w job && unexpired (R.run {} ops).now job)
      (R.beaten (R.run {} ops).now) (R.run {} ops).jobs with ⟨h, -⟩ | ⟨job, hjob, hfound, -⟩
    · rw [JobRepository.heartbeat, h] at hbeat
      cases hbeat
    · obtain ⟨hleased, hunexpired⟩ := Bool.and_eq_true_iff.mp hfound
      obtain ⟨expires, hexpires, hlt⟩ := (Option.any_eq_true _ _).mp hunexpired
      exact ⟨howned.leasedBy hjob hleased, job, expires, hjob, hexpires, of_decide_eq_true hlt⟩
  · have hstep := rowStep R (R.run {} ops) id op
    rw [hjob] at hstep
    exact hstep.terminal hterminal
  · exact terminations_le R id ops {}

end NoSQLOptimizer.Worker
