import NoSQLOptimizer.Worker.Queue

namespace NoSQLOptimizer.Worker

open ControlPlane

/-- As `run_once` does: a worker reports the failure of the job that it claimed. -/
def ownJob (s : Queue) : Op → Prop
  | .fail c w _ _ => s.job w = some c
  | _ => True

instance (s : Queue) : (op : Op) → Decidable (ownJob s op)
  | .fail .. => inferInstanceAs (Decidable (_ = _))
  | .tick _ | .enqueue .. | .claim .. | .heartbeat .. | .complete .. => .isTrue trivial

instance JobRepository.decidableAlong {R : JobRepository} {P : Queue → Op → Prop}
    [∀ s op, Decidable (P s op)] : (s : Queue) → (ops : List Op) → Decidable (R.Along P s ops)
  | _, [] => .isTrue trivial
  | s, op :: ops =>
    have := decidableAlong (R := R) (P := P) (R.step s op) ops
    inferInstanceAs (Decidable (P s op ∧ R.Along P (R.step s op) ops))

/-- The call takes a job over from a worker whose lease ran out, at the end of the job's attempts. -/
def JobRepository.overruns (R : JobRepository) (s : Queue) (op : Op) : Bool :=
  (R.taken s op).any (fun (_, c) => (s.jobs.lookup c.id).any (fun job =>
    R.maxAttempts ≤ job.attempts && (job.status = .running || job.attempts = 0)))

/-- The attempts of a job, and what its worker knows of them. -/
structure Charged (R : JobRepository) (s : Queue) (id : JobId) : Prop where
  bounded : ∀ job, s.jobs.lookup id = some job → job.attempts ≤ R.maxAttempts
  pending : ∀ job, s.jobs.lookup id = some job → job.status = .pending →
    job.attempts < R.maxAttempts ∨ job.attempts = 0
  known : Known s id

theorem Charged.step {R : JobRepository} {s : Queue} {id : JobId} {op : Op} (h : Charged R s id)
    (hown : ownJob s op) (hover : R.overruns s op = false) : Charged R (R.step s op) id := by
  have hrow := rowStep R s id op
  generalize hold : s.jobs.lookup id = row at hrow
  generalize hnew : (R.step s op).jobs.lookup id = row' at hrow
  generalize hw : R.claimant id s op = claimant at hrow
  cases hrow with
  | same =>
    have hsame := hnew.trans hold.symm
    exact ⟨hsame ▸ h.bounded, hsame ▸ h.pending, h.known.step op⟩
  | enqueued =>
    refine ⟨fun job hjob => ?_, fun job hjob _ => .inr ?_, h.known.step _⟩
    · cases hnew.symm.trans hjob
      exact Nat.zero_le _
    · cases hnew.symm.trans hjob
      rfl
  | @claimed tag job w locked hclaimable =>
    obtain ⟨c, htaken, rfl⟩ := taken_of_claimant hw
    refine ⟨fun job' hjob' => ?_, fun job' hjob' hp => ?_, h.known.step _⟩
    · cases hnew.symm.trans hjob'
      -- a RUNNING job has attempts left, or the claim overruns; a PENDING one has them anyhow
      have hrest : R.maxAttempts ≤ job.attempts → job.status ≠ .running ∧ job.attempts ≠ 0 := by
        simpa [JobRepository.overruns, htaken, hold] using hover
      have hpending := h.pending job hold
      have hstatus : job.status = .running ∨ job.status = .pending := by
        unfold claimable at hclaimable
        cases hs : job.status <;> simp_all
      change job.attempts + 1 ≤ R.maxAttempts
      by_contra hlt
      obtain ⟨hrunning, hzero⟩ := hrest (by omega)
      rcases hpending (hstatus.resolve_left hrunning) with hlt' | hzero'
      · omega
      · exact hzero hzero'
    · cases hnew.symm.trans hjob'
      cases hp
  | @beaten w job hl =>
    refine ⟨fun job' hjob => ?_, fun job' hjob hp => ?_, h.known.step _⟩
    · cases hnew.symm.trans hjob
      exact h.bounded job hold
    · cases hnew.symm.trans hjob
      exact h.pending job hold hp
  | @completed w job hl =>
    refine ⟨fun job' hjob => ?_, fun job' hjob hp => ?_, h.known.step _⟩
    · cases hnew.symm.trans hjob
      exact h.bounded job hold
    · cases hnew.symm.trans hjob
      cases hp
  | @failed w job c error permanent hl hid =>
    refine ⟨fun job' hjob => ?_, fun job' hjob hp => .inl ?_, h.known.step _⟩
    · cases hnew.symm.trans hjob
      exact h.bounded job hold
    · cases hnew.symm.trans hjob
      have hattempts := h.known job w c hold hl hown hid
      by_contra hlt
      have hfinal : R.final c permanent = true := by
        simp only [JobRepository.final, Bool.or_eq_true, decide_eq_true_eq]
        exact .inr (hattempts ▸ Nat.not_lt.mp hlt)
      simp [JobRepository.failed, hfinal] at hp

theorem Charged.run {R : JobRepository} {id : JobId} (ops : List Op) :
    ∀ s, Charged R s id → R.Along ownJob s ops →
      R.Along (fun s op => R.overruns s op = false) s ops → Charged R (R.run s ops) id := by
  induction ops with
  | nil => exact fun _ h _ _ => h
  | cons op ops ih =>
    intro s h hown hover
    exact ih (R.step s op) (h.step hown.1 hover.1) hown.2 hover.2

/-- A call that overruns is one claim too many. -/
theorem along_of_bounded (R : JobRepository) (ops : List Op) :
    ∀ (s : Queue) (ws : JobId → List WorkerId), (∀ id, Owned (s.jobs.lookup id) (ws id)) →
      (∀ id, (ws id ++ R.claimants id s ops).length ≤ R.maxAttempts) →
      R.Along (fun s op => R.overruns s op = false) s ops := by
  induction ops with
  | nil => exact fun _ _ _ _ => trivial
  | cons op ops ih =>
    intro s ws howned hbounded
    refine ⟨?_, ih (R.step s op) (fun id => ws id ++ (R.claimant id s op).toList)
      (fun id => (rowStep R s id op).owned (howned id)) (fun id => ?_)⟩
    · cases htaken : R.taken s op with
      | none => rw [JobRepository.overruns, htaken, Option.any_none]
      | some t =>
        obtain ⟨w, c⟩ := t
        obtain ⟨job, hjob, -, hclaimant, -⟩ := claim_of_taken htaken
        have hlength := hbounded c.id
        rw [JobRepository.claimants, hclaimant] at hlength
        simp only [Option.toList_some, List.length_append, List.length_singleton] at hlength
        have hattempts := (howned c.id).attempts job hjob
        have hlt : ¬ R.maxAttempts ≤ job.attempts := by omega
        simp [JobRepository.overruns, htaken, hjob, hlt]
    · have hlength := hbounded id
      rwa [JobRepository.claimants, ← List.append_assoc] at hlength

/-- The attempts of every job are bounded exactly as long as no claim takes over a job whose attempts
are used up. -/
theorem attempts_bounded_iff (R : JobRepository) (ops : List Op) (hown : R.Along ownJob {} ops) :
    (∀ id, (R.claimants id {} ops).length ≤ R.maxAttempts) ↔
      R.Along (fun s op => R.overruns s op = false) {} ops := by
  constructor
  · exact fun h => along_of_bounded R ops {} (fun _ => [])
      (fun _ => ⟨by simp, by simp, fun _ => rfl⟩) h
  · intro hover id
    have hcharged : Charged R (R.run {} ops) id :=
      Charged.run ops {} ⟨by simp, by simp, by simp [Known]⟩ hown hover
    have howned := Owned.of_run R id ops
    cases hrow : (R.run {} ops).jobs.lookup id with
    | none => simp [howned.unborn hrow]
    | some job =>
      rw [← howned.attempts job hrow]
      exact hcharged.bounded job hrow

/-- One failure reported, one retry. -/
def retried : List Op :=
  [.enqueue 0 {} none "OPTIMIZATION", .claim 7 none (fun _ => false),
    .fail ⟨0, none, "OPTIMIZATION", {}, 1⟩ 7 "TimeoutError" false, .tick 1000000,
    .claim 8 none (fun _ => false), .complete 0 8]

theorem attempts_bounded_retried : JobRepository.Along {} ownJob {} retried ∧
    ∀ id, (JobRepository.claimants {} id {} retried).length ≤ 5 := by
  have hown : JobRepository.Along {} ownJob {} retried := by decide +kernel
  exact ⟨hown, (attempts_bounded_iff {} retried hown).mpr (by decide +kernel)⟩

/-- Workers that die without a word: the job is claimed a sixth time. -/
theorem not_attempts_bounded :
    ¬ ∀ (ops : List Op) (id : JobId), JobRepository.Along {} ownJob {} ops →
      (JobRepository.claimants {} id {} ops).length ≤ ({} : JobRepository).maxAttempts := by
  intro h
  have hsix := h (.enqueue 0 {} none "OPTIMIZATION" ::
    (List.range 6).flatMap (fun w => [.claim w none (fun _ => false), .tick 30000000])) 0
    (by decide +kernel)
  revert hsix
  decide +kernel

end NoSQLOptimizer.Worker
