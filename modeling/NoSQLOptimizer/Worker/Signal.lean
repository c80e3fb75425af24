import NoSQLOptimizer.ControlPlane.Prepared
import NoSQLOptimizer.Worker.Service

namespace NoSQLOptimizer.Worker

open Adapters ControlPlane Concurrency Production

variable {τ : Type}

/-- The job in the worker's hands has been claimed again. -/
def reclaimed (s : Fleet τ) (worker : WorkerId) : Bool :=
  (s.queue.job worker).any (fun job =>
    (s.queue.jobs.lookup job.id).any (fun row => job.attempts < row.attempts))

/-- No heartbeat call of the worker raises, but where its lease is already known to be lost. -/
def Unfailing (worker : WorkerId) (c : Config Move (Fleet τ) Error WorkerId) :
    Event WorkerId (Option String × (JobId → Bool)) (Outside τ) → Prop
  | .env (.heartbeat w (.raised _)) => w = worker → c.shared.world.leaseLost worker = true
  | _ => True

/-- The worker's action creates an index. -/
def CreatesIndex : Move → Prop
  | .service l => Creates l
  | _ => False

abbrev Lost (worker : WorkerId) (s : Fleet τ) : Prop := s.world.leaseLost worker = true

theorem lost_setLost {w worker : WorkerId} {s : Fleet τ} (h : Lost w s) :
    Lost w (s.setLost worker true) := by
  by_cases hw : w = worker
  · simp [Lost, Fleet.setLost, hw]
  · simpa [Lost, Fleet.setLost, hw] using h

/-- The queue goes on by calls of the repository. -/
def Queued (R : JobRepository) (s t : Fleet τ) : Prop :=
  t.queue = s.queue ∨ ∃ op, t.queue = R.step s.queue op

/-- What an action of the worker leaves to the others. -/
structure Minds (R : JobRepository) (worker : WorkerId) (s t : Fleet τ) : Prop where
  queued : Queued R s t
  lost : ∀ w, w ≠ worker → t.world.leaseLost w = s.world.leaseLost w
  loop : ∀ w, w ≠ worker → t.loop w = s.loop w

/-- What an action between the claim and the exit leaves as it is. -/
structure Stays (R : JobRepository) (s t : Fleet τ) : Prop where
  queued : Queued R s t
  lost : t.world.leaseLost = s.world.leaseLost
  loop : t.loop = s.loop

theorem Stays.minds {R : JobRepository} {s t : Fleet τ} (h : Stays R s t) (worker : WorkerId) :
    Minds R worker s t :=
  ⟨h.queued, fun _ _ => by rw [h.lost], fun _ _ => by rw [h.loop]⟩

section

variable (A : DatabaseAdapter τ) (worker : WorkerId)

theorem Script.run_keeps (script : Script τ) :
    Does (fun _ s t => t.leaseLost = s.leaseLost) (script.run A worker) := by
  have hacts : ∀ {P : RunId → Label → World τ → World τ → Prop} {r : RunId} {l : Label}
      {s t : World τ}, Acts A P r l s t → t.leaseLost = s.leaseLost := by
    rintro P r l s t (⟨-, h⟩ | ⟨-, h⟩)
    · rw [h.frame]
    · rw [h]
  induction script with
  | done => trivial
  | raise e => trivial
  | ensureLeaseOwned k ih =>
    refine Does.bind ?_ (fun _ => ih)
    exact (ensureLeaseOwned_reads worker).mono (fun _ _ _ h => by rw [h.2]) (fun _ h => h)
  | stage r f k ih => exact fun s => ⟨rfl, ih s⟩
  | deploy r k ih =>
    refine Does.bind (Process.Always.attempt ?_) (fun outcome => ih outcome)
    exact (deployForRun_acts A worker r).mono (fun _ _ _ h => hacts h) (fun _ h => h)
  | rollback r k ih =>
    refine Does.bind (Process.Always.attempt ?_) (fun outcome => ih outcome)
    exact (rollbackForRun_acts A worker r).mono (fun _ _ _ h => hacts h) (fun _ h => h)

theorem Script.run_heeds (script : Script τ) : Heeds worker (script.run A worker) := by
  induction script with
  | done => exact .ret _
  | raise e => exact .fail e
  | ensureLeaseOwned k ih => exact .bind ensureLeaseOwned_heeds (fun _ => ih)
  | stage r f k ih => exact .act (not_creates rfl) ih
  | deploy r k ih => exact .bind (.attempt (deployForRun_heeds A r)) ih
  | rollback r k ih => exact .bind (.attempt (rollbackForRun_heeds A r)) ih

variable (R : JobRepository) (job : ClaimedJob)

theorem completeJob_stays : (completeJob (τ := τ) R worker job).Always (fun _ => Stays R)
    (fun _ => True) :=
  fun _ => ⟨⟨.inr ⟨.complete job.id worker, rfl⟩, rfl, rfl⟩, trivial⟩

theorem failJob_stays (error : String) (permanent : Bool) :
    (failJob (τ := τ) R worker job error permanent).Always (fun _ => Stays R) (fun _ => True) := by
  refine fun s => ⟨⟨.inr ⟨.fail job worker error permanent, rfl⟩, rfl, rfl⟩, ?_⟩
  dsimp only
  split <;> trivial

theorem finishJob_stays : (finishJob (τ := τ) R worker job).Always (fun _ => Stays R)
    (fun _ => True) := by
  refine Process.Always.bind (Q := fun _ => True)
    (Process.Always.read _ _ (fun _ => ⟨.inl rfl, rfl, rfl⟩) (fun _ => trivial))
    (fun lost _ => ?_) (fun _ _ => trivial)
  cases lost with
  | true => trivial
  | false =>
    refine (completeJob_stays worker R job).bind (fun completed _ => ?_) (fun _ _ => trivial)
    cases completed <;> trivial

theorem reportFailure_stays (e : Error) :
    (reportFailure (τ := τ) R worker job e).Always (fun _ => Stays R) (fun _ => True) := by
  cases e <;> first | trivial | exact failJob_stays worker R job _ _

theorem handleJob_stays (handler : ClaimedJob → Script τ) :
    (handleJob R worker A handler job).Always (fun _ => Stays R) (fun _ => True) := by
  refine Process.Always.rescue ?_ (fun _ => trivial) (reportFailure_stays worker R job)
  refine Process.Always.bind (Q := fun _ => True) ?_ (fun _ _ => finishJob_stays worker R job)
    (fun _ _ => trivial)
  refine (Script.run_keeps A worker (handler job)).lift (fun l s t s' hs h => ?_)
  subst hs
  exact ⟨.inl rfl, h, rfl⟩

theorem handleJob_fences (handler : ClaimedJob → Script τ) :
    (handleJob R worker A handler job).Fences (Lost worker) CreatesIndex := by
  have hscript : (((handler job).run A worker).lift Move.service Fleet.world
      (fun w (s : Fleet τ) => { s with world := w })).Fences (Lost worker) CreatesIndex :=
    Process.Fences.lift (fun w : World τ => w.leaseLost worker = true) (Script.run_heeds A worker (handler job))
  refine .rescue (.bind hscript (fun _ => ?_)) (fun e => ?_)
  · refine .bind (.act id (fun s => .ret _)) (fun lost => ?_)
    cases lost with
    | true => exact .fail _
    | false =>
      refine .bind (.act id (fun s => .ret _)) (fun completed => ?_)
      cases completed
      · exact .fail _
      · exact .ret _
  · have hfail : ∀ error permanent, (failJob (τ := τ) R worker job error permanent).Fences
        (Lost worker) CreatesIndex := by
      refine fun error permanent => .act id (fun s => ?_)
      split
      · exact .ret _
      · exact .fail _
    cases e <;> first | exact hfail _ _ | exact .fail _

theorem runOnce_minds (handler : ClaimedJob → Script τ) (tag : Option String)
    (locked : JobId → Bool) :
    (runOnce R worker A handler tag locked).Always (fun _ => Minds R worker) (fun _ => True) := by
  refine Process.Always.bind (Q := fun _ => True) (fun s => ⟨?_, trivial⟩) (fun taken _ => ?_)
    (fun _ _ => trivial)
  · dsimp only
    split
    · exact ⟨.inr ⟨.claim worker tag locked, rfl⟩, fun w hw => by simp [Fleet.setLost, Fleet.setLoop, hw],
        fun w hw => by simp [Fleet.setLost, Fleet.setLoop, hw]⟩
    · exact ⟨.inr ⟨.claim worker tag locked, rfl⟩, fun _ _ => rfl, fun _ _ => rfl⟩
  · cases taken with
    | none => trivial
    | some job =>
      refine Process.Always.onExit ((handleJob_stays A worker R job handler).mono
        (fun _ _ _ h => h.minds worker) (fun _ h => h)) ?_ (fun _ => trivial)
      exact fun s => ⟨⟨.inl rfl, fun _ _ => rfl, fun w hw => by simp [Fleet.setLoop, hw]⟩, trivial⟩

end

/-- What the worker has still to do between its claim and its exit. -/
def InSession (R : JobRepository) (worker : WorkerId) (p : Shift τ PUnit) : Prop :=
  ∃ q : Shift τ PUnit, p = q.onExit (exitSession worker) ∧
    q.Always (fun _ => Stays R) (fun _ => True) ∧ q.Fenced (Lost worker) CreatesIndex

section

variable {R : JobRepository} {worker : WorkerId} {l : Move} {u : Fleet τ → Fleet τ}
  {k : Fleet τ → Shift τ PUnit}

theorem InSession.fenced {p : Shift τ PUnit} (h : InSession R worker p) :
    p.Fenced (Lost worker) CreatesIndex := by
  obtain ⟨q, rfl, -, hq⟩ := h
  exact hq.onExit (.act id (fun _ => .ret _))

theorem settle_onExit {q : Shift τ PUnit} :
    (q.onExit (exitSession worker)).settle = some (q.onExit (exitSession worker)) := by
  cases q <;> rfl

/-- One action on: the exit is the last. -/
theorem InSession.next (h : InSession R worker (.act l u k)) (s : Fleet τ) :
    (u s).world.leaseLost = s.world.leaseLost ∧
      ∀ p, (k s).settle = some p → InSession R worker p ∧ (u s).loop = s.loop := by
  obtain ⟨q, hq, hstays, hfenced⟩ := h
  cases q with
  | ret a =>
    cases hq
    exact ⟨rfl, nofun⟩
  | fail e =>
    cases hq
    exact ⟨rfl, nofun⟩
  | act l' u' k' =>
    cases hq
    refine ⟨(hstays s).1.lost, fun p hp => ?_⟩
    cases settle_onExit.symm.trans hp
    exact ⟨⟨k' s, rfl, (hstays s).2, (hfenced s).2⟩, (hstays s).1.loop⟩

end

/-- Whatever has ended the loop, the worker knows of it. -/
def Attends (worker : WorkerId) (s : Fleet τ) : Prop := s.loop worker ≠ .sleeping → Lost worker s

theorem Queued.known {R : JobRepository} {s t : Fleet τ} (h : Queued R s t)
    (hs : ∀ id, Known s.queue id) (id : JobId) : Known t.queue id := by
  rcases h with h | ⟨op, h⟩
  · exact h ▸ hs id
  · exact h ▸ (hs id).step op

section

variable {R : JobRepository} {worker : WorkerId} {s : Fleet τ}

/-- Answered `false`, the loop has the lease lost; answered `true`, it goes on, or stops for a lease
known to be lost. -/
theorem heartbeat_attends {beat : Beat} (hs : Attends worker s)
    (hraised : ∀ b, beat = .raised b → Lost worker s) :
    Attends worker (s.heartbeat R worker beat) := by
  unfold Fleet.heartbeat
  split
  · split
    · split
      · intro hloop
        by_contra hlost
        simp [Fleet.setLoop, Lost] at hloop hlost
        simp [hlost] at hloop
      · exact fun _ => by simp [Lost, Fleet.setLoop, Fleet.setLost]
    · next b =>
      intro _
      have hlost := hraised b rfl
      cases b <;> exact hlost
  · exact hs

theorem heartbeat_minds (beat : Beat) : Minds R worker s (s.heartbeat R worker beat) := by
  unfold Fleet.heartbeat
  split
  · next job _ _ =>
    split
    · split
      · exact ⟨.inr ⟨.heartbeat job.id worker, rfl⟩, fun _ _ => rfl,
          fun w hw => by simp [Fleet.setLoop, hw]⟩
      · exact ⟨.inr ⟨.heartbeat job.id worker, rfl⟩, fun w hw => by simp [Fleet.setLoop, Fleet.setLost, hw],
          fun w hw => by simp [Fleet.setLoop, Fleet.setLost, hw]⟩
    · next committed =>
      cases committed
      · exact ⟨.inl rfl, fun _ _ => rfl, fun w hw => by simp [Fleet.setLoop, hw]⟩
      · exact ⟨.inr ⟨.heartbeat job.id worker, rfl⟩, fun _ _ => rfl,
          fun w hw => by simp [Fleet.setLoop, hw]⟩
  · exact ⟨.inl rfl, fun _ _ => rfl, fun _ _ => rfl⟩

theorem heartbeat_lost {w : WorkerId} (beat : Beat) (h : Lost w s) :
    Lost w (s.heartbeat R worker beat) := by
  unfold Fleet.heartbeat
  split
  · split
    · split
      · exact h
      · by_cases hw : w = worker
        · subst hw
          simp [Lost, Fleet.setLoop, Fleet.setLost]
        · simpa [Lost, Fleet.setLoop, Fleet.setLost, hw] using h
    · next committed => cases committed <;> exact h
  · exact h

/-- Once the job is claimed again, a heartbeat is answered `false`. -/
theorem heartbeat_reclaimed {beat : Beat} (hknown : ∀ id, Known s.queue id)
    (hreclaimed : reclaimed s worker = true) (hsleeping : s.loop worker = .sleeping)
    (hraised : ∀ b, beat = .raised b → Lost worker s) : Lost worker (s.heartbeat R worker beat) := by
  obtain ⟨job, hjob, hrow⟩ := (Option.any_eq_true _ _).mp hreclaimed
  obtain ⟨row, hrow, hlt⟩ := (Option.any_eq_true _ _).mp hrow
  cases beat with
  | raised b => exact heartbeat_lost _ (hraised b rfl)
  | answered =>
    have hrefused : R.heartbeat s.queue.now job.id worker s.queue.jobs = (false, s.queue.jobs) := by
      refine refused_of_not_leased (fun row' hrow' => ?_)
      obtain rfl : row = row' := Option.some_inj.mp (hrow.symm.trans hrow')
      refine Bool.eq_false_iff.mpr (fun hleased => ?_)
      have hattempts := hknown job.id row worker job hrow
        (Bool.and_eq_true_iff.mp hleased).1 hjob rfl
      exact absurd (of_decide_eq_true hlt) (by omega)
    simp [Fleet.heartbeat, hsleeping, hjob, hrefused, Lost, Fleet.setLoop, Fleet.setLost]

end

section

variable (A : DatabaseAdapter τ) (R : JobRepository) (handler : ClaimedJob → Script τ)
  (worker : WorkerId)

/-- What holds of the workers, and of this one's session, at any time. -/
structure Manned (c : Config Move (Fleet τ) Error WorkerId) : Prop where
  known : ∀ id, Known c.shared.queue id
  minds : ∀ w p, c.pool w = some p → p.Always (fun _ => Minds R w) (fun _ => True)
  session : ∀ p, c.pool worker = some p →
    (∃ tag locked, p = runOnce R worker A handler tag locked) ∨
      InSession R worker p ∧ Attends worker c.shared

variable {A R handler worker} {c c' : Config Move (Fleet τ) Error WorkerId}
  {e : Event WorkerId (Option String × (JobId → Bool)) (Outside τ)}

theorem Manned.quiet {s : Fleet τ} (h : ∀ id, Known s.queue id) :
    Manned A R handler worker (.quiet s) :=
  ⟨h, nofun, nofun⟩

/-- The first action of `run_once`. -/
theorem runOnce_claims {tag : Option String} {locked : JobId → Bool} {l : Move}
    {u : Fleet τ → Fleet τ} {k : Fleet τ → Shift τ PUnit}
    (h : Process.act l u k = runOnce R worker A handler tag locked) (s : Fleet τ) :
    l = .claim ∧ ∀ p, (k s).settle = some p → InSession R worker p ∧ Attends worker (u s) := by
  obtain ⟨rfl, rfl, rfl⟩ : l = .claim ∧ u = _ ∧ k = _ := by
    simpa only [runOnce, claimJob, Process.bind_def, Process.act_bind, Process.act.injEq] using h
  refine ⟨rfl, fun p hp => ?_⟩
  cases htaken : R.taken s.queue (.claim worker tag locked) with
  | none =>
    simp only [htaken, Option.map_none, Process.ret_bind] at hp
    cases hp
  | some t =>
    simp only [htaken, Option.map_some, Process.ret_bind, settle_onExit, Option.some.injEq] at hp
    subst hp
    refine ⟨⟨_, rfl, handleJob_stays A worker R t.2 handler,
      (handleJob_fences A worker R t.2 handler).tail⟩, fun hloop => ?_⟩
    simp [htaken, Fleet.setLoop] at hloop

theorem Manned.next (h : Manned A R handler worker c) (hu : Unfailing worker c e)
    (hn : (workers A R handler).next c e = some c') : Manned A R handler worker c' := by
  -- of another worker's action, or of anything outside, this one's session sees at most its queue
  have hminds : ∀ (w : WorkerId) (p : Shift τ PUnit),
      p.Always (fun _ => Minds R w) (fun _ => True) → ∀ v q,
        (Function.update c.pool w p.settle) v = some q →
          q.Always (fun _ => Minds R v) (fun _ => True) := by
    intro w p hp v q hq
    by_cases hv : v = w
    · subst hv
      rw [Function.update_self] at hq
      cases p <;> cases hq
      exact hp
    · exact h.minds v q (by simpa [hv] using hq)
  cases e with
  | start w k =>
    simp only [System.next] at hn
    split at hn <;> cases hn
    refine ⟨h.known, hminds w _ (runOnce_minds A w R handler k.1 k.2), fun p hp => ?_⟩
    by_cases hw : worker = w
    · subst hw
      simp only [Function.update_self] at hp
      cases hp
      exact .inl ⟨k.1, k.2, rfl⟩
    · exact h.session p (by simpa [hw] using hp)
  | step w =>
    simp only [System.next] at hn
    split at hn <;> cases hn
    next l u k hpool =>
    have hact := h.minds w _ hpool c.shared
    refine ⟨hact.1.queued.known h.known, hminds w _ hact.2, fun p hp => ?_⟩
    by_cases hw : worker = w
    · subst hw
      simp only [Function.update_self] at hp
      rcases h.session _ hpool with ⟨tag, locked, hclaim⟩ | ⟨hin, hattends⟩
      · exact .inr ((runOnce_claims hclaim c.shared).2 p hp)
      · obtain ⟨hlost, hnext⟩ := hin.next c.shared
        obtain ⟨hin', hloop⟩ := hnext p hp
        refine .inr ⟨hin', fun hl => ?_⟩
        rw [Lost, hlost]
        exact hattends (by rwa [hloop] at hl)
    · refine (h.session p (by simpa [hw] using hp)).imp_right (fun hin => ⟨hin.1, ?_⟩)
      intro hl
      rw [Lost, hact.1.lost worker hw]
      exact hin.2 (by rwa [hact.1.loop worker hw] at hl)
  | crash w =>
    simp only [System.next] at hn
    split at hn <;> cases hn
    refine ⟨h.known, hminds w (.ret ⟨⟩) trivial, fun p hp => ?_⟩
    by_cases hw : worker = w
    · simp [hw] at hp
    · refine (h.session p (by simpa [hw] using hp)).imp_right (fun hin => ⟨hin.1, ?_⟩)
      intro hl
      exact hin.2 (by simpa [workers, Fleet.setLoop, hw] using hl)
  | env e =>
    cases hn
    have hquiet : ∀ t : Fleet τ, Queued R c.shared t → (Attends worker c.shared → Attends worker t) →
        Manned A R handler worker { c with shared := t } := fun t hq ha =>
      ⟨hq.known h.known, h.minds, fun p hp => (h.session p hp).imp_right (fun hin => ⟨hin.1, ha hin.2⟩)⟩
    cases e with
    | heartbeat w beat =>
      refine hquiet _ (heartbeat_minds beat).queued (fun hattends => ?_)
      by_cases hw : worker = w
      · subst hw
        refine heartbeat_attends hattends (fun b hb => ?_)
        subst hb
        exact hu rfl
      · have hother : Minds R w c.shared (c.shared.heartbeat R w beat) := heartbeat_minds beat
        intro hl
        exact (hother.lost worker hw).trans
          (hattends (fun hs => hl ((hother.loop worker hw).trans hs)))
    | stopping w =>
      refine hquiet _ (.inl rfl) (fun hattends hl => ?_)
      exact lost_setLost (hattends hl)
    | tick d => exact hquiet _ (.inr ⟨.tick d, rfl⟩) (fun ha => ha)
    | enqueue id payload run kind => exact hquiet _ (.inr ⟨.enqueue id payload run kind, rfl⟩) (fun ha => ha)
    | world f => exact hquiet _ (.inl rfl) (fun ha => ha)

variable (A R handler worker)

/-- The lease of the worker is known to be lost, in the midst of its session. -/
structure Warned (c : Config Move (Fleet τ) Error WorkerId) : Prop where
  manned : Manned A R handler worker c
  inSession : ∀ p, c.pool worker = some p → InSession R worker p
  lost : Lost worker c.shared

/-- From here on every check of the lease raises, and no index is created unless that was already
the next action. -/
def Signalled (c : Config Move (Fleet τ) Error WorkerId) : Prop :=
  ∀ c', (workers A R handler).Reach
      (fun d e => Unfailing worker d e ∧ ∀ k, e ≠ .start worker k) c c' →
    (ensureLeaseOwned worker).run c'.shared.world = (.error .leaseLost, c'.shared.world) ∧
    ((∀ m, c.label worker = some m → ¬ CreatesIndex m) →
      ∀ m, c'.label worker = some m → ¬ CreatesIndex m)

variable {A R handler worker}

theorem Warned.next (h : Warned A R handler worker c) (hu : Unfailing worker c e)
    (he : ∀ k, e ≠ .start worker k) (hn : (workers A R handler).next c e = some c') :
    Warned A R handler worker c' := by
  have hmanned := h.manned.next hu hn
  cases e with
  | start w k =>
    simp only [System.next] at hn
    split at hn <;> cases hn
    have hw : worker ≠ w := fun hw => he k (by rw [hw])
    exact ⟨hmanned, fun p hp => h.inSession p (by simpa [hw] using hp), h.lost⟩
  | step w =>
    simp only [System.next] at hn
    split at hn <;> cases hn
    next l u k hpool =>
    by_cases hw : worker = w
    · subst hw
      obtain ⟨hlost, hnext⟩ := (h.inSession _ hpool).next c.shared
      exact ⟨hmanned, fun p hp => (hnext p (by simpa using hp)).1, by
        rw [Lost, hlost]
        exact h.lost⟩
    · exact ⟨hmanned, fun p hp => h.inSession p (by simpa [hw] using hp),
        ((h.manned.minds w _ hpool c.shared).1.lost worker hw).trans h.lost⟩
  | crash w =>
    simp only [System.next] at hn
    split at hn <;> cases hn
    refine ⟨hmanned, fun p hp => ?_, h.lost⟩
    by_cases hw : worker = w
    · simp [hw] at hp
    · exact h.inSession p (by simpa [hw] using hp)
  | env e =>
    cases hn
    refine ⟨hmanned, h.inSession, ?_⟩
    cases e with
    | heartbeat w beat => exact heartbeat_lost beat h.lost
    | stopping w => exact lost_setLost h.lost
    | _ => exact h.lost

theorem Warned.signalled (h : Warned A R handler worker c) : Signalled A R handler worker c := by
  intro c' hr
  have hwarned : Warned A R handler worker c' ∧
      ((∀ m, c.label worker = some m → ¬ CreatesIndex m) →
        c'.Barred (Lost worker) CreatesIndex worker) := by
    refine hr.invariant (I := fun d => Warned A R handler worker d ∧
      ((∀ m, c.label worker = some m → ¬ CreatesIndex m) →
        d.Barred (Lost worker) CreatesIndex worker))
      ⟨h, fun hlabel => ⟨h.lost, fun p hp => ⟨(h.inSession p hp).fenced, ?_⟩⟩⟩
      (fun d e d' hd hP hn => ?_)
    · intro hnext
      cases p with
      | act l u k => exact hlabel l (by simp [Config.label, hp, Process.label]) hnext
      | _ => exact hnext
    · have hd' := hd.1.next hP.1 hP.2 hn
      exact ⟨hd', fun hlabel => (hd.2 hlabel).next hP.2 hn hd'.lost⟩
  refine ⟨?_, fun hlabel m hm => (hwarned.2 hlabel).not_label hm⟩
  have hlost := hwarned.1.lost
  simp only [Lost] at hlost
  simp [ensureLeaseOwned, Process.read, hlost]

end

/-- As long as no heartbeat call of the worker raises: when its job has been claimed again, and its
loop has ended or makes one more call, the worker knows. -/
theorem lease_loss_signalled (A : DatabaseAdapter τ) (R : JobRepository)
    (handler : ClaimedJob → Script τ) (worker : WorkerId) (world : World τ)
    {c : Config Move (Fleet τ) Error WorkerId}
    (hr : (workers A R handler).Reach (Unfailing worker) (.quiet { world := world }) c) {m : Move}
    (hm : c.label worker = some m) (hin : m ≠ .claim) (hreclaimed : reclaimed c.shared worker = true) :
    (c.shared.loop worker ≠ .sleeping → Signalled A R handler worker c) ∧
      ∀ beat c', c.shared.loop worker = .sleeping →
        Unfailing worker c (.env (.heartbeat worker beat)) →
        (workers A R handler).next c (.env (.heartbeat worker beat)) = some c' →
        Signalled A R handler worker c' := by
  have hmanned : Manned A R handler worker c :=
    hr.invariant (.quiet (fun id => by simp [Known])) (fun _ _ _ h hu hn => h.next hu hn)
  obtain ⟨p, hp, hlabel⟩ := Option.bind_eq_some_iff.mp hm
  have hsession : InSession R worker p ∧ Attends worker c.shared := by
    refine (hmanned.session p hp).resolve_left (fun ⟨tag, locked, hclaim⟩ => hin ?_)
    cases p with
    | act l u k =>
      obtain ⟨rfl, -⟩ := runOnce_claims hclaim c.shared
      exact (Option.some_inj.mp hlabel).symm
    | _ => cases hlabel
  have hin' : ∀ q, c.pool worker = some q → InSession R worker q := fun q hq =>
    Option.some_inj.mp (hp.symm.trans hq) ▸ hsession.1
  refine ⟨fun hloop => Warned.signalled (c := c) ⟨hmanned, hin', hsession.2 hloop⟩,
    fun beat c' hsleeping hu hn => ?_⟩
  have hmanned' := hmanned.next hu hn
  cases hn
  refine Warned.signalled ⟨hmanned', hin', ?_⟩
  exact heartbeat_reclaimed hmanned.known hreclaimed hsleeping (fun b hb => by
    subst hb
    exact hu rfl)

/-- Two workers and one job, which deploys the prepared run. -/
def preparedWorkers : System Move (Fleet MongoDatabase) Error WorkerId
    (Option String × (JobId → Bool)) (Outside MongoDatabase) :=
  workers mongodb {} (fun job => .deploy (job.optimizationRunId.getD 0) (fun _ => .done))

def preparedFleet : Fleet MongoDatabase := { world := Preparation.world {} (preparedCollection []) }

/-- Worker 0 has claimed the job and begun to deploy; its lease runs out, and worker 1 claims the job. -/
def preparedTakeover (steps : Nat) (meanwhile : List (Outside MongoDatabase)) :
    List (Event WorkerId (Option String × (JobId → Bool)) (Outside MongoDatabase)) :=
  .env (.enqueue 0 {} (some 0) "OPTIMIZATION") ::
    (Event.calls 0 (none, fun _ => false) steps ++
      ((meanwhile ++ [Outside.tick 30000000]).map .env ++ Event.calls 1 (none, fun _ => false) 1))

/-- No heartbeat fails. -/
def unfailing : Event WorkerId (Option String × (JobId → Bool)) (Outside MongoDatabase) → Bool
  | .env (.heartbeat _ (.raised _)) => false
  | _ => true

/-- The heartbeat after the takeover is answered: the deployment of worker 0 goes no further. -/
theorem lease_loss_signalled_prepared :
    ∃ c c', preparedWorkers.Reach (Unfailing 0) (.quiet preparedFleet) c ∧
      reclaimed c.shared 0 = true ∧
      preparedWorkers.next c (.env (.heartbeat 0 .answered)) = some c' ∧
      Signalled mongodb {} (fun job => .deploy (job.optimizationRunId.getD 0) (fun _ => .done)) 0 c' := by
  have hrun : (preparedWorkers.exec (fun _ => unfailing) (preparedTakeover 5 []) (.quiet preparedFleet)).map
        (fun c => (c.label 0, reclaimed c.shared 0, c.shared.loop 0)) =
      some (some (.service (.tryAcquire .deployment 0)), true, .sleeping) := by decide +kernel
  obtain ⟨c, hr, hc⟩ := System.Reach.of_exec_map (P := Unfailing 0) (fun e _ c he => by
    unfold Unfailing
    split
    · cases he
    · trivial) hrun
  obtain ⟨hlabel, hc⟩ := Prod.mk.inj hc
  obtain ⟨hreclaimed, hloop⟩ := Prod.mk.inj hc
  exact ⟨c, _, hr, hreclaimed, rfl,
    (lease_loss_signalled mongodb {} _ 0 _ hr hlabel nofun hreclaimed).2 .answered _ hloop trivial
      rfl⟩

/-- A heartbeat call has raised, and with it the loop has ended: nobody tells worker 0 of the takeover,
and it goes on to create the index. -/
theorem not_lease_loss_signalled :
    ¬ ∀ c m, preparedWorkers.Reach (fun _ _ => True) (.quiet preparedFleet) c →
      c.label 0 = some m → m ≠ .claim → reclaimed c.shared 0 = true → c.shared.loop 0 ≠ .sleeping →
      (ensureLeaseOwned 0).run c.shared.world = (.error .leaseLost, c.shared.world) ∧
        ¬ CreatesIndex m := by
  intro h
  have hrun : (preparedWorkers.exec (fun _ _ => true)
      (preparedTakeover 18 [.heartbeat 0 (.raised false)]) (.quiet preparedFleet)).map
        (fun c => (c.label 0, reclaimed c.shared 0, c.shared.loop 0)) =
      some (some (.service (.createIndex 0 ⟨"orders"⟩ preparedAction.toIndexSpec)), true, .raised) := by
    decide +kernel
  obtain ⟨c, hr, hc⟩ := System.Reach.of_exec_map (P := fun _ _ => True) (fun _ _ _ _ => trivial) hrun
  obtain ⟨hlabel, hc⟩ := Prod.mk.inj hc
  obtain ⟨hreclaimed, hloop⟩ := Prod.mk.inj hc
  exact (h c _ hr hlabel nofun hreclaimed (by simp [hloop])).2 ⟨_, _, _, rfl⟩

end NoSQLOptimizer.Worker
