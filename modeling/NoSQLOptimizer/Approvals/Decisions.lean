import NoSQLOptimizer.Approvals.Durable
import NoSQLOptimizer.ControlPlane.Rows

namespace NoSQLOptimizer.Approvals.Durable

open ControlPlane Concurrency Transactions

/-- No approval of a run is decided by the method that leaves the run where it is. -/
def Unbound (b : Query) (t : Tables) : Prop :=
  ∀ id, b = .selectApproval .approve id → ∀ a, t.approval id = some a → a.optimizationRunId = none

/-- The decision of an approval: by someone else than who requested it, before it expires. -/
def DecisionRow.Decides (d : DecisionRow) (a : ApprovalRow) : Prop :=
  d.approvalRequestId = a.id ∧ d.decision = a.status ∧ d.decidedByUserId ≠ a.requestedByUserId ∧
    d.createdAt < a.expiresAt

/-- What holds of the tables at every commit. -/
structure Consistent (t : Tables) : Prop where
  ids : (t.approvals.map (·.id)).Nodup
  bound : ∀ a ∈ t.approvals, ∀ b ∈ t.approvals, ∀ r, a.optimizationRunId = some r →
    b.optimizationRunId = some r → a = b
  once : (t.decisions.map (·.approvalRequestId)).Nodup
  pending : ∀ d ∈ t.decisions, ∀ a ∈ t.approvals, a.id = d.approvalRequestId → a.status ≠ .pending
  known : ∀ d ∈ t.decisions, ∃ a ∈ t.approvals, a.id = d.approvalRequestId
  decided : ∀ a ∈ t.approvals, a.status ≠ .pending → ∃ d ∈ t.decisions, d.Decides a
  approved : ∀ a ∈ t.approvals, ∀ r, a.optimizationRunId = some r → a.status = .approved →
    (t.continuations r).length = 1
  rejected : ∀ a ∈ t.approvals, ∀ r, a.optimizationRunId = some r → a.status = .rejected →
    ∃ run, t.runs r = some run ∧ run.status = .completed ∧
      run.completionReason = some .approvalRejected
  continued : ∀ r, t.continuations r ≠ [] → ∃ a ∈ t.approvals, a.optimizationRunId = some r ∧
    a.status = .approved

/-- A commit that approves a run's approval moves the run with it, and leaves it one continuation. -/
def ApprovesRun (t u : Tables) : Prop :=
  ∀ a ∈ u.approvals, ∀ r, a.optimizationRunId = some r → a.status = .approved →
    (t.approval a.id).map (·.status) ≠ some .approved →
    (t.runs r).map (·.status) = some .approvalPending ∧
      (u.runs r).map (·.status) = some .approved ∧ (u.continuations r).length = 1

section

variable {t : Tables} {a : ApprovalRow} {d : DecisionRow}

theorem Consistent.approval (h : Consistent t) (ha : a ∈ t.approvals) :
    t.approval a.id = some a :=
  find?_eq_some_of_key h.ids ha (fun _ => decide_eq_true_iff)

/-- The rows once one approval is decided: it, and all the others as they were. -/
theorem mem_decided {b : ApprovalRow} (h : Consistent t) (ha : a ∈ t.approvals)
    {status : ControlPlane.ApprovalStatus} (hb : b ∈ t.approvals.map (·.decided a.id status)) :
    b = { a with status := status } ∨ b ∈ t.approvals ∧ b.id ≠ a.id := by
  obtain ⟨c, hc, rfl⟩ := List.mem_map.mp hb
  unfold ApprovalRow.decided
  split
  · next hid =>
    obtain rfl := List.inj_on_of_nodup_map h.ids hc ha hid
    exact .inl rfl
  · next hid => exact .inr ⟨hc, hid⟩

/-- One decision of a pending approval, with what it does to the run of the approval. -/
theorem Consistent.decide (h : Consistent t) (ha : a ∈ t.approvals) (hpending : a.status = .pending)
    (hd : d.approvalRequestId = a.id) (hdecision : d.decision ≠ .pending)
    (hother : d.decidedByUserId ≠ a.requestedByUserId) (hbefore : d.createdAt < a.expiresAt)
    {runs : RunId → Option OptimizationRun} {jobs : List Job}
    (hruns : ∀ r, a.optimizationRunId ≠ some r → runs r = t.runs r)
    (hjobs : ∀ r, a.optimizationRunId ≠ some r → jobs.filter (continues r) = t.continuations r)
    (happroved : ∀ r, a.optimizationRunId = some r → d.decision = .approved →
      (jobs.filter (continues r)).length = 1)
    (hrejected : ∀ r, a.optimizationRunId = some r → d.decision = .rejected →
      jobs.filter (continues r) = [] ∧ ∃ run, runs r = some run ∧ run.status = .completed ∧
        run.completionReason = some .approvalRejected) :
    Consistent ⟨t.approvals.map (·.decided a.id d.decision), t.decisions ++ [d], runs, jobs⟩ := by
  have hmem : { a with status := d.decision } ∈ t.approvals.map (·.decided a.id d.decision) :=
    List.mem_map.mpr ⟨a, ha, by simp [ApprovalRow.decided]⟩
  have hkept : ∀ b ∈ t.approvals, b.id ≠ a.id → b ∈ t.approvals.map (·.decided a.id d.decision) :=
    fun b hb hne => List.mem_map.mpr ⟨b, hb, by simp [ApprovalRow.decided, hne]⟩
  -- the run of another approval is another run
  have hrun : ∀ b ∈ t.approvals, b.id ≠ a.id → ∀ r, b.optimizationRunId = some r →
      a.optimizationRunId ≠ some r :=
    fun b hb hne r hbr har => hne (by rw [h.bound b hb a ha r hbr har])
  refine ⟨?_, ?_, ?_, ?_, ?_, ?_, ?_, ?_, ?_⟩
  · have hids : (t.approvals.map (·.decided a.id d.decision)).map (·.id) = t.approvals.map (·.id) := by
      rw [List.map_map]
      apply List.map_congr_left
      intro b _
      simp only [Function.comp, ApprovalRow.decided]
      split <;> rfl
    rw [hids]
    exact h.ids
  · intro b hb c hc r hbr hcr
    obtain rfl | ⟨hb, hbid⟩ := mem_decided h ha hb
    · obtain rfl | ⟨hc, hcid⟩ := mem_decided h ha hc
      · rfl
      · exact absurd hbr (hrun c hc hcid r hcr)
    · obtain rfl | ⟨hc, -⟩ := mem_decided h ha hc
      · exact absurd hcr (hrun b hb hbid r hbr)
      · exact h.bound b hb c hc r hbr hcr
  · refine nodup_map_concat h.once (fun e he heq => ?_)
    exact h.pending e he a ha (heq.trans hd).symm hpending
  · intro e he b hb hid
    rcases List.mem_append.mp he with he | he
    · obtain rfl | ⟨hb, -⟩ := mem_decided h ha hb
      · exact hdecision
      · exact h.pending e he b hb hid
    · obtain rfl := List.mem_singleton.mp he
      obtain rfl | ⟨-, hbid⟩ := mem_decided h ha hb
      · exact hdecision
      · exact absurd (hid.trans hd) hbid
  · intro e he
    rcases List.mem_append.mp he with he | he
    · obtain ⟨b, hb, hid⟩ := h.known e he
      by_cases hne : b.id = a.id
      · exact ⟨_, hmem, hne.symm.trans hid⟩
      · exact ⟨b, hkept b hb hne, hid⟩
    · obtain rfl := List.mem_singleton.mp he
      exact ⟨_, hmem, hd.symm⟩
  · intro b hb hstatus
    obtain rfl | ⟨hb, -⟩ := mem_decided h ha hb
    · exact ⟨d, List.mem_append_right _ List.mem_cons_self, hd, rfl, hother, hbefore⟩
    · obtain ⟨e, he, hdecides⟩ := h.decided b hb hstatus
      exact ⟨e, List.mem_append_left _ he, hdecides⟩
  · intro b hb r hbr hstatus
    obtain rfl | ⟨hb, hbid⟩ := mem_decided h ha hb
    · exact happroved r hbr hstatus
    · rw [Tables.continuations, hjobs r (hrun b hb hbid r hbr)]
      exact h.approved b hb r hbr hstatus
  · intro b hb r hbr hstatus
    obtain rfl | ⟨hb, hbid⟩ := mem_decided h ha hb
    · exact (hrejected r hbr hstatus).2
    · obtain ⟨run, hrunr, hended⟩ := h.rejected b hb r hbr hstatus
      exact ⟨run, (hruns r (hrun b hb hbid r hbr)).trans hrunr, hended⟩
  · intro r hr
    by_cases har : a.optimizationRunId = some r
    · refine ⟨_, hmem, har, ?_⟩
      cases hdec : d.decision with
      | pending => exact absurd hdec hdecision
      | approved => rfl
      | rejected => exact absurd (hrejected r har hdec).1 hr
    · rw [Tables.continuations, hjobs r har] at hr
      obtain ⟨b, hb, hbr, hstatus⟩ := h.continued r hr
      have hne : b.id ≠ a.id := by
        intro hid
        rw [List.inj_on_of_nodup_map h.ids hb ha hid] at hbr
        exact har hbr
      exact ⟨b, hkept b hb hne, hbr, hstatus⟩

/-- One request more, of a run that has none. -/
theorem Consistent.insert (h : Consistent t) (hpending : a.status = .pending)
    (hnew : t.approval a.id = none) (hbound : ∀ r, a.optimizationRunId = some r → t.bound r = []) :
    Consistent { t with approvals := t.approvals ++ [a] } := by
  have hid : ∀ b ∈ t.approvals, b.id ≠ a.id :=
    fun b hb => by simpa using List.find?_eq_none.mp hnew b hb
  have hrun : ∀ b ∈ t.approvals, ∀ r, b.optimizationRunId = some r →
      a.optimizationRunId ≠ some r := by
    intro b hb r hbr har
    have hmem : b ∈ t.bound r := List.mem_filter.mpr ⟨hb, decide_eq_true hbr⟩
    rw [hbound r har] at hmem
    cases hmem
  refine ⟨nodup_map_concat h.ids hid, ?_, h.once, ?_, ?_, ?_, ?_, ?_, ?_⟩
  · intro b hb c hc r hbr hcr
    rcases List.mem_append.mp hb with hb' | hb'
    · rcases List.mem_append.mp hc with hc' | hc'
      · exact h.bound b hb' c hc' r hbr hcr
      · rw [List.mem_singleton.mp hc'] at hcr
        exact absurd hcr (hrun b hb' r hbr)
    · rcases List.mem_append.mp hc with hc' | hc'
      · rw [List.mem_singleton.mp hb'] at hbr
        exact absurd hbr (hrun c hc' r hcr)
      · rw [List.mem_singleton.mp hb', List.mem_singleton.mp hc']
  · intro d hd b hb hbid
    rcases List.mem_append.mp hb with hb | hb
    · exact h.pending d hd b hb hbid
    · obtain rfl := List.mem_singleton.mp hb
      obtain ⟨c, hc, hcid⟩ := h.known d hd
      exact absurd (hcid.trans hbid.symm) (hid c hc)
  · intro d hd
    obtain ⟨b, hb, hbid⟩ := h.known d hd
    exact ⟨b, List.mem_append_left _ hb, hbid⟩
  · intro b hb hstatus
    rcases List.mem_append.mp hb with hb | hb
    · exact h.decided b hb hstatus
    · obtain rfl := List.mem_singleton.mp hb
      exact absurd hpending hstatus
  · intro b hb r hbr hstatus
    rcases List.mem_append.mp hb with hb | hb
    · exact h.approved b hb r hbr hstatus
    · obtain rfl := List.mem_singleton.mp hb
      rw [hpending] at hstatus
      cases hstatus
  · intro b hb r hbr hstatus
    rcases List.mem_append.mp hb with hb | hb
    · exact h.rejected b hb r hbr hstatus
    · obtain rfl := List.mem_singleton.mp hb
      rw [hpending] at hstatus
      cases hstatus
  · intro r hr
    obtain ⟨b, hb, hbr, hstatus⟩ := h.continued r hr
    exact ⟨b, List.mem_append_left _ hb, hbr, hstatus⟩

/-- A run that was completed stays where it is. -/
theorem Consistent.moves {u : Tables} (h : Consistent t) (hmoves : Moves t u) : Consistent u := by
  obtain ⟨r, run, next, reason, hrun, hnext, rfl⟩ := hmoves
  refine ⟨h.ids, h.bound, h.once, h.pending, h.known, h.decided, h.approved, ?_, h.continued⟩
  intro b hb q hbq hstatus
  obtain ⟨ended, hended, hcompleted, hreason⟩ := h.rejected b hb q hbq hstatus
  have hne : q ≠ r := by
    rintro rfl
    obtain rfl : ended = run := Option.some.inj (hended.symm.trans hrun)
    rw [hcompleted] at hnext
    cases hnext
  exact ⟨ended, (Function.update_of_ne hne _ _).trans hended, hcompleted, hreason⟩

end

section

variable {ι : Type} [DecidableEq ι] {ttl : Instant} {i : ι}

/-- The calls under row locks, where no approval of a run is decided by `approve`. -/
abbrev locking (ι : Type) [DecidableEq ι] (ttl : Instant) :
    Discipline (schema.conduct (call (ι := ι) ttl) (fun _ => Unbound) Moves) :=
  discipline _ schema Consistent ApprovesRun

theorem frame_approval {ks : List Key} {id : ApprovalId} (h : .approval id ∈ ks)
    (o : Option ApprovalRow) : Frame schema ks (fun t => t.approval id = o) :=
  fun _ _ hsame ht => (hsame _ h).symm.trans ht

theorem frame_run {ks : List Key} {r : RunId} (h : .run r ∈ ks) (o : Option OptimizationRun) :
    Frame schema ks (fun t => t.runs r = o) :=
  fun _ _ hsame ht => (hsame _ h).symm.trans ht

theorem frame_bound {ks : List Key} {r : RunId} (h : .bound r ∈ ks) :
    Frame schema ks (fun t => t.bound r = []) := by
  intro t u hsame ht
  have hids : (t.bound r).map (·.id) = (u.bound r).map (·.id) := hsame _ h
  rw [ht] at hids
  exact List.map_eq_nil_iff.mp hids.symm

/-- What is known of an approval that was selected. -/
def Selected (m : Method) (id : ApprovalId) (o : Option ApprovalRow) (t : Tables) : Prop :=
  (∀ a ∈ o, t.approval id = some a) ∧ (m = .approve → ∀ a ∈ o, a.optimizationRunId = none)

theorem frame_selected (m : Method) (id : ApprovalId) (o : Option ApprovalRow) :
    Frame schema (o.toList.map (fun _ => .approval id)) (Selected m id o) := by
  intro t u hsame ht
  refine ⟨fun a ha => ?_, ht.2⟩
  obtain rfl := Option.mem_def.mp ha
  exact frame_approval List.mem_cons_self _ t u hsame (ht.1 a ha)

theorem selectApproval_triple (m : Method) (id : ApprovalId) :
    (locking ι ttl).Triple i (fun s => s.sessions i = {}) (selectApproval i m id)
      (fun o => Held i (o.toList.map (fun _ => .approval id)) [] (Selected m id o))
      (fun _ _ => True) := by
  refine Discipline.Triple.pre (K := Held i [] [] (fun _ => True))
    (execute_triple (Frame.true []) (frame_selected m id) ?_) (fun s _ hs => ⟨hs, trivial⟩)
  intro t o new _ _ hunbound hf
  cases hf
  refine ⟨rfl, rfl, (fun _ hw => by cases hw), fun a ha => Option.mem_def.mp ha, ?_⟩
  rintro rfl a ha
  exact hunbound id rfl a (Option.mem_def.mp ha)

theorem updateApproval_triple {ls : List Key} {ws : List Write} {R : Tables → Prop}
    (hR : Frame schema ls R) (id : ApprovalId) (status : ControlPlane.ApprovalStatus) :
    (locking ι ttl).Triple i (Held i ls ws R) (updateApproval i id status)
      (fun _ => Held i (ls ++ [.approval id]) (ws ++ [.setApproval id status]) R)
      (fun _ _ => True) := by
  refine execute_triple hR (fun _ => hR.append _) ?_
  intro t _ new _ ht _ hf
  cases hf
  exact ⟨rfl, rfl, by simp [schema, Write.keys], ht⟩

theorem insertDecision_triple {ls : List Key} {ws : List Write} {R : Tables → Prop}
    (hR : Frame schema ls R) (d : DecisionRow) :
    (locking ι ttl).Triple i (Held i ls ws R) (insertDecision i d)
      (fun _ => Held i (ls ++ [.decision d.approvalRequestId]) (ws ++ [.insertDecision d]) R)
      (fun _ _ => True) := by
  refine execute_triple hR (fun _ => hR.append _) ?_
  intro t _ new _ ht _ hf
  split at hf
  · cases hf
  · cases hf
    exact ⟨rfl, rfl, by simp [schema, Write.keys], ht⟩

theorem updateRun_triple {ls : List Key} {ws : List Write} {R : Tables → Prop}
    (hR : Frame schema ls R) (r : RunId) (status : RunStatus)
    (reason : Option RunCompletionReason) :
    (locking ι ttl).Triple i (Held i ls ws R) (updateRun i r status reason)
      (fun _ => Held i (ls ++ [.run r]) (ws ++ [.setRun r status reason]) R)
      (fun _ _ => True) := by
  refine execute_triple hR (fun _ => hR.append _) ?_
  intro t _ new _ ht _ hf
  cases hf
  exact ⟨rfl, rfl, by simp [schema, Write.keys], ht⟩

theorem reselect_triple {ls : List Key} {ws : List Write} {R : Tables → Prop}
    (hR : Frame schema ls R) (id : ApprovalId) :
    (locking ι ttl).Triple i (Held i ls ws R) (reselect i id) (fun _ => Held i ls ws R)
      (fun _ _ => True) := by
  refine execute_triple hR (fun _ => hR) ?_
  intro t _ new _ ht _ hf
  cases hf
  exact ⟨List.append_nil ls, List.append_nil ws, (fun _ hw => by cases hw), ht⟩

theorem insertContinuation_triple {ls : List Key} {ws : List Write} {R : Tables → Prop}
    (hR : Frame schema ls R) {r : RunId} (now : Instant)
    (hnone : ∀ t, Consistent t → R t → (schema.applyAll ws t).continuations r = []) :
    (locking ι ttl).Triple i (Held i ls ws R) (insertContinuation i r now)
      (fun _ => Held i (ls ++ [.continuation r]) (ws ++ [.insertJob r
        { payload := { continuation := true }, createdAt := now, updatedAt := now }]) R)
      (fun _ _ => True) := by
  refine execute_triple hR (fun _ => hR.append _) ?_
  intro t _ new ht hRt _ hf
  rw [hnone t ht hRt, if_pos rfl] at hf
  cases hf
  refine ⟨?_, rfl, by simp [schema, Write.keys], hRt⟩
  simp only [schema, Query.needs, List.append_cancel_left_eq]
  exact if_pos (hnone t ht hRt)

/-- A commit that newly approves no approval of a run. -/
theorem Consistent.approvesRun {t u : Tables} (h : Consistent t)
    (hu : ∀ a ∈ u.approvals, ∀ r, a.optimizationRunId = some r → a.status = .approved →
      a ∈ t.approvals) : ApprovesRun t u := by
  intro a ha r har hstatus hne
  rw [h.approval (hu a ha r har hstatus)] at hne
  exact absurd (congrArg some hstatus) hne

/-- A transaction that has written nothing. -/
theorem ready_of_held {ι : Type} {i : ι} {ls : List Key} {R : Tables → Prop} (hR : Frame schema ls R)
    {s : Store ι} (hs : Held i ls [] R s) : Ready schema Consistent ApprovesRun i s :=
  ⟨ls, [], R, hs, hR, fun _ ht _ => ⟨ht, ht.approvesRun (fun _ ha _ _ _ => ha)⟩⟩

theorem insertApproval_triple {row : ApprovalRow} (hpending : row.status = .pending) :
    (locking ι ttl).Triple i (Held i [] [] (fun _ => True)) (insertApproval i row)
      (fun _ => Ready schema Consistent ApprovesRun i) (fun _ _ => True) := by
  have hframe : Frame schema (Write.insertApproval row).keys (fun t => t.approval row.id = none ∧
      ∀ r, row.optimizationRunId = some r → t.bound r = []) := by
    refine (frame_approval List.mem_cons_self none).and (fun t u hsame ht r hr => ?_)
    have hkey : .bound r ∈ (Write.insertApproval row).keys := by
      rw [Write.keys, hr]
      exact List.mem_cons_of_mem _ List.mem_cons_self
    exact frame_bound hkey t u hsame (ht r hr)
  refine Discipline.Triple.post (Q := fun _ => Held i (Write.insertApproval row).keys
    [.insertApproval row] (fun t => t.approval row.id = none ∧
      ∀ r, row.optimizationRunId = some r → t.bound r = []))
    (execute_triple (Frame.true []) (fun _ => hframe) ?_) (fun _ s _ hs => ?_)
  · intro t _ new _ _ _ hf
    split at hf
    · cases hf
    · next hclash =>
      cases hf
      refine ⟨rfl, rfl, by simp [schema], ?_⟩
      obtain ⟨hid, hrun⟩ := Bool.or_eq_false_iff.mp (Bool.not_eq_true _ ▸ hclash)
      refine ⟨Option.isSome_eq_false_iff.mp hid |> Option.isNone_iff_eq_none.mp, fun r hr => ?_⟩
      rw [hr] at hrun
      exact not_not.mp (of_decide_eq_false hrun)
  · refine ⟨_, _, _, hs, hframe, fun t ht hnew => ⟨ht.insert hpending hnew.1 hnew.2, ?_⟩⟩
    refine ht.approvesRun (fun a ha _ _ hstatus => ?_)
    rcases List.mem_append.mp ha with ha | ha
    · exact ha
    · rw [List.mem_singleton.mp ha, hpending] at hstatus
      cases hstatus

theorem stable_held {ls : List Key} {ws : List Write} {R : Tables → Prop}
    (hR : Frame schema ls R) : (locking ι ttl).Stable i (Held i ls ws R) := held_stable hR

theorem refuse_triple {α : Type} {K : Store ι → Prop} (hK : (locking ι ttl).Stable i K)
    {Q : α → Store ι → Prop} (message : String) :
    (locking ι ttl).Triple i K (refuse message) Q (fun _ _ => True) :=
  .fail hK (fun _ _ _ => trivial)

/-- There is at most one approval of a run. -/
theorem Consistent.bound_eq {t : Tables} (h : Consistent t) (r : RunId) :
    t.bound r = (t.bound r).head?.toList := by
  cases hbound : t.bound r with
  | nil => rfl
  | cons a rest =>
    cases rest with
    | nil => rfl
    | cons b rest =>
      have hmem : ∀ c ∈ t.bound r, c ∈ t.approvals ∧ c.optimizationRunId = some r :=
        fun c hc => by simpa [Tables.bound] using hc
      have hids : ((t.bound r).map (·.id)).Nodup := h.ids.sublist (List.filter_sublist.map _)
      rw [hbound] at hmem hids
      obtain ⟨ha, har⟩ := hmem a List.mem_cons_self
      obtain ⟨hb, hbr⟩ := hmem b (List.mem_cons_of_mem a List.mem_cons_self)
      simp [h.bound a ha b hb r har hbr] at hids

theorem selectBound_triple (r : RunId) :
    (locking ι ttl).Triple i (Held i [] [] (fun _ => True)) (selectBound i r)
      (fun o => Held i (o.toList.map (.approval ·.id)) [] (fun _ => True)) (fun _ _ => True) := by
  refine execute_triple (Frame.true []) (fun _ => Frame.true _) ?_
  intro t o new ht _ _ hf
  cases hf
  refine ⟨?_, rfl, (fun _ hw => by cases hw), trivial⟩
  exact congrArg (List.map (Key.approval ·.id)) (ht.bound_eq r)

theorem request_triple (p : Request) :
    (locking ι ttl).Triple i (fun s => s.sessions i = {}) (request i ttl p)
      (fun _ s => s.sessions i = {}) (fun _ s => s.sessions i = {}) := by
  refine transaction_triple (Discipline.Triple.pre (K := Held i [] [] (fun _ => True)) ?_
    (fun s _ hs => ⟨hs, trivial⟩))
  have hinsert : (locking ι ttl).Triple i (Held i [] [] (fun _ => True))
      (insertApproval i (p.row ttl)) (fun _ => Ready schema Consistent ApprovesRun i)
      (fun _ _ => True) := insertApproval_triple rfl
  cases p.optimizationRunId with
  | none => exact hinsert
  | some r =>
    refine .bind (selectBound_triple r) ?_
    rintro (_ | existing)
    · exact hinsert
    · dsimp only
      split
      · exact refuse_triple (stable_held (Frame.true _)) _
      · exact .ret (stable_held (Frame.true _)) (fun s _ hs => ready_of_held (Frame.true _) hs)

/-- The approval of no run is decided. -/
theorem Consistent.approve {t : Tables} (h : Consistent t) {a : ApprovalRow} {d : DecisionRow}
    (ha : a ∈ t.approvals) (hpending : a.status = .pending) (hd : d.approvalRequestId = a.id)
    (hdecision : d.decision ≠ .pending) (hother : d.decidedByUserId ≠ a.requestedByUserId)
    (hbefore : d.createdAt < a.expiresAt) (hnone : a.optimizationRunId = none) :
    Consistent ⟨t.approvals.map (·.decided a.id d.decision), t.decisions ++ [d], t.runs, t.jobs⟩ ∧
      ApprovesRun t
        ⟨t.approvals.map (·.decided a.id d.decision), t.decisions ++ [d], t.runs, t.jobs⟩ := by
  have hunbound : ∀ r, a.optimizationRunId ≠ some r := fun r hr => by simp [hnone] at hr
  refine ⟨h.decide ha hpending hd hdecision hother hbefore (fun _ _ => rfl) (fun _ _ => rfl)
    (fun r hr => absurd hr (hunbound r)) (fun r hr => absurd hr (hunbound r)),
    h.approvesRun (fun b hb r hbr _ => ?_)⟩
  obtain rfl | ⟨hb, -⟩ := mem_decided h ha hb
  · exact absurd hbr (hunbound r)
  · exact hb

theorem approve_triple (id : ApprovalId) (approver : UserId) (now : Instant) :
    (locking ι ttl).Triple i (fun s => s.sessions i = {}) (approve i id approver now)
      (fun _ s => s.sessions i = {}) (fun _ s => s.sessions i = {}) := by
  refine transaction_triple (.bind (selectApproval_triple .approve id) ?_)
  rintro (_ | a)
  · exact refuse_triple (stable_held (frame_selected _ _ _)) _
  · have hframe : Frame schema [.approval id] (Selected .approve id (some a)) :=
      frame_selected .approve id (some a)
    dsimp only
    split
    · exact refuse_triple (stable_held hframe) _
    · next heligible =>
      split
      · exact refuse_triple (stable_held hframe) _
      · next hself =>
        obtain ⟨hpending, hbefore⟩ := not_or.mp heligible
        refine .bind (updateApproval_triple hframe id .approved) (fun _ =>
          .bind (insertDecision_triple (hframe.append _) ⟨id, approver, .approved, none, now⟩)
            (fun _ => (reselect_triple ((hframe.append _).append _) id).post (fun _ s _ hs => ?_)))
        refine ⟨_, _, _, hs, (hframe.append _).append _, fun t ht hselected => ?_⟩
        obtain ⟨ha, rfl⟩ := approval_mem (hselected.1 a rfl)
        exact ht.approve (d := ⟨a.id, approver, .approved, none, now⟩) ha (not_not.mp hpending) rfl
          (fun h => by cases h) (Ne.symm hself) (not_le.mp hbefore) (hselected.2 rfl a rfl)

/-- A pending approval with the run that waits for it. -/
structure Awaited (id : ApprovalId) (a : ApprovalRow) (r : RunId) (run : OptimizationRun)
    (t : Tables) : Prop where
  approval : t.approval id = some a
  run : t.runs r = some run

theorem frame_awaited {ks : List Key} {id : ApprovalId} {r : RunId} (ha : .approval id ∈ ks)
    (hr : .run r ∈ ks) (a : ApprovalRow) (run : OptimizationRun) :
    Frame schema ks (Awaited id a r run) :=
  fun t u hsame ht => ⟨frame_approval ha _ t u hsame ht.approval, frame_run hr _ t u hsame ht.run⟩

theorem selectRun_triple {m : Method} {id : ApprovalId} {a : ApprovalRow} (r : RunId) :
    (locking ι ttl).Triple i (Held i [.approval id] [] (Selected m id (some a))) (selectRun i r)
      (fun o => Held i (.approval id :: o.toList.map (fun _ => .run r)) []
        (fun t => ∀ run ∈ o, Awaited id a r run t)) (fun _ _ => True) := by
  refine execute_triple (frame_selected m id (some a)) ?_ ?_
  · rintro (_ | run) t u hsame ht run' hrun'
    · cases hrun'
    · exact frame_awaited List.mem_cons_self (List.mem_cons_of_mem _ List.mem_cons_self) a run' t u
        hsame (ht run' hrun')
  · intro t o new _ ht _ hf
    cases hf
    refine ⟨rfl, rfl, (fun _ hw => by cases hw), fun run hrun => ?_⟩
    exact ⟨ht.1 a rfl, Option.mem_def.mp hrun⟩

/-- The locks and the writes of a decision. -/
abbrev deciding (id : ApprovalId) (r : RunId) : List Key :=
  [.approval id, .run r, .approval id, .decision id]

abbrev decisionOf (id : ApprovalId) (d : DecisionRow) : List Write :=
  [.setApproval id d.decision, .insertDecision d]

theorem decideRun_triple {m : Method} {id : ApprovalId} {d : DecisionRow} {ineligible : String}
    {finish : RunId → Proc ι PUnit} (locks : RunId → List Key) (writes : RunId → List Write)
    (hd : d.approvalRequestId = id)
    (hfinish : ∀ a r run, a.optimizationRunId = some r → a.status = .pending →
      (locking ι ttl).Triple i (Held i (deciding id r) (decisionOf id d) (Awaited id a r run))
        (finish r) (fun _ => Held i (deciding id r ++ locks r) (decisionOf id d ++ writes r)
          (Awaited id a r run)) (fun _ _ => True))
    (hcommit : ∀ t a r run, Consistent t → a ∈ t.approvals → a.id = id → a.status = .pending →
      a.optimizationRunId = some r → t.runs r = some run → run.status = .approvalPending →
      d.decidedByUserId ≠ a.requestedByUserId → d.createdAt < a.expiresAt →
      Consistent (schema.applyAll (decisionOf id d ++ writes r) t) ∧
        ApprovesRun t (schema.applyAll (decisionOf id d ++ writes r) t)) :
    (locking ι ttl).Triple i (fun s => s.sessions i = {}) (decideRun i m id d ineligible finish)
      (fun _ s => s.sessions i = {}) (fun _ s => s.sessions i = {}) := by
  refine transaction_triple (.bind (selectApproval_triple m id) ?_)
  rintro (_ | a)
  · exact refuse_triple (stable_held (frame_selected _ _ _)) _
  · have hselected : Frame schema [.approval id] (Selected m id (some a)) :=
      frame_selected m id (some a)
    dsimp only
    cases har : a.optimizationRunId with
    | none => exact refuse_triple (stable_held hselected) _
    | some r =>
      dsimp only
      split
      · exact refuse_triple (stable_held hselected) _
      · next heligible =>
        obtain ⟨hpending, hnot⟩ := not_or.mp heligible
        obtain ⟨hbefore, hself⟩ := not_or.mp hnot
        refine .bind (selectRun_triple r) ?_
        rintro (_ | run)
        · refine refuse_triple (stable_held ?_) _
          exact fun _ _ _ _ _ hrun => by cases hrun
        · have hframe : Frame schema [.approval id, .run r] (Awaited id a r run) :=
            frame_awaited List.mem_cons_self (List.mem_cons_of_mem _ List.mem_cons_self) a run
          refine Discipline.Triple.pre (K := Held i [.approval id, .run r] [] (Awaited id a r run))
            ?_ (fun s _ hs => ⟨hs.1, hs.2 run rfl⟩)
          dsimp only
          split
          · exact refuse_triple (stable_held hframe) _
          · next hwaiting =>
            subst hd
            have hdecided : Frame schema (deciding d.approvalRequestId r ++ locks r)
                (Awaited d.approvalRequestId a r run) :=
              (frame_awaited List.mem_cons_self (List.mem_cons_of_mem _ List.mem_cons_self)
                a run).append (locks r)
            refine .bind (updateApproval_triple hframe d.approvalRequestId d.decision) (fun _ =>
              .bind (insertDecision_triple (hframe.append _) d) (fun _ =>
                .bind (hfinish a r run har (not_not.mp hpending)) (fun _ =>
                  (reselect_triple hdecided _).post (fun _ s _ hs => ?_))))
            refine ⟨_, _, _, hs, hdecided, fun t ht hawaited => ?_⟩
            obtain ⟨ha, hid⟩ := approval_mem hawaited.approval
            exact hcommit t a r run ht ha hid (not_not.mp hpending) har hawaited.run
              (not_not.mp hwaiting) (Ne.symm hself) (not_le.mp hbefore)

theorem Consistent.no_continuations {t : Tables} (h : Consistent t) {a : ApprovalRow} {r : RunId}
    (ha : a ∈ t.approvals) (har : a.optimizationRunId = some r) (hne : a.status ≠ .approved) :
    t.continuations r = [] := by
  by_contra hr
  obtain ⟨b, hb, hbr, hstatus⟩ := h.continued r hr
  exact hne (h.bound b hb a ha r hbr har ▸ hstatus)

/-- The continuation of a run, as the tables keep it. -/
def continuation (r : RunId) (now : Instant) : Job :=
  { payload := { continuation := true }, createdAt := now, updatedAt := now,
    optimizationRunId := some r, kind := "OPTIMIZATION" }

theorem approveAndEnqueueContinuation_triple (id : ApprovalId) (approver : UserId)
    (now : Instant) :
    (locking ι ttl).Triple i (fun s => s.sessions i = {})
      (approveAndEnqueueContinuation i id approver now) (fun _ s => s.sessions i = {})
      (fun _ s => s.sessions i = {}) := by
  refine decideRun_triple (fun r => [.run r, .continuation r])
    (fun r => [.setRun r .approved none, .insertJob r
      { payload := { continuation := true }, createdAt := now, updatedAt := now }]) rfl ?_ ?_
  · intro a r run har hpending
    have hframe : Frame schema (deciding id r) (Awaited id a r run) :=
      frame_awaited List.mem_cons_self (List.mem_cons_of_mem _ List.mem_cons_self) a run
    refine .bind (updateRun_triple hframe r .approved none)
      (fun _ => insertContinuation_triple (hframe.append _) now (fun t ht hawaited => ?_))
    obtain ⟨ha, -⟩ := approval_mem hawaited.approval
    exact ht.no_continuations ha har (fun h => by rw [hpending] at h; cases h)
  · rintro t a r run ht ha rfl hpending har hrun hwaiting hother hbefore
    have hnone := ht.no_continuations ha har (fun h => by rw [hpending] at h; cases h)
    have hone : ((t.jobs ++ [continuation r now]).filter (continues r)).length = 1 := by
      rw [List.filter_append, List.length_append]
      change (t.continuations r).length + _ = 1
      simp [hnone, continues, continuation]
    refine ⟨ht.decide (d := ⟨a.id, approver, .approved, none, now⟩) ha hpending rfl
      (fun h => by cases h) hother hbefore (fun q hq => ?_) (fun q hq => ?_) (fun q hq _ => ?_)
      (fun _ _ h => by cases h), fun b hb q hbq hstatus hnew => ?_⟩
    · exact Function.update_of_ne (fun h => hq (har.trans (congrArg some h.symm))) _ _
    · have hne : r ≠ q := fun h => hq (h ▸ har)
      rw [List.filter_append]
      change t.continuations q ++ _ = _
      simp [continues, hne]
    · obtain rfl : r = q := Option.some.inj (har.symm.trans hq)
      exact hone
    · obtain rfl | ⟨hb, -⟩ := mem_decided ht ha hb
      · obtain rfl : r = q := Option.some.inj (har.symm.trans hbq)
        refine ⟨by rw [hrun, Option.map_some, hwaiting], ?_, hone⟩
        have hmoved := congrFun (runs_setRun hrun .approved none) r
        rw [Function.update_self] at hmoved
        exact congrArg (Option.map (·.status)) hmoved
      · rw [ht.approval hb, Option.map_some, hstatus] at hnew
        exact absurd rfl hnew

theorem rejectAndCompleteRun_triple (id : ApprovalId) (approver : UserId) (now : Instant)
    (reason : Option String) :
    (locking ι ttl).Triple i (fun s => s.sessions i = {})
      (rejectAndCompleteRun i id approver now reason) (fun _ s => s.sessions i = {})
      (fun _ s => s.sessions i = {}) := by
  refine decideRun_triple (fun r => [.run r])
    (fun r => [.setRun r .completed (some .approvalRejected)]) rfl ?_ ?_
  · intro a r run _ _
    exact updateRun_triple (frame_awaited List.mem_cons_self
      (List.mem_cons_of_mem _ List.mem_cons_self) a run) r .completed (some .approvalRejected)
  · rintro t a r run ht ha rfl hpending har hrun hwaiting hother hbefore
    have hnone := ht.no_continuations ha har (fun h => by rw [hpending] at h; cases h)
    refine ⟨ht.decide (d := ⟨a.id, approver, .rejected, reason, now⟩) ha hpending rfl
      (fun h => by cases h) hother hbefore (fun q hq => ?_) (fun _ _ => rfl)
      (fun _ _ h => by cases h) (fun q hq _ => ?_), ht.approvesRun (fun b hb q _ hstatus => ?_)⟩
    · exact Function.update_of_ne (fun h => hq (har.trans (congrArg some h.symm))) _ _
    · obtain rfl : r = q := Option.some.inj (har.symm.trans hq)
      refine ⟨hnone, { run with status := .completed, completionReason := some .approvalRejected },
        ?_, rfl, rfl⟩
      have hmoved := congrFun (runs_setRun hrun .completed (some .approvalRejected)) r
      rw [Function.update_self] at hmoved
      exact hmoved
    · obtain rfl | ⟨hb, -⟩ := mem_decided ht ha hb
      · cases hstatus
      · exact hb

theorem call_triple (i : ι) (k : Call) :
    (locking ι ttl).Triple i (fun s => s.sessions i = {}) (call ttl i k)
      (fun _ s => s.sessions i = {}) (fun _ s => s.sessions i = {}) := by
  have hidle : (locking ι ttl).Stable i (fun s => s.sessions i = {}) :=
    fun s t hst _ hs => (hst.1 : t.sessions i = s.sessions i).trans hs
  cases k with
  | request p => exact .bind (request_triple p) (fun _ => .ret hidle (fun _ _ h => h))
  | approve id approver now =>
    exact .bind (approve_triple id approver now) (fun _ => .ret hidle (fun _ _ h => h))
  | approveAndEnqueueContinuation id approver now =>
    exact .bind (approveAndEnqueueContinuation_triple id approver now)
      (fun _ => .ret hidle (fun _ _ h => h))
  | rejectAndCompleteRun id approver now reason =>
    exact .bind (rejectAndCompleteRun_triple id approver now reason)
      (fun _ => .ret hidle (fun _ _ h => h))

/-- No approval is there yet, and no continuation. -/
structure Tables.Fresh (t : Tables) : Prop where
  approvals : t.approvals = []
  decisions : t.decisions = []
  jobs : ∀ r, t.continuations r = []

theorem Tables.Fresh.consistent {t : Tables} (h : t.Fresh) : Consistent t := by
  have hnone : ∀ a, a ∉ t.approvals := fun a ha => by
    rw [h.approvals] at ha
    cases ha
  have hundecided : ∀ d, d ∉ t.decisions := fun d hd => by
    rw [h.decisions] at hd
    cases hd
  refine ⟨by simp [h.approvals], fun a ha => absurd ha (hnone a), by simp [h.decisions],
    fun d hd => absurd hd (hundecided d), fun d hd => absurd hd (hundecided d),
    fun a ha => absurd ha (hnone a), fun a ha => absurd ha (hnone a),
    fun a ha => absurd ha (hnone a), fun r hr => absurd (h.jobs r) hr⟩

/-- What the approvals of runs come to. -/
structure Decided (s : Store ι) : Prop where
  once : ∀ id, (s.tables.decisions.filter (·.approvalRequestId = id)).length ≤ 1
  approved : ∀ a ∈ s.tables.approvals, ∀ r, a.optimizationRunId = some r → a.status = .approved →
    (∃ d ∈ s.tables.decisions, d.Decides a) ∧ (s.tables.continuations r).length = 1
  rejected : ∀ a ∈ s.tables.approvals, ∀ r, a.optimizationRunId = some r → a.status = .rejected →
    s.tables.continuations r = [] ∧ ∃ run, s.tables.runs r = some run ∧ run.status = .completed ∧
      run.completionReason = some .approvalRejected
  commits : ∀ c ∈ s.commits, ApprovesRun c.1 c.2

/-- Where no approval of a run is decided by `approve`, an approval gets one decision at most, and
takes its run with it. -/
theorem decided_of_unbound {t : Tables} (ht : t.Fresh)
    {c : Config (Statement Query) (Store ι) Error ι}
    (hr : (schema.system (call ttl)).Reach
      (schema.conduct (call ttl) (fun _ => Unbound) Moves).Allows (.quiet { tables := t }) c) :
    Decided c.shared := by
  have hsound : Sound schema Consistent ApprovesRun c.shared :=
    reach_sound ht.consistent call_triple (fun _ _ ht => ht.moves) hr
  have htables := hsound.tables
  refine ⟨filter_length_le_one_of_key htables.once, fun a ha r har hstatus => ?_,
    fun a ha r har hstatus => ?_, hsound.commits⟩
  · have hdecided : a.status ≠ .pending := fun h => by rw [hstatus] at h; cases h
    exact ⟨htables.decided a ha hdecided, htables.approved a ha r har hstatus⟩
  · exact ⟨htables.no_continuations ha har (fun h => by rw [hstatus] at h; cases h),
      htables.rejected a ha r har hstatus⟩

end

section

/-- A run that waits for its approval. -/
def awaiting : Tables where
  runs _ := some { targetId := 0, status := .approvalPending, requestedByUserId := 1,
                   deploymentMode := .approvalControlled }

theorem awaiting_fresh : awaiting.Fresh := ⟨rfl, rfl, fun _ => rfl⟩

/-- User 1 asks for an approval of the run. -/
def asked : Request where
  id := 0
  now := 0
  actionId := "CREATE_INDEX"
  targetId := 0
  candidateId := 0
  evidenceHash := "evidence"
  requesterId := 1
  optimizationRunId := some 0

/-- The request, and then this. -/
def thenDecided (k : Call) (steps : Nat) : List (Event Unit Call (List Write)) :=
  Event.calls () (.request asked) 3 ++ Event.calls () k steps

theorem of_mem_thenDecided {k : Call} {steps : Nat} {e : Event Unit Call (List Write)}
    (h : e ∈ thenDecided k steps) : (∃ k', e = .start () k') ∨ e = .step () := by
  rcases List.mem_append.mp h with h | h
  · exact (Event.of_mem_calls h).imp_left (fun h => ⟨_, h⟩)
  · exact (Event.of_mem_calls h).imp_left (fun h => ⟨_, h⟩)

/-- The statement that comes next is not the one of `approve`. -/
def unbound (c : Config (Statement Query) (Store Unit) Error Unit) : Bool :=
  c.label () |>.all (fun l => match l with
    | .exec (.selectApproval .approve _) => false
    | _ => true)

theorem grants_alone (s : Store Unit) (l : Statement Query) : schema.Grants () s l := by
  cases l with
  | exec b => exact fun _ _ j hj => absurd rfl hj
  | _ => trivial

theorem unbound_of_test {k : Call} {steps : Nat} {e : Event Unit Call (List Write)}
    {c : Config (Statement Query) (Store Unit) Error Unit} (he : e ∈ thenDecided k steps)
    (h : unbound c = true) :
    (schema.conduct (call 10) (fun _ => Unbound) Moves).Allows c e := by
  obtain ⟨k', rfl⟩ | rfl := of_mem_thenDecided he
  · trivial
  · intro l hl
    refine ⟨grants_alone c.shared l, ?_⟩
    rintro b rfl id rfl
    rw [unbound, hl] at h
    cases h

theorem decided_of_unbound_continued : awaiting.Fresh ∧
    ∃ c : Config (Statement Query) (Store Unit) Error Unit,
      (schema.system (call 10)).Reach
        (schema.conduct (call 10) (fun _ => Unbound) Moves).Allows (.quiet { tables := awaiting }) c ∧
      c.shared.tables.approvals.map (·.status) = [.approved] ∧ Decided c.shared := by
  have hrun : ((schema.system (call 10)).exec (fun c _ => unbound c)
      (thenDecided (.approveAndEnqueueContinuation 0 2 1) 8) (.quiet { tables := awaiting })).map
        (fun c => c.shared.tables.approvals.map (·.status)) = some [.approved] := by
    decide +kernel
  obtain ⟨c, hr, hc⟩ := System.Reach.of_exec_map
    (P := (schema.conduct (call 10) (fun _ => Unbound) Moves).Allows)
    (fun _ he _ h => unbound_of_test he h) hrun
  exact ⟨awaiting_fresh, c, hr, hc, decided_of_unbound awaiting_fresh hr⟩

/-- `approve` takes the approval of a run and leaves the run as it is. -/
theorem not_decided : ¬ ∀ (ttl : Instant) (t : Tables), t.Fresh →
    ∀ c : Config (Statement Query) (Store Unit) Error Unit,
      (schema.system (call ttl)).Reach
        (schema.conduct (call ttl) (fun _ _ _ => True) Moves).Allows (.quiet { tables := t }) c →
      Decided c.shared := by
  intro h
  have hrun : ((schema.system (call 10)).exec (fun _ _ => true) (thenDecided (.approve 0 2 1) 5)
      (.quiet { tables := awaiting })).map
        (fun c => (c.shared.tables.approvals, (c.shared.tables.continuations 0).length)) =
      some ([{ asked.row 10 with status := .approved }], 0) := by
    decide +kernel
  obtain ⟨c, hr, hc⟩ := System.Reach.of_exec_map
    (P := (schema.conduct (call 10) (fun _ _ _ => True) Moves).Allows) (fun e he c _ => by
      obtain ⟨k, rfl⟩ | rfl := of_mem_thenDecided he
      · trivial
      · exact fun l _ => ⟨grants_alone c.shared l, fun _ _ => trivial⟩) hrun
  obtain ⟨happrovals, hcontinuations⟩ := Prod.mk.inj hc
  have hmem : { asked.row 10 with status := .approved } ∈ c.shared.tables.approvals := by
    rw [happrovals]
    exact List.mem_cons_self
  have hone := ((h 10 awaiting awaiting_fresh c hr).approved _ hmem 0 rfl rfl).2
  rw [hcontinuations] at hone
  cases hone

end

end NoSQLOptimizer.Approvals.Durable
