import NoSQLOptimizer.Concurrency.Trail
import NoSQLOptimizer.ControlPlane.Prepared
import NoSQLOptimizer.Production.Footprints

namespace NoSQLOptimizer.Production

open Adapters Actions ControlPlane Concurrency

variable {τ : Type}

/-- The rows of this very state authorize the run's mutation. -/
def authorized (s : World τ) (r : RunId) : Bool :=
  (boundAction s r).any (fun bound =>
    bound.authority.candidateId = bound.selectedCandidateId &&
      bound.candidate.status = .admitted &&
      bound.expectedAuthorityFingerprint (s.capabilities bound.targetId)
        (s.credentials bound.targetId) = bound.authority.integrityFingerprint &&
      (bound.authority.authorityType = .autonomous && bound.autonomyPrerequisites ||
        currentApproval s bound s.now))

/-- Authorities and admissions are append-only, and a request once APPROVED stays as it is.
Everything else may change at any time. -/
structure Evidence (s t : World τ) : Prop where
  authorities : ∀ r row, s.authorities r = some row → t.authorities r = some row
  admissions : ∀ r row, s.admissions r = some row → t.admissions r = some row
  approvals : ∀ r row, s.approvals r = some row → row.status = .approved → t.approvals r = some row

def evidence (A : DatabaseAdapter τ) : (services A).Conduct where
  env := Evidence

theorem Evidence.of_eq {s t : World τ} (h : t.authorities = s.authorities)
    (h' : t.admissions = s.admissions) (h'' : t.approvals = s.approvals) : Evidence s t :=
  ⟨fun _ _ hr => h ▸ hr, fun _ _ hr => h' ▸ hr, fun _ _ hr _ => h'' ▸ hr⟩

theorem Evidence.refl (s : World τ) : Evidence s s := .of_eq rfl rfl rfl

theorem Evidence.trans {s t u : World τ} (h : Evidence s t) (h' : Evidence t u) : Evidence s u :=
  ⟨fun r row hr => h'.authorities r row (h.authorities r row hr),
    fun r row hr => h'.admissions r row (h.admissions r row hr),
    fun r row hr ha => h'.approvals r row (h.approvals r row hr ha) ha⟩

theorem Acts.evidence {A : DatabaseAdapter τ} {P : RunId → Label → World τ → World τ → Prop}
    {r : RunId} {l : Label} {s t : World τ} (h : Acts A P r l s t) : Evidence s t := by
  rcases h with ⟨-, h⟩ | ⟨-, h⟩
  · exact .of_eq (by rw [h.frame]) (by rw [h.frame]) (by rw [h.frame])
  · exact .of_eq (by rw [h]) (by rw [h]) (by rw [h])

theorem evidence_along (A : DatabaseAdapter τ) : (services A).Along (evidence A) Evidence where
  refl := Evidence.refl
  trans := Evidence.trans
  call i k _ := by
    cases k with
    | deployForRun r =>
      exact (Does.bind (deployForRun_acts A i r) (fun _ => Does.ret _)).mono
        (fun _ _ _ h => h.evidence) (fun _ h => h)
    | rollbackForRun r =>
      exact (Does.bind (rollbackForRun_acts A i r) (fun _ => Does.ret _)).mono
        (fun _ _ _ h => h.evidence) (fun _ h => h)
  crash _ _ := .of_eq rfl rfl rfl
  env _ _ h := h

/-- What the three reads of a call, each in a state of its own, have established. -/
structure Authorizes (r : RunId) (bound : BoundAction) (row capability credential : World τ) :
    Prop where
  row : boundAction row r = some bound
  binding : bound.authority.candidateId = bound.selectedCandidateId
  fingerprint : bound.candidate.deterministicFingerprint = some bound.authority.candidateFingerprint
  admitted : bound.candidate.status = .admitted
  integrity : bound.expectedAuthorityFingerprint (capability.capabilities bound.targetId)
    (credential.credentials bound.targetId) = bound.authority.integrityFingerprint
  autonomous : bound.authority.authorityType = .autonomous → bound.autonomyPrerequisites = true

/-- A past in which the call has looked its authority up, and found it. -/
def LookedUp (r : RunId) (past : List (Label × World τ)) : Prop :=
  ∃ before bound row capability credential after,
    past = before ++ (.boundAction r, row) :: (.capability bound.targetId, capability) ::
      (.credential bound.targetId, credential) :: after ∧
    Authorizes r bound row capability credential ∧
    (bound.authority.authorityType = .humanRequired → ∃ clock approval after',
      after = (.clock, clock) :: (.currentApproval r, approval) :: after' ∧
      currentApproval approval bound clock.now = true)

theorem LookedUp.append {r : RunId} {past : List (Label × World τ)} (h : LookedUp r past)
    (rest : List (Label × World τ)) : LookedUp r (past ++ rest) := by
  obtain ⟨before, bound, row, capability, credential, after, rfl, hauth, happroval⟩ := h
  refine ⟨before, bound, row, capability, credential, after ++ rest, by simp, hauth, fun hh => ?_⟩
  obtain ⟨clock, approval, after', rfl, hcurrent⟩ := happroval hh
  exact ⟨clock, approval, after' ++ rest, by simp, hcurrent⟩

/-- No index is created but by a deployment of the run that has looked its authority up. -/
def Asked (past : List (Label × World τ)) (l : Label) (_ : World τ) : Prop :=
  ∀ r ns x, l = .createIndex r ns x → LookedUp r past

theorem guardAll_traced {T : List (Label × World τ) → Label → World τ → Prop}
    {Q : List (Label × World τ) → PUnit → Prop} {past : List (Label × World τ)}
    {checks : List (Bool × String)}
    (h : (∀ check ∈ checks, check.1 = false) → Q past ⟨⟩) : (guardAll checks).Traced T Q past := by
  unfold guardAll
  split
  · next hnone => exact h (firstRefusal_eq_none.mp hnone)
  · trivial

theorem asked_of_ne {past : List (Label × World τ)} {l : Label} {s : World τ}
    (h : l.mutates = none) : Asked past l s := by
  rintro r ns x rfl
  cases h

theorem requireApproval_traced (bound : BoundAction) (past : List (Label × World τ)) :
    (requireApproval bound).Traced Asked (fun past' _ => ∃ after, past' = past ++ after ∧
      (bound.authority.authorityType = .humanRequired → ∃ clock approval,
        after = [(.clock, clock), (.currentApproval bound.runId, approval)] ∧
        currentApproval approval bound clock.now = true)) past := by
  unfold requireApproval
  split
  · refine .bind (.read (Q := fun past' now => ∃ clock : World τ,
      past' = past ++ [(.clock, clock)] ∧ now = clock.now) (fun _ => asked_of_ne rfl)
      (fun s => ⟨s, rfl, rfl⟩)) ?_
    rintro now _ ⟨clock, rfl, rfl⟩
    refine .bind (.read (Q := fun past' current => ∃ approval : World τ,
      past' = past ++ [(.clock, clock), (.currentApproval bound.runId, approval)] ∧
        current = currentApproval approval bound clock.now) (fun _ => asked_of_ne rfl)
      (fun s => ⟨s, by simp, rfl⟩)) ?_
    rintro current _ ⟨approval, rfl, rfl⟩
    refine guardAll_traced (fun hno => ⟨_, rfl, fun _ => ⟨clock, approval, rfl, ?_⟩⟩)
    simpa using hno
  · next hauto => exact ⟨[], by simp, fun hh => absurd hh hauto⟩

theorem loadBoundAction_traced (r : RunId) (past : List (Label × World τ)) :
    (loadBoundAction r).Traced Asked (fun past' bound => bound.runId = r ∧ LookedUp r past') past := by
  unfold loadBoundAction
  refine .bind (.read (Q := fun past' found => ∃ row : World τ,
    past' = past ++ [(.boundAction r, row)] ∧ found = boundAction row r)
    (fun _ => asked_of_ne rfl) (fun s => ⟨s, rfl, rfl⟩)) ?_
  rintro found _ ⟨row, rfl, hfound⟩
  cases found with
  | none => trivial
  | some bound =>
    have hid := boundAction_runId hfound.symm
    refine .bind (guardAll_traced (Q := fun past' _ => past' = past ++ [(.boundAction r, row)] ∧
      ∀ check ∈ bound.bindingRefusals, check.1 = false) (fun hno => ⟨rfl, hno⟩)) ?_
    rintro _ _ ⟨rfl, hbinding⟩
    refine .bind (.read (Q := fun past' found => ∃ capability : World τ,
      past' = past ++ [(.boundAction r, row), (.capability bound.targetId, capability)] ∧
        found = capability.capabilities bound.targetId) (fun _ => asked_of_ne rfl)
      (fun s => ⟨s, by simp, rfl⟩)) ?_
    rintro _ _ ⟨capability, rfl, rfl⟩
    refine .bind (.read (Q := fun past' found => ∃ credential : World τ,
      past' = past ++ [(.boundAction r, row), (.capability bound.targetId, capability),
          (.credential bound.targetId, credential)] ∧
        found = credential.credentials bound.targetId) (fun _ => asked_of_ne rfl)
      (fun s => ⟨s, by simp, rfl⟩)) ?_
    rintro _ _ ⟨credential, rfl, rfl⟩
    refine .bind (guardAll_traced (Q := fun past' _ => past' = past ++ [(.boundAction r, row),
      (.capability bound.targetId, capability), (.credential bound.targetId, credential)] ∧
      Authorizes r bound row capability credential) (fun hno => ⟨rfl, ?_⟩)) ?_
    · simp [BoundAction.bindingRefusals, BoundAction.evidenceRefusals] at hbinding hno
      exact ⟨hfound.symm, hbinding.1.symm, hbinding.2.1, hbinding.2.2.2.1, hno.1, hno.2⟩
    · rintro _ _ ⟨rfl, hauth⟩
      refine .bind (requireApproval_traced bound _) ?_
      rintro _ _ ⟨after, rfl, happroval⟩
      refine ⟨hid, past, bound, row, capability, credential, after, by simp, hauth, fun hh => ?_⟩
      obtain ⟨clock, approval, rfl, hcurrent⟩ := happroval hh
      exact ⟨clock, approval, [], by rw [hid], hcurrent⟩

theorem call_traced (A : DatabaseAdapter τ) (i : WorkerId) (k : Call) :
    ((services A).call i k).Traced Asked (fun _ _ => True) [] := by
  cases k with
  | deployForRun r =>
    refine .bind (Q := fun _ _ => True) ?_ (fun _ _ _ => trivial)
    unfold deployForRun
    refine .bind (Process.Traced.of_always (ensureLeaseOwned_reads i)
      (fun _ _ _ _ h => asked_of_ne h.1)) (fun _ past _ => ?_)
    refine .bind (loadBoundAction_traced r past) ?_
    rintro bound past' ⟨rfl, hlooked⟩
    refine .of_always (deployBound_acts A i bound) (fun rest l s t h => ?_)
    rintro q ns x rfl
    rcases h with ⟨⟨hl | ⟨_, _, hl⟩, -⟩, -⟩ | ⟨hl, -⟩ <;> cases hl
    exact hlooked.append rest
  | rollbackForRun r =>
    refine .bind (Process.Traced.of_always (rollbackForRun_acts A i r)
      (fun rest l s t h => ?_)) (fun _ _ _ => trivial)
    rintro q ns x rfl
    rcases h with ⟨⟨hl | ⟨-, _, _, hl⟩, -⟩, -⟩ | ⟨hl, -⟩ <;> cases hl

/-- The rows that the authority rests on for good, as the call has read them. -/
theorem boundAction_rows {s : World τ} {r : RunId} {bound : BoundAction}
    (h : boundAction s r = some bound) :
    s.authorities r = some bound.authority ∧ s.admissions r = some bound.admission ∧
      bound.admission.selectedCandidateId = some bound.selectedCandidateId := by
  simp only [boundAction, Option.bind_eq_bind, Option.bind_eq_some_iff] at h
  obtain ⟨_, _, admission, hadm, authority, hauth, _, hsel, _, _, _, _, _, _, _, _, _, _, h⟩ := h
  cases h
  exact ⟨hauth, hadm, hsel⟩

theorem evidence_since {A : DatabaseAdapter τ} {s₀ : World τ}
    {d c : Config Label (World τ) Error WorkerId} {i : WorkerId} {l : Label}
    (hr : (services A).Reach (evidence A).Allows (.quiet s₀) d)
    (h : (services A).Earlier (evidence A).Allows i l d c) : Evidence d.shared c.shared := by
  have hmoving := ((evidence_along A).reach (System.Moving.quiet s₀) hr).2
  exact ((evidence_along A).reach hmoving (h.during.mono (fun _ _ h => h.1))).1

/-- Whenever `create_index` is called, the same call has, before, read rows that authorize it: the
binding of the authority to the selected candidate still stands, and so does the approval that was
current when the call looked. -/
theorem create_index_authorized (A : DatabaseAdapter τ) {s₀ : World τ}
    {c : Config Label (World τ) Error WorkerId} {i : WorkerId} {r : RunId} {ns : Namespace}
    {x : IndexSpec} (hr : (services A).Reach (evidence A).Allows (.quiet s₀) c)
    (hl : c.label i = some (.createIndex r ns x)) :
    ∃ bound row capability credential,
      Authorizes r bound row.shared capability.shared credential.shared ∧
      (services A).Reach (evidence A).Allows (.quiet s₀) row ∧
      (services A).Earlier (evidence A).Allows i (.boundAction r) row capability ∧
      (services A).Earlier (evidence A).Allows i (.capability bound.targetId) capability
        credential ∧
      (services A).Earlier (evidence A).Allows i (.credential bound.targetId) credential c ∧
      (c.shared.authorities r = some bound.authority ∧
        c.shared.admissions r = some bound.admission ∧
        bound.admission.selectedCandidateId = some bound.authority.candidateId) ∧
      (bound.authority.authorityType = .humanRequired → ∃ clock approval request,
        (services A).Earlier (evidence A).Allows i (.credential bound.targetId) credential clock ∧
        (services A).Earlier (evidence A).Allows i .clock clock approval ∧
        (services A).Earlier (evidence A).Allows i (.currentApproval r) approval c ∧
        bound.approvedBy clock.shared.now request = true ∧
        c.shared.approvals r = some request) := by
  obtain ⟨k, past, hpast, hasked⟩ := hr.traced hl (T := fun _ => Asked) (call_traced A i)
  obtain ⟨before, bound, _, _, _, after, hseen, hauth, happroval⟩ := hasked r ns x rfl
  obtain ⟨before, later, rfl, -, hrow⟩ := System.seen_eq_append hseen
  obtain ⟨row, later, rfl, rfl, hcapability⟩ := System.seen_eq_cons hrow
  obtain ⟨capability, later, rfl, rfl, hcredential⟩ := System.seen_eq_cons hcapability
  obtain ⟨credential, later, rfl, rfl, hafter⟩ := System.seen_eq_cons hcredential
  obtain ⟨hprogress, hearlier⟩ := hpast.earlier
  have hpast₁ := hpast
  rw [List.append_cons] at hpast₁
  have hpast₂ := hpast₁
  rw [List.append_cons] at hpast₂
  obtain ⟨hauthority, hadmission, hselected⟩ := boundAction_rows hauth.row
  have hsince := evidence_since hprogress.reach hearlier
  refine ⟨bound, row, capability, credential, hauth, hprogress.reach, hpast.next, hpast₁.next,
    hpast₂.earlier.2, ⟨hsince.authorities r _ hauthority, hsince.admissions r _ hadmission,
      by rw [hselected, hauth.binding]⟩, fun hh => ?_⟩
  obtain ⟨_, _, _, rfl, hcurrent⟩ := happroval hh
  obtain ⟨clock, later, rfl, rfl, happr⟩ := System.seen_eq_cons hafter
  obtain ⟨approval, later, rfl, rfl, -⟩ := System.seen_eq_cons happr
  have hpast₃ := hpast₂
  rw [List.append_cons] at hpast₃
  have hpast₄ := hpast₃
  rw [List.append_cons] at hpast₄
  obtain ⟨request, hrequest, happroved⟩ := (Option.any_eq_true _ _).mp hcurrent
  refine ⟨clock, approval, request, hpast₂.next, hpast₃.next, hpast₄.earlier.2, happroved, ?_⟩
  refine (evidence_since hpast₄.earlier.1.reach hpast₄.earlier.2).approvals r request ?_ ?_
  · rw [← boundAction_runId hauth.row]
    exact hrequest
  · simp only [BoundAction.approvedBy, Bool.and_eq_true, decide_eq_true_eq] at happroved
    exact happroved.1.2

theorem create_index_authorized_prepared :
    ∃ c, ∃ bound : BoundAction,
      c.label 0 = some (.createIndex 0 ⟨"orders"⟩ preparedAction.toIndexSpec) ∧
      (services mongodb).Reach (evidence mongodb).Allows
        (.quiet ((Preparation.approvedUntil 15).world (preparedCollection []))) c ∧
      c.shared.authorities 0 = some bound.authority ∧
      bound.admission.selectedCandidateId = some bound.authority.candidateId := by
  have hrun : ((services mongodb).exec (stepwise (fun _ _ => true))
      (Event.calls 0 (.deployForRun 0) 19)
      (.quiet ((Preparation.approvedUntil 15).world (preparedCollection [])))).map (·.label 0) =
      some (some (.createIndex 0 ⟨"orders"⟩ preparedAction.toIndexSpec)) := by decide +kernel
  obtain ⟨c, hr, hl⟩ := System.Reach.of_exec_map (stepwise_allows (C := evidence mongodb)
    (fun _ _ _ => trivial) (fun _ _ _ _ => trivial) (fun _ _ _ _ => trivial) (by simp [Event.calls])) hrun
  obtain ⟨bound, _, _, _, _, _, _, _, _, ⟨hauthority, _, hselected⟩, _⟩ :=
    create_index_authorized mongodb hr hl
  exact ⟨c, bound, hl, hr, hauthority, hselected⟩

/-- The approval runs out after the call has looked at it: nobody looks again before the mutation. -/
theorem not_create_index_authorized :
    ¬ ∀ c r ns x, (services mongodb).Reach (evidence mongodb).Allows
        (.quiet ((Preparation.approvedUntil 15).world (preparedCollection []))) c →
      c.label 0 = some (.createIndex r ns x) → authorized c.shared r = true := by
  intro h
  have hrun : ((services mongodb).exec (stepwise (fun _ _ => true))
      (Event.calls 0 (.deployForRun 0) 19 ++ [.env (fun s => { s with now := 15 })])
      (.quiet ((Preparation.approvedUntil 15).world (preparedCollection [])))).map
        (fun c => (c.label 0, authorized c.shared 0)) =
      some (some (.createIndex 0 ⟨"orders"⟩ preparedAction.toIndexSpec), false) := by
    decide +kernel
  obtain ⟨c, hr, hc⟩ := System.Reach.of_exec_map (stepwise_allows (C := evidence mongodb)
    (fun _ _ _ => trivial) (fun _ _ _ _ => trivial) (fun _ _ _ _ => trivial)
    (by
      intro f hf s
      obtain rfl : f = fun s => { s with now := 15 } := by simpa [Event.calls] using hf
      exact .of_eq rfl rfl rfl)) hrun
  obtain ⟨hl, hauth⟩ := Prod.mk.inj hc
  rw [h c _ _ _ hr hl] at hauth
  cases hauth

end NoSQLOptimizer.Production
