import NoSQLOptimizer.Concurrency.Triple
import NoSQLOptimizer.ControlPlane.Rows
import NoSQLOptimizer.Encoding.Text
import NoSQLOptimizer.Ranking.Durable

namespace NoSQLOptimizer.Ranking

open ControlPlane Concurrency Encoding AI

section

variable {received expected : List String}

theorem Covers.perm (h : Covers received expected) : received.Perm expected := by
  obtain ⟨hlength, ⟨hsub, -⟩, hdedup⟩ := h
  have hnodup : received.Nodup := List.dedup_eq_self.mp
    ((List.dedup_sublist received).eq_of_length hdedup)
  exact (List.subperm_of_subset hnodup hsub).perm_of_length_le hlength.ge

end

section

variable {s t u : Store} {r : RunId}

theorem candidatesOf_nodup (s : Store) (r : RunId) :
    ((s.candidatesOf r).map (·.deterministicFingerprint)).Nodup := by
  have hpairs : ((s.candidatesOf r).map (fun c =>
      (c.optimizationRunId, c.deterministicFingerprint))).Nodup :=
    s.fingerprints_nodup.sublist (List.filter_sublist.map _)
  refine List.Nodup.of_map (fun f => (r, f)) ?_
  rw [List.map_map]
  convert hpairs using 1
  apply List.map_congr_left
  intro c hc
  have hrun : c.optimizationRunId = r := by simpa using (List.mem_filter.mp hc).2
  rw [Function.comp, hrun]

theorem orderedCandidates_perm (s : Store) (r : RunId) :
    (s.orderedCandidates r).Perm (s.candidatesOf r) :=
  List.perm_insertionSort _ _

/-- The same candidates are numbered in the same way by every query. -/
theorem orderedCandidates_congr (h : (t.candidatesOf r).Perm (s.candidatesOf r)) :
    t.orderedCandidates r = s.orderedCandidates r := by
  have : Std.Total (fun a b : CandidateRow =>
    a.deterministicFingerprint ≤ b.deterministicFingerprint) := ⟨fun _ _ => le_total _ _⟩
  have : IsTrans CandidateRow (fun a b => a.deterministicFingerprint ≤ b.deterministicFingerprint) :=
    ⟨fun _ _ _ => le_trans⟩
  refine eq_of_perm_of_key (·.deterministicFingerprint)
    ((orderedCandidates_perm t r).trans (h.trans (orderedCandidates_perm s r).symm)) ?_
    (List.pairwise_insertionSort _ _) (List.pairwise_insertionSort _ _)
  exact ((orderedCandidates_perm s r).map _).nodup_iff.mpr (candidatesOf_nodup s r)

end

/-- The ranking orders each of the run's candidates once, and it is what the recorded output says. -/
structure Ranked (S : CandidateRankingService) (s : Store) (a : RankingArtifact) (v : AIInvocation)
    (ranking : CandidateHandleRanking) : Prop where
  generation : (s.generations a.optimizationRunId).isSome = true
  invocation : s.invocation a.aiInvocationId = some v
  stage : v.stage = "RANKING"
  status : v.status = "COMPLETED"
  output : v.validatedOutput = some ranking.dump
  covers : Covers ranking.candidateHandles (handles (s.orderedCandidates a.optimizationRunId).length)
  resolved : resolve ((s.orderedCandidates a.optimizationRunId).map (·.id)) ranking.candidateHandles =
    some a.orderedCandidateIds
  perm : a.orderedCandidateIds.Perm
    ((s.candidatesOf a.optimizationRunId).map (fun c => toString c.id))
  fingerprint : a.artifactFingerprint = S.artifactHash a.optimizationRunId a.generationArtifactId
    a.orderedCandidateIds ranking.dump

/-- What the others may do meanwhile. -/
structure Extends (s t : Store) : Prop where
  generations : ∀ r g, s.generations r = some g → t.generations r = some g
  candidates : ∀ r, (s.generations r).isSome = true → (t.candidatesOf r).Perm (s.candidatesOf r)
  invocations : ∀ id v, s.invocation id = some v → t.invocation id = some v
  artifacts : ∀ a ∈ s.artifacts, a ∈ t.artifacts

structure Consistent (S : CandidateRankingService) (s : Store) : Prop where
  artifacts : ∀ a ∈ s.artifacts, ∃ v ranking, Ranked S s a v ranking
  ids : (s.artifacts.map (·.id)).Nodup
  returned : ∀ x ∈ s.returned, ∃ a ∈ s.artifacts, a.optimizationRunId = x.1 ∧ x.2 = a.result

section

variable {S : CandidateRankingService} {s t u : Store} {r : RunId} {a : RankingArtifact}
  {v : AIInvocation} {ranking : CandidateHandleRanking}

theorem Extends.refl (s : Store) : Extends s s :=
  ⟨fun _ _ h => h, fun _ _ => .refl _, fun _ _ h => h, fun _ h => h⟩

theorem Extends.generation (h : Extends s t) (hg : (s.generations r).isSome = true) :
    (t.generations r).isSome = true := by
  obtain ⟨g, hg⟩ := Option.isSome_iff_exists.mp hg
  rw [h.generations r g hg]
  rfl

theorem Extends.trans (h : Extends s t) (h' : Extends t u) : Extends s u where
  generations r g hg := h'.generations r g (h.generations r g hg)
  candidates r hg := (h'.candidates r (h.generation hg)).trans (h.candidates r hg)
  invocations id v hv := h'.invocations id v (h.invocations id v hv)
  artifacts a ha := h'.artifacts a (h.artifacts a ha)

theorem Ranked.extend (h : Ranked S s a v ranking) (hst : Extends s t) : Ranked S t a v ranking := by
  have hperm := hst.candidates a.optimizationRunId h.generation
  have hordered := orderedCandidates_congr hperm
  exact ⟨hst.generation h.generation, hst.invocations _ v h.invocation, h.stage, h.status, h.output,
    hordered ▸ h.covers, hordered ▸ h.resolved, h.perm.trans (hperm.symm.map _), h.fingerprint⟩

theorem Ranked.verifies (h : Ranked S s a v ranking) :
    S.verifies a v (s.orderedCandidates a.optimizationRunId) = true := by
  rw [CandidateRankingService.verifies, h.output]
  dsimp only
  rw [CandidateHandleRanking.validate_dump]
  simp only [Bool.and_eq_true, decide_eq_true_eq]
  exact ⟨⟨h.covers, h.resolved⟩, h.fingerprint⟩

theorem artifactHash_inj (hsha : Function.Injective S.sha256) {generation : RowId}
    {ordered ordered' : List String} {output output' : Json}
    (h : S.artifactHash r generation ordered output = S.artifactHash r generation ordered' output') :
    ordered = ordered' ∧ output.canonical = output'.canonical := by
  have hget := Json.get_canonical_congr (hsha h)
  have hordered := hget "ordered"
  have houtput := hget "output"
  simp only [Json.get_object_cons, String.reduceEq, if_true, if_false] at hordered houtput
  have hstr (x y : String) (h : (Json.str x).canonical = (Json.str y).canonical) : x = y :=
    Json.str.inj h
  exact ⟨Json.list_inj hstr hordered, houtput⟩

/-- An ordering that verifies with another output, or another ordering, is none that was recorded. -/
theorem Ranked.not_verifies (hsha : Function.Injective S.sha256) (h : Ranked S s a v ranking)
    {ordered : List String} {output : Option Json} {candidates : List CandidateRow}
    (hne : ordered ≠ a.orderedCandidateIds ∨
      output.map (·.canonical) ≠ v.validatedOutput.map (·.canonical)) :
    S.verifies { a with orderedCandidateIds := ordered } { v with validatedOutput := output }
      candidates = false := by
  rw [Bool.eq_false_iff]
  intro hverifies
  rw [CandidateRankingService.verifies] at hverifies
  cases output with
  | none => cases hverifies
  | some output =>
    dsimp only at hverifies
    split at hverifies
    · cases hverifies
    · simp only [Bool.and_eq_true, decide_eq_true_eq] at hverifies
      obtain ⟨hordered, houtput⟩ := artifactHash_inj hsha (hverifies.2.symm.trans h.fingerprint)
      rcases hne with hne | hne
      · exact hne hordered
      · rw [h.output] at hne
        exact hne (congrArg some houtput)

theorem find?_map_update {ρ : Type} (key : ρ → Nat) (f : ρ → ρ) (hf : ∀ x, key (f x) = key x)
    (id id' : Nat) (rows : List ρ) :
    (rows.map (fun x => if key x = id then f x else x)).find? (key · = id') =
      (rows.find? (key · = id')).map (fun x => if key x = id then f x else x) := by
  rw [List.find?_map]
  congr 2
  funext x
  simp only [Function.comp]
  split
  · rw [hf]
  · rfl

theorem artifactById_tampered (ordered : List String) (output : Option Json) (invocationId : RowId)
    (ha : s.artifactById a.id = some a) :
    (s.tampered a.id invocationId ordered output).artifactById a.id =
      some { a with orderedCandidateIds := ordered } := by
  have hfind := find?_map_update (·.id) (fun b => { b with orderedCandidateIds := ordered })
    (fun _ => rfl) a.id a.id s.artifacts
  refine hfind.trans ?_
  have ha' : s.artifacts.find? (·.id = a.id) = some a := ha
  rw [ha', Option.map_some, if_pos rfl]

theorem invocation_tampered (id : RowId) (ordered : List String) (output : Option Json)
    (hv : s.invocation v.id = some v) :
    (s.tampered id v.id ordered output).invocation v.id = some { v with validatedOutput := output } := by
  have hfind := find?_map_update (·.id) (fun w => { w with validatedOutput := output })
    (fun _ => rfl) v.id v.id s.invocations
  refine hfind.trans ?_
  have hv' : s.invocations.find? (·.id = v.id) = some v := hv
  rw [hv', Option.map_some, if_pos rfl]

/-- What the verifier answers, by the rows that it reads. -/
theorem run_verifyRankingIntegrity {id : RowId} (ha : s.artifactById id = some a)
    (hv : s.invocation a.aiInvocationId = some v) (hstage : v.stage = "RANKING")
    (hstatus : v.status = "COMPLETED") :
    (S.verifyRankingIntegrity id).run s =
      (.ok (S.verifies a v (s.orderedCandidates a.optimizationRunId)), s) := by
  simp only [CandidateRankingService.verifyRankingIntegrity, Process.bind_def, Process.pure_def]
  rw [Process.run_bind_ok (Process.run_read _ _ s), ha]
  dsimp only
  rw [Process.run_bind_ok (Process.run_read _ _ s), hv]
  dsimp only
  rw [if_neg (by simp [hstage, hstatus]), Process.run_bind_ok (Process.run_read _ _ s)]
  rfl

/-- The recorded ranking is accepted, and none that it was changed to. -/
structure Verified (S : CandidateRankingService) (s : Store) (a : RankingArtifact) : Prop where
  perm : a.orderedCandidateIds.Perm
    ((s.candidatesOf a.optimizationRunId).map (fun c => toString c.id))
  accepted : (S.verifyRankingIntegrity a.id).run s = (.ok true, s)
  rejected : ∀ v, s.invocation a.aiInvocationId = some v → ∀ ordered output,
    ordered ≠ a.orderedCandidateIds ∨
      output.map (·.canonical) ≠ v.validatedOutput.map (·.canonical) →
    ((S.verifyRankingIntegrity a.id).run (s.tampered a.id v.id ordered output)).1 = .ok false

theorem Ranked.verified (hsha : Function.Injective S.sha256) (h : Ranked S s a v ranking)
    (ha : s.artifactById a.id = some a) : Verified S s a := by
  refine ⟨h.perm, ?_, fun w hw ordered output hne => ?_⟩
  · rw [run_verifyRankingIntegrity ha h.invocation h.stage h.status, h.verifies]
  · rw [h.invocation] at hw
    cases hw
    have hid : v.id = a.aiInvocationId := by simpa using List.find?_some h.invocation
    have hv : s.invocation v.id = some v := by rw [hid]; exact h.invocation
    have hv' : (s.tampered a.id v.id ordered output).invocation a.aiInvocationId =
        some { v with validatedOutput := output } :=
      (congrArg _ hid.symm).trans (invocation_tampered a.id ordered output hv)
    rw [run_verifyRankingIntegrity (artifactById_tampered ordered output v.id ha) hv' h.stage h.status]
    exact congrArg Except.ok (h.not_verifies hsha hne)

end

section

variable {S : CandidateRankingService} {ι : Type} {i : ι} {r : RunId}

/-- Any calls, among surroundings that leave the candidates alone. -/
abbrev outside (S : CandidateRankingService) (ι : Type) : (rankings S ι).Conduct where
  env := Outside

/-- The tables are consistent, and grow only. -/
def tables (S : CandidateRankingService) (ι : Type) : Discipline (outside S ι) where
  inv := Consistent S
  grows := Extends
  rely _ := Extends
  rely_grows := fun h => h
  idle _ _ := True
  refl _ := Extends.refl
  trans := Extends.trans
  idle_stable := fun _ _ => trivial

theorem tables_crashable (K : Store → Prop) : (tables S ι).Crashable i K :=
  fun _ _ hs _ _ => ⟨.refl hs, trivial⟩

/-- The run's generation is complete, and these are its candidates. -/
def Numbered (r : RunId) (generation : GenerationRow) (ids : List CandidateId) (s : Store) : Prop :=
  s.generations r = some generation ∧ ids = (s.orderedCandidates r).map (·.id)

theorem numbered_stable (generation : GenerationRow) (ids : List CandidateId) :
    (tables S ι).Stable i (Numbered r generation ids) := by
  rintro s t hst - ⟨hg, hids⟩
  have hperm := Extends.candidates hst r (by rw [hg]; rfl)
  exact ⟨Extends.generations hst r generation hg, by rw [orderedCandidates_congr hperm, hids]⟩

theorem generation_stable (o : Option GenerationRow) :
    (tables S ι).Stable i (fun s => ∀ g, o = some g → s.generations r = some g) :=
  .opt (fun g _ _ hst _ hg => Extends.generations hst r g hg)

theorem fail_triple {α : Type} {K : Store → Prop} {Q : α → Store → Prop}
    (hK : (tables S ι).Stable i K) (e : Error) :
    (tables S ι).Triple i K (.fail e) Q (fun _ _ => True) :=
  .fail hK (fun _ _ _ => trivial)

theorem require_triple {K : Store → Prop} (hK : (tables S ι).Stable i K) (holds : Prop)
    [Decidable holds] (message : String) :
    (tables S ι).Triple i K (require holds message) (fun _ s => K s ∧ holds) (fun _ _ => True) := by
  refine (Discipline.Triple.raiseIf hK (fun _ _ _ => trivial)).post ?_
  rintro _ s - ⟨hk, h⟩
  exact ⟨hk, by simpa using h⟩

/-- What is loaded numbers the run's candidates as any later query does. -/
theorem load_triple :
    (tables S ι).Triple i (fun _ => True) (S.load r)
      (fun payload s => ∃ g, Numbered r g payload.candidateIds s) (fun _ _ => True) := by
  refine .bind (.read (Q := fun _ _ => True) (.const True) (tables_crashable _)
    (fun _ => .const True) (fun _ _ _ _ => trivial)) (fun run => ?_)
  refine .bind (.read (Q := fun o s => ∀ g, o = some g → s.generations r = some g) (.const True)
    (tables_crashable _) generation_stable (fun _ _ _ _ _ hg => hg)) (fun generation => ?_)
  refine .bind (.read (Q := fun _ s => ∀ g, generation = some g → s.generations r = some g)
    (generation_stable _) (tables_crashable _) (fun _ => generation_stable _)
    (fun _ _ hg _ => hg)) (fun diagnosed => ?_)
  have hnumbered (candidates : List CandidateRow) : (tables S ι).Stable i (fun s => ∀ g,
      generation = some g → Numbered r g (candidates.map (·.id)) s) :=
    .opt (fun g => numbered_stable g _)
  refine .bind (.read (Q := fun candidates s => ∀ g, generation = some g →
    Numbered r g (candidates.map (·.id)) s) (generation_stable _) (tables_crashable _) hnumbered
    (fun _ _ hg _ g h => ⟨hg g h, rfl⟩)) (fun candidates => ?_)
  refine .bind (.read (Q := fun _ s => ∀ g, generation = some g →
    Numbered r g (candidates.map (·.id)) s) (hnumbered _) (tables_crashable _)
    (fun _ => hnumbered _) (fun _ _ h _ => h)) (fun summaries => ?_)
  cases run.bind (·.workloadSnapshotId) with
  | none => exact fail_triple (hnumbered _) _
  | some snapshotId =>
    cases generation with
    | none => exact fail_triple (hnumbered _) _
    | some g =>
      have hg : (tables S ι).Stable i (Numbered r g (candidates.map (·.id))) := numbered_stable g _
      refine Discipline.Triple.pre (K := Numbered r g (candidates.map (·.id))) ?_
        (fun _ _ h => h g rfl)
      refine .bind (require_triple hg _ _) (fun _ => ?_)
      refine .bind (require_triple (hg.and (.const _)) _ _) (fun _ => ?_)
      cases summaries with
      | none => exact fail_triple ((hg.and (.const _)).and (.const _)) _
      | some summaries =>
        exact .ret ((hg.and (.const _)).and (.const _)) (fun _ _ h => ⟨g, h.1.1⟩)

/-- What the run's ranking is returned as. -/
def Kept (r : RunId) (x : CandidateRankingResult) (s : Store) : Prop :=
  ∃ a ∈ s.artifacts, a.optimizationRunId = r ∧ x = a.result

theorem kept_permanent (x : CandidateRankingResult) : (tables S ι).Permanent (Kept r x) :=
  fun _ _ hst _ ⟨a, ha, hx⟩ => ⟨a, Extends.artifacts hst a ha, hx⟩

theorem artifactForRun_kept {s : Store} {a : RankingArtifact} (h : s.artifactForRun r = some a) :
    Kept r a.result s :=
  ⟨a, List.mem_of_find?_eq_some h, by simpa using List.find?_some h, rfl⟩

theorem existing_triple {K : Store → Prop} (l : Label) (hK : (tables S ι).Stable i K) :
    (tables S ι).Triple i K (Process.read l (fun s => s.artifactForRun r))
      (fun o s => K s ∧ ∀ a, o = some a → Kept r a.result s) (fun _ _ => True) :=
  .read hK (tables_crashable _)
    (fun _ => hK.and (.opt (fun a => (kept_permanent a.result).stable)))
    (fun _ _ hk _ => ⟨hk, fun _ h => artifactForRun_kept h⟩)

/-- The provider's ordering of these candidates, as handles and as ids. -/
structure Ordering (ids : List CandidateId) (ranking : CandidateHandleRanking)
    (received : List String) : Prop where
  covers : Covers ranking.candidateHandles (handles ids.length)
  resolved : resolve ids ranking.candidateHandles = some received
  perm : received.Perm (ids.map toString)

section

variable {s : Store} {payload : Payload} {generation : GenerationRow} {received : List String}
  {ranking : CandidateHandleRanking}

/-- The tables after both inserts. -/
abbrev inserted (S : CandidateRankingService) (r : RunId) (payload : Payload)
    (received : List String) (output : Json) (s : Store) : Store :=
  { s with
    invocations := s.invocations ++ [S.invocation r payload output s]
    artifacts := s.artifacts ++ [S.artifact r payload received output s] }

theorem inserted_extends (output : Json) : Extends s (inserted S r payload received output s) where
  generations _ _ h := h
  candidates _ _ := .refl _
  invocations id v h := by
    have h : s.invocations.find? (·.id = id) = some v := h
    rw [Store.invocation, List.find?_append, h]
    rfl
  artifacts _ h := List.mem_append_left _ h

theorem inserted_ranked (hnumbered : Numbered r generation payload.candidateIds s)
    (h : Ordering payload.candidateIds ranking received) :
    Ranked S (inserted S r payload received ranking.dump s)
      (S.artifact r payload received ranking.dump s) (S.invocation r payload ranking.dump s)
      ranking := by
  obtain ⟨hg, hids⟩ := hnumbered
  have hlength : payload.candidateIds.length = (s.orderedCandidates r).length := by
    rw [hids, List.length_map]
  have hperm : received.Perm ((s.candidatesOf r).map (fun c => toString c.id)) := by
    refine h.perm.trans ?_
    rw [hids, List.map_map]
    exact (orderedCandidates_perm s r).map _
  have hnew : s.invocations.find? (·.id = s.freshInvocationId) = none := by
    refine List.find?_eq_none.mpr (fun v hv => ?_)
    rw [decide_eq_true_eq]
    exact (lt_foldr_max (·.id) hv).ne
  have hfound : (inserted S r payload received ranking.dump s).invocation s.freshInvocationId =
      some (S.invocation r payload ranking.dump s) := by
    rw [Store.invocation, List.find?_append, hnew, Option.none_or]
    exact List.find?_cons_of_pos (decide_eq_true rfl)
  exact ⟨Option.isSome_iff_exists.mpr ⟨generation, hg⟩, hfound, rfl, rfl, rfl, hlength ▸ h.covers,
    (congrArg (fun ids => resolve ids ranking.candidateHandles) hids).symm.trans h.resolved, hperm,
    rfl⟩

theorem Consistent.insert (hs : Consistent S s)
    (hnumbered : Numbered r generation payload.candidateIds s)
    (h : Ordering payload.candidateIds ranking received) :
    (tables S ι).Admits i s (inserted S r payload received ranking.dump s) := by
  have hextends : Extends s (inserted S r payload received ranking.dump s) :=
    inserted_extends ranking.dump
  refine ⟨⟨fun a ha => ?_, ?_, fun x hx => ?_⟩, hextends, fun _ _ => hextends⟩
  · rcases List.mem_append.mp ha with ha | ha
    · obtain ⟨v, ranking', hranked⟩ := hs.artifacts a ha
      exact ⟨v, ranking', hranked.extend hextends⟩
    · rw [List.mem_singleton.mp ha]
      exact ⟨_, _, inserted_ranked hnumbered h⟩
  · exact nodup_map_concat hs.ids (fun a ha => (lt_foldr_max (·.id) ha).ne)
  · obtain ⟨a, ha, hx⟩ := hs.returned x hx
    exact ⟨a, List.mem_append_left _ ha, hx⟩

end

theorem persist_triple {generation : GenerationRow} {payload : Payload} {received : List String}
    {ranking : CandidateHandleRanking} (h : Ordering payload.candidateIds ranking received) :
    (tables S ι).Triple i (Numbered r generation payload.candidateIds)
      (S.persist r payload received ranking.dump) (Kept r) (fun _ _ => True) := by
  have hnumbered := numbered_stable (S := S) (ι := ι) (i := i) (r := r) generation
    payload.candidateIds
  refine .bind (existing_triple .current hnumbered) (fun o => ?_)
  have hkept : (tables S ι).Stable i (fun s => ∀ a, o = some a → Kept r a.result s) :=
    .opt (fun a => (kept_permanent a.result).stable)
  cases o with
  | some a => exact .ret (hnumbered.and hkept) (fun _ _ hk => hk.2 a rfl)
  | none =>
    refine .atomic (hnumbered.and hkept) (tables_crashable _)
      (fun x => (kept_permanent x).stable) (fun _ => .const True) ?_ (fun _ _ _ _ _ _ => trivial)
    rintro s x t hs ⟨hk, -⟩ - ht
    unfold CandidateRankingService.insert at ht
    dsimp only at ht
    split_ifs at ht
    cases ht
    exact ⟨hs.insert hk h, _, List.mem_append_right _ List.mem_cons_self, rfl, rfl⟩

/-- Whatever the provider answers, what is returned is kept. -/
theorem createForRun_triple (answer : CandidateRankingService.Answer) :
    (tables S ι).Triple i (fun _ => True) (S.createForRun r answer) (Kept r)
      (fun _ _ => True) := by
  refine .bind (existing_triple .existing (.const True)) (fun o => ?_)
  have hkept : (tables S ι).Stable i (fun s => True ∧ ∀ a, o = some a → Kept r a.result s) :=
    (Discipline.Stable.const True).and (.opt (fun a => (kept_permanent a.result).stable))
  cases o with
  | some a => exact .ret hkept (fun _ _ hk => hk.2 a rfl)
  | none =>
    refine .bind (load_triple.pre (fun _ _ _ => trivial)) (fun payload => ?_)
    have hloaded : (tables S ι).Stable i (fun s => ∃ g, Numbered r g payload.candidateIds s) :=
      .ex (fun g => numbered_stable g _)
    cases hanswer : answer (CandidateRankingService.transport payload) with
    | error failure => exact fail_triple hloaded _
    | ok ranking =>
      refine .bind (require_triple hloaded _ _) (fun _ => ?_)
      cases hresolve : resolve payload.candidateIds ranking.candidateHandles with
      | none => exact fail_triple (hloaded.and (.const _)) _
      | some received =>
        refine .bind (require_triple (hloaded.and (.const _)) _ _) (fun _ => ?_)
        rintro s hs ⟨⟨⟨g, hg⟩, hhandles⟩, hids⟩
        exact persist_triple ⟨hhandles, hresolve, hids.perm⟩ s hs hg

theorem call_triple (k : RunId × CandidateRankingService.Answer) :
    (tables S ι).Triple i (fun _ => True) ((rankings S ι).call i k) (fun _ _ => True)
      (fun _ _ => True) := by
  refine .bind (createForRun_triple k.2) (fun x => .modify (kept_permanent x).stable
    (tables_crashable _) (.const True) ?_)
  rintro s hs hkept -
  have hextends : Extends s { s with returned := s.returned ++ [(k.1, x)] } :=
    ⟨fun _ _ h => h, fun _ _ => .refl _, fun _ _ h => h, fun _ h => h⟩
  refine ⟨⟨⟨fun a ha => ?_, hs.ids, fun y hy => ?_⟩, hextends, fun _ _ => hextends⟩, trivial⟩
  · obtain ⟨v, ranking, hranked⟩ := hs.artifacts a ha
    exact ⟨v, ranking, hranked.extend hextends⟩
  · rcases List.mem_append.mp hy with hy | hy
    · exact hs.returned y hy
    · rw [List.mem_singleton.mp hy]
      exact hkept

theorem Outside.neutral {s t : Store} (h : Outside s t) (hs : Consistent S s) :
    (tables S ι).Neutral s t := by
  have hextends : Extends s t := by
    refine ⟨h.generations, h.candidates, fun id v hv => ?_, fun a ha => h.artifacts.symm ▸ ha⟩
    obtain ⟨more, hmore⟩ := h.invocations
    have hv : s.invocations.find? (·.id = id) = some v := hv
    rw [Store.invocation, hmore, List.find?_append, hv]
    rfl
  refine ⟨⟨fun a ha => ?_, h.artifacts.symm ▸ hs.ids, fun x hx => ?_⟩, fun _ => hextends⟩
  · obtain ⟨v, ranking, hranked⟩ := hs.artifacts a (h.artifacts ▸ ha)
    exact ⟨v, ranking, hranked.extend hextends⟩
  · obtain ⟨a, ha, hx⟩ := hs.returned x (h.returned ▸ hx)
    exact ⟨a, h.artifacts.symm ▸ ha, hx⟩

theorem require_always (holds : Prop) [Decidable holds] (message : String) :
    (require holds message).Always (fun _ s t => t = s) (fun _ => True) :=
  .raiseIf (fun _ => trivial)

theorem load_always (S : CandidateRankingService) (r : RunId) :
    (S.load r).Always (fun _ s t => t = s) (fun _ => True) := by
  have hread {α : Type} (l : Label) (f : Store → α) :
      (Process.read l f : Proc α).Always (fun _ s t => t = s) (fun _ => True) :=
    .read l f (fun _ => rfl) (fun _ => trivial)
  have hthen {α β : Type} {p : Proc α} {f : α → Proc β}
      (hp : p.Always (fun _ s t => t = s) (fun _ => True))
      (hf : ∀ a, (f a).Always (fun _ s t => t = s) (fun _ => True)) :
      (p.bind f).Always (fun _ s t => t = s) (fun _ => True) :=
    hp.bind (fun a _ => hf a) (fun _ _ => trivial)
  refine hthen (hread _ _) (fun run => hthen (hread _ _) (fun generation => hthen (hread _ _)
    (fun diagnosed => hthen (hread _ _) (fun candidates => hthen (hread _ _)
      (fun summaries => ?_)))))
  cases run.bind (·.workloadSnapshotId) with
  | none => trivial
  | some snapshotId =>
    cases generation with
    | none => trivial
    | some generation =>
      refine hthen (require_always _ _) (fun _ => hthen (require_always _ _) (fun _ => ?_))
      cases summaries with
      | none => trivial
      | some summaries => trivial

/-- A ranking that fails has persisted nothing. -/
theorem createForRun_allOrNothing (S : CandidateRankingService) (r : RunId)
    (answer : CandidateRankingService.Answer) : (S.createForRun r answer).AllOrNothing := by
  have hread (l : Label) : (Process.read l (fun s => s.artifactForRun r) : Proc _).Always
      (fun _ s t => t = s) (fun _ => True) := .read _ _ (fun _ => rfl) (fun _ => trivial)
  refine .bind (hread .existing) (fun o => ?_)
  cases o with
  | some a => exact .of_always (Q := fun _ => True) trivial
  | none =>
    refine .bind (load_always S r) (fun payload => ?_)
    cases answer (CandidateRankingService.transport payload) with
    | error failure => exact .of_always (Q := fun _ => True) trivial
    | ok ranking =>
      refine .bind (require_always _ _) (fun _ => ?_)
      cases resolve payload.candidateIds ranking.candidateHandles with
      | none => exact .of_always (Q := fun _ => True) trivial
      | some received =>
        refine .bind (require_always _ _) (fun _ => .bind (hread .current) (fun o => ?_))
        cases o with
        | some a => exact .of_always (Q := fun _ => True) trivial
        | none => exact .atomic _ _

/-- No ranking is there yet. -/
structure Store.Fresh (s : Store) : Prop where
  artifacts : s.artifacts = []
  returned : s.returned = []

theorem Store.Fresh.consistent {s : Store} (h : s.Fresh) : Consistent S s := by
  refine ⟨fun a ha => ?_, by simp [h.artifacts], fun x hx => ?_⟩
  · rw [h.artifacts] at ha
    cases ha
  · rw [h.returned] at hx
    cases hx

end

section

/-- A service whose digest is the document itself, in words. -/
def verbatim : CandidateRankingService where
  sha256 := Json.text
  dumps := Json.text
  providerName := "fake"
  chatModel := "fake"

def indexCandidate (id : CandidateId) (fingerprint : String) : CandidateRow where
  id := id
  optimizationRunId := 1
  deterministicFingerprint := fingerprint
  policyClassification := some "AUTO_ELIGIBLE_AFTER_ADMISSION"

/-- A run with two candidates; the one that was inserted first is listed last. -/
def unranked : Store where
  runs r := if r = 1 then some
    { targetId := 7, workloadSnapshotId := some 0, status := .diagnosing, requestedByUserId := 1,
      deploymentMode := .approvalControlled } else none
  generations r := if r = 1 then some ⟨3, 2⟩ else none
  diagnosed r := r = 1
  candidates := [indexCandidate 8 "b", indexCandidate 9 "a"]
  actions := [⟨8, "CREATE_INDEX", .object []⟩, ⟨9, "CREATE_INDEX", .object []⟩]

def reversed : CandidateHandleRanking where
  candidateHandles := ["C2", "C1"]
  rationale := ⟨"the second one first", by decide⟩

end

end NoSQLOptimizer.Ranking
