import NoSQLOptimizer.Concurrency.Serial
import NoSQLOptimizer.ControlPlane.Rows
import NoSQLOptimizer.Evaluation.Durable

namespace NoSQLOptimizer.Evaluation.Durable

open ControlPlane Concurrency Transactions

/-- A lock on a row, which the database takes. -/
def Key.IsRow : Key → Prop
  | gap _ => False
  | _ => True

section

variable {ι : Type} [DecidableEq ι]

/-- A statement waits for the rows that it needs, and for nothing else. -/
def Waits (i : ι) : Statement Query → Store ι → Prop
  | .exec b, s => ∀ k ∈ b.needs (schema.view i s), k.IsRow → ∀ j, j ≠ i → k ∉ (s.sessions j).locks
  | _, _ => True

/-- Where the candidate's evaluation run is looked for and not found, no other session has looked for it
in vain and is still at it. -/
def Apart (i : ι) : Statement Query → Store ι → Prop
  | .exec (.selectEvaluation c), s => (schema.view i s).runsOf c = [] →
      ∀ j, j ≠ i → .gap c ∉ (s.sessions j).locks
  | _, _ => True

/-- Any calls, which nobody else interferes with. -/
def overlapping (ι : Type) [DecidableEq ι] : (schema.system (call (ι := ι))).Conduct where
  acts := Waits
  env _ _ := False

def apart (ι : Type) [DecidableEq ι] : (schema.system (call (ι := ι))).Conduct where
  acts i l s := Waits i l s ∧ Apart i l s
  env _ _ := False

end

/-- The rows are unique under their keys, and so is the evaluation run of a candidate. -/
structure Single (t : Tables) : Prop where
  ids : (t.evaluationRuns.map (·.id)).Nodup
  candidates : (t.evaluationRuns.map (·.candidateId)).Nodup
  pairs : (t.trialPairs.map (·.id)).Nodup
  numbers : (t.trialPairs.map (fun pair => (pair.evaluationRunId, pair.pairNumber))).Nodup

/-- A candidate has one evaluation run at most, with one pair of each number at most, and more pairs can
be recorded. -/
structure Recordable (ι : Type) [DecidableEq ι] (t : Tables) : Prop where
  once : ∀ c, (t.runsOf c).length ≤ 1
  numbered : ∀ c number, (t.trialPairs.filter (fun pair => pair.pairNumber = number ∧
    ∃ run ∈ t.runsOf c, run.id = pair.evaluationRunId)).length ≤ 1
  later : ∀ (i : ι) (p : Recording), p.armOrder = "AB" ∨ p.armOrder = "BA" →
    p.candidateId ∈ t.candidates → t.evaluation p.evaluationId = none → t.pair p.pairId = none →
    ∃ id, ((recordPair i p).run { tables := t }).1 = .ok id

section

variable {t u : Tables}

theorem mem_runsOf {run : EvaluationRun} {c : CandidateId} :
    run ∈ t.runsOf c ↔ run ∈ t.evaluationRuns ∧ run.candidateId = c := by
  simp [Tables.runsOf]

theorem numbered_none {id : RowId} {number : Int} (h : t.numbered id number = none)
    {pair : TrialPair} (hpair : pair ∈ t.trialPairs) :
    (pair.evaluationRunId, pair.pairNumber) ≠ (id, number) := by
  intro heq
  obtain ⟨hid, hnumber⟩ := Prod.mk.inj heq
  have := List.find?_eq_none.mp h pair (List.mem_filter.mpr ⟨hpair, decide_eq_true hid⟩)
  exact this (decide_eq_true hnumber)

theorem Single.insertEvaluation (h : Single t) {run : EvaluationRun}
    (hrun : t.evaluation run.id = none) (hnone : t.runsOf run.candidateId = []) :
    Single ((Write.insertEvaluation run).apply t) := by
  refine ⟨nodup_map_concat h.ids ?_, nodup_map_concat h.candidates ?_, h.pairs, h.numbers⟩
  · intro other hother
    simpa using List.find?_eq_none.mp hrun other hother
  · intro other hother heq
    have := mem_runsOf.mpr ⟨hother, heq⟩
    rw [hnone] at this
    cases this

theorem Single.insertPair (h : Single t) {pair : TrialPair} (hpair : t.pair pair.id = none)
    (hnumber : t.numbered pair.evaluationRunId pair.pairNumber = none) :
    Single ((Write.insertPair pair).apply t) := by
  refine ⟨h.ids, h.candidates, nodup_map_concat h.pairs ?_, nodup_map_concat h.numbers ?_⟩
  · intro other hother
    simpa using List.find?_eq_none.mp hpair other hother
  · exact fun other hother => numbered_none hnumber hother

theorem Single.complete (h : Single t) (id : RowId) : Single ((Write.complete id).apply t) := by
  have hids : ((Write.complete id).apply t).evaluationRuns.map (·.id) =
      t.evaluationRuns.map (·.id) := by
    simp only [Write.apply, List.map_map]
    exact List.map_congr_left (fun run _ => run.completed_id id)
  have hcandidates : ((Write.complete id).apply t).evaluationRuns.map (·.candidateId) =
      t.evaluationRuns.map (·.candidateId) := by
    simp only [Write.apply, List.map_map]
    exact List.map_congr_left (fun run _ => run.completed_candidateId id)
  exact ⟨hids ▸ h.ids, hcandidates ▸ h.candidates, h.pairs, h.numbers⟩

theorem Single.completeAll (h : Single t) (ids : List RowId) :
    Single (schema.applyAll (ids.map .complete) t) := by
  induction ids generalizing t with
  | nil => exact h
  | cons id ids ih => exact ih (h.complete id)

theorem length_le_one_of_subsingleton {α : Type} {l : List α} (hl : l.Nodup)
    (h : ∀ a ∈ l, ∀ b ∈ l, a = b) : l.length ≤ 1 := by
  rcases l with _ | ⟨a, _ | ⟨b, l⟩⟩
  · exact Nat.zero_le 1
  · exact Nat.le_refl 1
  · have hab := h a List.mem_cons_self b (List.mem_cons_of_mem a List.mem_cons_self)
    exact absurd (hab ▸ List.mem_cons_self) (List.nodup_cons.mp hl).1

theorem Single.runsOf_length (h : Single t) (c : CandidateId) : (t.runsOf c).length ≤ 1 := by
  refine length_le_one_of_subsingleton (h.ids.of_map.filter _) (fun run hrun other hother => ?_)
  obtain ⟨hrun, hc⟩ := mem_runsOf.mp hrun
  obtain ⟨hother, hc'⟩ := mem_runsOf.mp hother
  exact List.inj_on_of_nodup_map h.candidates hrun hother (hc.trans hc'.symm)

theorem Single.runsOf (h : Single t) (c : CandidateId) :
    t.runsOf c = [] ∨ ∃ run, t.runsOf c = [run] := by
  have hlength := h.runsOf_length c
  rcases hruns : t.runsOf c with _ | ⟨run, _ | ⟨other, rest⟩⟩
  · exact .inl rfl
  · exact .inr ⟨run, rfl⟩
  · rw [hruns] at hlength
    exact absurd hlength (by simp)

theorem Single.numbered_length (h : Single t) (c : CandidateId) (number : Int) :
    (t.trialPairs.filter (fun pair => pair.pairNumber = number ∧
      ∃ run ∈ t.runsOf c, run.id = pair.evaluationRunId)).length ≤ 1 := by
  refine length_le_one_of_subsingleton (h.pairs.of_map.filter _) (fun pair hpair other hother => ?_)
  obtain ⟨hpair, hfound⟩ := List.mem_filter.mp hpair
  obtain ⟨hother, hfound'⟩ := List.mem_filter.mp hother
  obtain ⟨hnumber, run, hrun, hid⟩ := of_decide_eq_true hfound
  obtain ⟨hnumber', run', hrun', hid'⟩ := of_decide_eq_true hfound'
  have hsame : run = run' := by
    rcases h.runsOf c with hnone | ⟨only, honly⟩
    · rw [hnone] at hrun
      cases hrun
    · rw [honly] at hrun hrun'
      exact (List.mem_singleton.mp hrun).trans (List.mem_singleton.mp hrun').symm
  refine List.inj_on_of_nodup_map h.numbers hpair hother (Prod.ext ?_ (hnumber.trans hnumber'.symm))
  exact hid.symm.trans ((congrArg (·.id) hsame).trans hid')

variable {ι : Type} [DecidableEq ι] {i : ι}

/-- With one evaluation run of the candidate at most, a recording goes through. -/
theorem Single.later (h : Single t) {p : Recording} (harm : p.armOrder = "AB" ∨ p.armOrder = "BA")
    (hcandidate : p.candidateId ∈ t.candidates) (hevaluation : t.evaluation p.evaluationId = none)
    (hpair : t.pair p.pairId = none) :
    ∃ id, ((recordPair i p).run { tables := t }).1 = .ok id := by
  unfold recordPair
  rw [if_neg (fun hno => harm.elim hno.1 hno.2)]
  refine Completes.transaction (Q := fun _ _ => True) (.bind
    (Q := fun _ u => u.pair p.pairId = none) (.bind
      (Q := fun o u => u = t) (.execute ?_) (fun o => ?_)) (fun run => ?_))
  · rintro u rfl
    rcases h.runsOf p.candidateId with hnone | ⟨run, hrun⟩
    · rw [hnone]
      exact ⟨none, [], rfl, rfl⟩
    · rw [hrun]
      exact ⟨some run, [], rfl, rfl⟩
  · cases o with
    | some run =>
      refine .ret ?_
      rintro u rfl
      exact hpair
    | none =>
      refine .execute ?_
      rintro u rfl
      refine ⟨p.evaluationRun, [.insertEvaluation p.evaluationRun], ?_, hpair⟩
      change (if p.candidateId ∉ u.candidates then _ else
        if (u.evaluation p.evaluationId).isSome = true then _ else _) = _
      rw [if_neg (not_not.mpr hcandidate), hevaluation]
      rfl
  · refine .bind (Q := fun o u => u.pair p.pairId = none ∧ o = u.numbered run.id p.pairNumber)
      (.execute (fun u hu => ⟨_, [], rfl, hu, rfl⟩)) (fun o => ?_)
    cases o with
    | some pair => exact .ret (fun _ _ => trivial)
    | none =>
      refine .bind (Q := fun _ _ => True) (.execute ?_) (fun _ => .ret (fun _ _ => trivial))
      rintro u ⟨hu, hnone⟩
      refine ⟨p.trialPair run.id, [.insertPair (p.trialPair run.id)], ?_, trivial⟩
      change (if (u.pair p.pairId).isSome = true then _ else
        if (u.numbered run.id p.pairNumber).isSome = true then _ else _) = _
      rw [hu, ← hnone]
      rfl

theorem Single.recordable (h : Single t) : Recordable ι t :=
  ⟨h.runsOf_length, h.numbered_length, fun _ _ => h.later⟩

end

/-- Where the sessions that look in vain for an evaluation run keep apart, the rows they lock are all
that they need to lock. -/
theorem grants_of_apart {ι : Type} {i : ι} {l : Statement Query} {s : Store ι} (hwaits : Waits i l s)
    (hapart : Apart i l s) : schema.Grants i s l := by
  cases l with
  | commit => trivial
  | rollback => trivial
  | exec b =>
    intro k hk j hj
    by_cases hrow : k.IsRow
    · exact hwaits k hk hrow j hj
    · cases k with
      | evaluation id => exact absurd trivial hrow
      | pair id => exact absurd trivial hrow
      | gap c =>
        cases b with
        | selectEvaluation c' =>
          simp only [schema, Query.needs] at hk
          split at hk
          · next hnone =>
            cases List.mem_singleton.mp hk
            exact hapart hnone j hj
          · simp at hk
        | _ => simp [schema, Query.needs] at hk

section

variable {ι : Type} [DecidableEq ι] {i : ι}

abbrev locking (ι : Type) [DecidableEq ι] :
    Discipline (schema.conduct (call (ι := ι)) (fun _ _ _ => True) (fun _ _ => False)) :=
  discipline _ schema Single (fun _ _ => True)

theorem frame_evaluation {ks : List Key} {id : RowId} (h : .evaluation id ∈ ks)
    (o : Option EvaluationRun) : Frame schema ks (fun t => t.evaluation id = o) :=
  fun _ _ hsame ht => (hsame _ h).1.symm.trans ht

theorem frame_numbered {ks : List Key} {id : RowId} (h : .evaluation id ∈ ks) (number : Int)
    (o : Option TrialPair) : Frame schema ks (fun t => t.numbered id number = o) := by
  intro t u hsame ht
  have hpairs : t.pairsOf id = u.pairsOf id := (hsame _ h).2
  rw [Tables.numbered, ← hpairs]
  exact ht

theorem frame_pair {ks : List Key} {id : RowId} (h : .pair id ∈ ks) (o : Option TrialPair) :
    Frame schema ks (fun t => t.pair id = o) :=
  fun _ _ hsame ht => (hsame _ h).symm.trans ht

theorem frame_gap {ks : List Key} {c : CandidateId} (h : .gap c ∈ ks) :
    Frame schema ks (fun t => t.runsOf c = []) := by
  intro t u hsame ht
  have hids : (t.runsOf c).map (·.id) = (u.runsOf c).map (·.id) := hsame _ h
  rw [ht] at hids
  exact List.map_eq_nil_iff.mp hids.symm

/-- The evaluation run is locked, and what has been written so far may be committed; no pair has been
written yet. -/
def Prepared (i : ι) (run : EvaluationRun) (s : Store ι) : Prop :=
  ∃ ls ws R, Held i ls ws R s ∧ Frame schema ls R ∧ .evaluation run.id ∈ ls ∧
    ∀ t, Single t → R t →
      Single (schema.applyAll ws t) ∧ (schema.applyAll ws t).trialPairs = t.trialPairs

/-- What a session has locked once it has looked for the candidate's evaluation run. -/
def sought (c : CandidateId) : Option EvaluationRun → List Key
  | none => [.gap c]
  | some run => [.evaluation run.id]

def Looked (i : ι) (c : CandidateId) (o : Option EvaluationRun) : Store ι → Prop :=
  Held i (sought c o) [] (fun t => o = none → t.runsOf c = [])

theorem frame_looked (c : CandidateId) (o : Option EvaluationRun) :
    Frame schema (sought c o) (fun t => o = none → t.runsOf c = []) := by
  intro t u hsame ht hnone
  subst hnone
  exact frame_gap List.mem_cons_self t u hsame (ht rfl)

theorem selectEvaluation_triple (c : CandidateId) :
    (locking ι).Triple i (fun s => s.sessions i = {}) (selectEvaluation i c) (Looked i c)
      (fun _ _ => True) := by
  refine Discipline.Triple.pre (K := Held i [] [] (fun _ => True))
    (execute_triple (Frame.true []) (frame_looked c) ?_) (fun s _ hs => ⟨hs, trivial⟩)
  intro t o new _ _ _ hf
  simp only [schema, Schema.applyAll, List.foldl_nil, Query.needs] at hf ⊢
  split at hf
  · next hnone =>
    cases hf
    rw [if_pos hnone]
    exact ⟨rfl, rfl, (fun _ hw => by cases hw), fun _ => hnone⟩
  · next run hrun =>
    cases hf
    rw [hrun]
    exact ⟨rfl, rfl, (fun _ hw => by cases hw), fun hnone => by cases hnone⟩
  · cases hf

theorem insertEvaluation_triple (p : Recording) :
    (locking ι).Triple i (Looked i p.candidateId none) (insertEvaluation i p.evaluationRun)
      (Prepared i) (fun _ _ => True) := by
  have hframe (run : EvaluationRun) : Frame schema [.gap p.candidateId, .evaluation p.evaluationId]
      (fun t => (t.runsOf p.candidateId = [] ∧ t.evaluation p.evaluationId = none) ∧
        run = p.evaluationRun) :=
    ((frame_gap List.mem_cons_self).and
      (frame_evaluation (List.mem_cons_of_mem _ List.mem_cons_self) none)).and
      (fun _ _ _ h => h)
  refine Discipline.Triple.post (execute_triple (W := fun _ => [.insertEvaluation p.evaluationRun])
    (frame_looked _ _) hframe ?_) (fun run s _ hs => ?_)
  · intro t run new _ ht _ hf
    split at hf
    · cases hf
    · split at hf
      · cases hf
      · next hnew =>
        cases hf
        refine ⟨rfl, rfl, ?_, ⟨ht rfl, Option.not_isSome_iff_eq_none.mp hnew⟩, rfl⟩
        simp [schema, Write.keys, Recording.evaluationRun]
  · obtain ⟨-, -, hrun⟩ := id hs
    subst hrun
    refine ⟨_, _, _, hs, hframe _, List.mem_cons_of_mem _ List.mem_cons_self, fun t ht hnew => ?_⟩
    exact ⟨ht.insertEvaluation hnew.1.2 hnew.1.1, rfl⟩

theorem evaluationFor_triple (p : Recording) :
    (locking ι).Triple i (fun s => s.sessions i = {}) (evaluationFor i p) (Prepared i)
      (fun _ _ => True) := by
  refine .bind (selectEvaluation_triple p.candidateId) (fun o => ?_)
  cases o with
  | none => exact insertEvaluation_triple p
  | some run =>
    refine .ret (held_stable (frame_looked _ _)) (fun s _ hs => ?_)
    exact ⟨_, _, _, hs, frame_looked _ _, List.mem_cons_self, fun t ht _ => ⟨ht, rfl⟩⟩

/-- The rest of a recording, once the evaluation run is locked. -/
theorem recordUnder_triple (p : Recording) (run : EvaluationRun) {ls : List Key} {ws : List Write}
    {R : Tables → Prop} (hR : Frame schema ls R) (hrun : .evaluation run.id ∈ ls)
    (hprepared : ∀ t, Single t → R t →
      Single (schema.applyAll ws t) ∧ (schema.applyAll ws t).trialPairs = t.trialPairs) :
    (locking ι).Triple i (Held i ls ws R) (do
        match ← selectPair i run.id p.pairNumber with
        | some pair => return pair.id
        | none => do
          let pair ← insertPair i (p.trialPair run.id)
          return pair.id)
      (fun _ => Ready schema Single (fun _ _ => True) i) (fun _ _ => True) := by
  have hselected (o : Option TrialPair) : Frame schema ls
      (fun t => R t ∧ t.numbered run.id p.pairNumber = o) :=
    hR.and (frame_numbered hrun p.pairNumber o)
  refine .bind (execute_triple (L := fun _ => ls) (W := fun _ => ws) hR hselected ?_) (fun o => ?_)
  · intro t o new ht hRt _ hf
    cases hf
    refine ⟨List.append_nil ls, List.append_nil ws, nofun, hRt, ?_⟩
    rw [Tables.numbered, Tables.numbered, Tables.pairsOf, Tables.pairsOf, (hprepared t ht hRt).2]
  · cases o with
    | some pair =>
      refine .ret (held_stable (hselected _)) (fun s _ hs => ?_)
      exact ⟨_, _, _, hs, hselected _, fun t ht hRt => ⟨(hprepared t ht hRt.1).1, trivial⟩⟩
    | none =>
      have hkeys : Frame schema (ls ++ [.evaluation run.id, .pair p.pairId])
          (fun t => (R t ∧ t.numbered run.id p.pairNumber = none) ∧ t.pair p.pairId = none) :=
        ((hselected none).append _).and (frame_pair (List.mem_append_right _ (by simp)) none)
      refine .bind (execute_triple (W := fun _ => ws ++ [.insertPair (p.trialPair run.id)])
        (hselected none) (fun _ => hkeys) ?_) (fun pair => .ret (held_stable hkeys) ?_)
      · intro t pair new ht hRt _ hf
        split at hf
        · cases hf
        · next hnew =>
          split at hf
          · cases hf
          · cases hf
            refine ⟨rfl, rfl, by simp [schema, Write.keys, Recording.trialPair], hRt, ?_⟩
            have hpairs := (hprepared t ht hRt.1).2
            rw [Tables.pair, hpairs] at hnew
            exact Option.not_isSome_iff_eq_none.mp hnew
      · rintro s - hs
        refine ⟨_, _, _, hs, hkeys, fun t ht hRt => ⟨?_, trivial⟩⟩
        obtain ⟨hsingle, hpairs⟩ := hprepared t ht hRt.1.1
        rw [Schema.applyAll, List.foldl_append]
        refine hsingle.insertPair ?_ ?_
        · rw [Tables.pair, hpairs]
          exact hRt.2
        · rw [Tables.numbered, Tables.pairsOf, hpairs]
          exact hRt.1.2

theorem recordPair_triple (p : Recording) :
    (locking ι).Triple i (fun s => s.sessions i = {}) (recordPair i p)
      (fun _ s => s.sessions i = {}) (fun _ s => s.sessions i = {}) := by
  unfold recordPair
  split
  · exact .fail (fun s t hst _ hs => (hst.1 : t.sessions i = s.sessions i).trans hs) (fun _ _ h => h)
  · refine transaction_triple (.bind (evaluationFor_triple p) (fun run => ?_))
    rintro s hs ⟨ls, ws, R, hheld, hR, hrun, hprepared⟩
    exact recordUnder_triple p run hR hrun hprepared s hs hheld

theorem markComplete_triple (c : CandidateId) :
    (locking ι).Triple i (fun s => s.sessions i = {}) (markComplete i c)
      (fun _ s => s.sessions i = {}) (fun _ s => s.sessions i = {}) := by
  have hlocked (ids : List RowId) : Frame schema (ids.map .evaluation) (fun _ => True) :=
    Frame.true _
  refine transaction_triple (Discipline.Triple.pre (K := Held i [] [] (fun _ => True))
    (.bind (execute_triple (L := fun ids => ids.map .evaluation) (W := fun ids => ids.map .complete)
      (Frame.true []) hlocked ?_) (fun ids => .ret (held_stable (hlocked ids)) ?_))
    (fun s _ hs => ⟨hs, trivial⟩))
  · intro t ids new _ _ _ hf
    cases hf
    simp [schema, Schema.applyAll, Query.needs, Write.keys]
    exact fun run hrun => ⟨run, hrun, rfl⟩
  · exact fun s _ hs => ⟨_, _, _, hs, hlocked ids, fun t ht _ => ⟨ht.completeAll ids, trivial⟩⟩

theorem call_triple (i : ι) (k : Call) :
    (locking ι).Triple i (fun s => s.sessions i = {}) (call i k)
      (fun _ s => s.sessions i = {}) (fun _ s => s.sessions i = {}) := by
  cases k with
  | recordPair p =>
    exact .bind (recordPair_triple p)
      (fun _ => .ret (fun s t hst _ hs => (hst.1 : t.sessions i = s.sessions i).trans hs)
        (fun _ _ h => h))
  | markComplete c => exact markComplete_triple c

/-- Where no two sessions look in vain for one candidate's evaluation run at a time, the candidate gets
one, and more pairs can be recorded. -/
theorem recordable_of_apart {t : Tables} (ht : Single t)
    {c : Config (Statement Query) (Store ι) Error ι}
    (hr : (schema.system call).Reach (apart ι).Allows (.quiet { tables := t }) c) :
    Recordable ι c.shared.tables := by
  have hreach : (schema.system call).Reach (schema.conduct call (fun _ _ _ => True)
      (fun _ _ => False)).Allows (.quiet { tables := t }) c := by
    refine hr.mono (fun d e hd => ?_)
    cases e with
    | start i k => trivial
    | step i => exact fun l hl => ⟨grants_of_apart (hd l hl).1 (hd l hl).2, fun _ _ => trivial⟩
    | crash i => exact fun _ _ => trivial
    | env ws => exact hd.elim
  have hsound : Sound schema Single (fun _ _ => True) c.shared :=
    reach_sound ht call_triple (fun _ _ _ h => h.elim) hreach
  exact hsound.tables.recordable

end

section

/-- A candidate that nothing has been measured of. -/
def candidateOnly : Tables where
  candidates := [1]

/-- A recording of the candidate, with the ids that it draws. -/
def recording (pairNumber : Int) (id : RowId) : Recording where
  candidateId := 1
  pairNumber := pairNumber
  environmentFingerprint := "environment"
  baseline := ∅
  candidate := ∅
  armOrder := "AB"
  evaluationId := id
  pairId := id

theorem single_candidateOnly : Single candidateOnly := by
  refine ⟨?_, ?_, ?_, ?_⟩ <;> exact .nil

/-- Two pairs, one after the other. -/
def successive : List (Event Unit Call (List Write)) :=
  Event.calls () (.recordPair (recording 1 1)) 5 ++ Event.calls () (.recordPair (recording 2 2)) 4

/-- Alone, a session waits for nobody. -/
theorem allows_alone {e : Event Unit Call (List Write)} (he : e ∈ successive)
    (c : Config (Statement Query) (Store Unit) Error Unit) : (apart Unit).Allows c e := by
  have hcalls : (∃ k, e = .start () k) ∨ e = .step () := by
    rcases List.mem_append.mp he with he | he
    · exact (Event.of_mem_calls he).imp_left (fun h => ⟨_, h⟩)
    · exact (Event.of_mem_calls he).imp_left (fun h => ⟨_, h⟩)
  obtain ⟨k, rfl⟩ | rfl := hcalls
  · trivial
  · refine fun l _ => ⟨?_, ?_⟩
    · cases l with
      | exec b => exact fun _ _ _ j hj => absurd rfl hj
      | _ => trivial
    · cases l with
      | exec b => cases b <;> first | trivial | exact fun _ j hj => absurd rfl hj
      | _ => trivial

theorem recordable_of_apart_successive : Single candidateOnly ∧
    ∃ c : Config (Statement Query) (Store Unit) Error Unit,
      (schema.system call).Reach (apart Unit).Allows (.quiet { tables := candidateOnly }) c ∧
      c.shared.tables.trialPairs.map (·.pairNumber) = [1, 2] ∧ Recordable Unit c.shared.tables := by
  have hrun : ((schema.system (call (ι := Unit))).exec (fun _ _ => true) successive
      (.quiet { tables := candidateOnly })).map
        (fun c => c.shared.tables.trialPairs.map (·.pairNumber)) = some [1, 2] := by
    decide +kernel
  obtain ⟨c, hr, hc⟩ := System.Reach.of_exec_map (P := (apart Unit).Allows)
    (fun _ he c _ => allows_alone he c) hrun
  exact ⟨single_candidateOnly, c, hr, hc, recordable_of_apart single_candidateOnly hr⟩

/-- Both sessions look for the evaluation run before either of them has committed one. -/
def simultaneous : List (Event Bool Call (List Write)) :=
  [.start false (.recordPair (recording 1 1)), .start true (.recordPair (recording 1 2)),
    .step false, .step true] ++ List.replicate 4 (.step false) ++ List.replicate 4 (.step true)

instance : DecidablePred Key.IsRow
  | .evaluation _ => .isTrue trivial
  | .pair _ => .isTrue trivial
  | .gap _ => .isFalse id

/-- The next statement of the session does not have to wait. -/
def unhindered (c : Config (Statement Query) (Store Bool) Error Bool) :
    Event Bool Call (List Write) → Bool
  | .step i => match c.label i with
    | some (.exec b) => decide (∀ k ∈ b.needs (schema.view i c.shared), k.IsRow →
        ∀ j, j ≠ i → k ∉ (c.shared.sessions j).locks)
    | _ => true
  | .start _ _ => true
  | _ => false

theorem allows_of_unhindered {c : Config (Statement Query) (Store Bool) Error Bool}
    {e : Event Bool Call (List Write)} (h : unhindered c e = true) :
    (overlapping Bool).Allows c e := by
  cases e with
  | start i k => trivial
  | crash i => exact fun _ _ => trivial
  | env ws => cases h
  | step i =>
    intro l hl
    simp only [unhindered, hl] at h
    cases l with
    | exec b => exact fun k hk hrow j hj => of_decide_eq_true h k hk hrow j hj
    | _ => trivial

/-- Two sessions that look for the evaluation run at the same time insert one each. -/
theorem not_recordable : ¬ ∀ t, Single t →
    ∀ c : Config (Statement Query) (Store Bool) Error Bool,
      (schema.system call).Reach (overlapping Bool).Allows (.quiet { tables := t }) c →
      Recordable Bool c.shared.tables := by
  intro h
  have hrun : ((schema.system (call (ι := Bool))).exec unhindered simultaneous
      (.quiet { tables := candidateOnly })).map
        (fun c => (c.shared.tables.runsOf 1).length) = some 2 := by
    decide +kernel
  obtain ⟨c, hr, hc⟩ := System.Reach.of_exec_map (P := (overlapping Bool).Allows)
    (fun _ _ _ h => allows_of_unhindered h) hrun
  have honce := (h candidateOnly single_candidateOnly c hr).once 1
  rw [hc] at honce
  exact absurd honce (by decide)

end

end NoSQLOptimizer.Evaluation.Durable
