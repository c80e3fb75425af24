import NoSQLOptimizer.Concurrency.System
import NoSQLOptimizer.ControlPlane.Prepared
import NoSQLOptimizer.Recovery.Durable

namespace NoSQLOptimizer.Recovery

open Actions ControlPlane Concurrency

/-- The target, and how often `apply_mutation` has been called under each key. -/
structure Target (τ : Type) where
  state : τ
  mutations : IdempotencyKey → Nat

/-- What the callers hand over under each key.  A mutation is atomic, and any later look at the target
sees its effect. -/
structure Callbacks (τ : Type) where
  targetHasExactEffect : IdempotencyKey → ActionFingerprint → τ → Bool
  applyMutation : IdempotencyKey → τ → τ
  visible : ∀ key t, targetHasExactEffect key key.actionFingerprint (applyMutation key t) = true
  lasting : ∀ key other t, targetHasExactEffect key key.actionFingerprint t = true →
    targetHasExactEffect key key.actionFingerprint (applyMutation other t) = true

inductive Call
  | recordIntent : IdempotencyKey → Nat → TargetId → Call
  | executeOrRecover : IdempotencyKey → Call

variable {τ ι : Type}

namespace Callbacks

variable (B : Callbacks τ) (key : IdempotencyKey)

/-- The effect of the key's mutation exists. -/
def Effected (s : World (Target τ)) : Prop :=
  B.targetHasExactEffect key key.actionFingerprint s.db.state = true

def probe (expected : ActionFingerprint) : Proc (Target τ) Bool :=
  .read (.listIndexes key.runId .effect key.actionFingerprint.document.toNamespace
    key.actionFingerprint.document.toIndexSpec) (B.targetHasExactEffect key expected ·.db.state)

def mutated (s : World (Target τ)) : World (Target τ) :=
  { s with db := ⟨B.applyMutation key s.db.state,
    Function.update s.db.mutations key (s.db.mutations key + 1)⟩ }

def mutation : Proc (Target τ) PUnit :=
  .modify (.createIndex key.runId key.actionFingerprint.document.toNamespace
    key.actionFingerprint.document.toIndexSpec) (B.mutated key)

def call : Call → Proc (Target τ) PUnit
  | .recordIntent key actionId targetId => recordIntent key actionId targetId key.actionFingerprint
  | .executeOrRecover key => executeOrRecover key (B.probe key) (B.mutation key)

/-- What is left of a call that has begun. -/
def probing (expected : ActionFingerprint) : Proc (Target τ) PUnit := do
  let effect ← B.probe key expected
  Process.when (!effect) (B.mutation key)
  confirmExecution key

/-- What is left of a call that has found no effect. -/
def mutating : Proc (Target τ) PUnit := do
  B.mutation key
  confirmExecution key

end Callbacks

/-- Any number of sessions record intents and execute them; each may end at any point, and whatever
else happens to the rows and to the target is one more event. -/
def callers (B : Callbacks τ) (ι : Type) :
    System Label (World (Target τ)) Error ι Call (World (Target τ) → World (Target τ)) where
  call _ := B.call
  crash _ s := s
  env f s := f s

variable {B : Callbacks τ}

/-- The recovery rows belong to the calls, and what happens to the target outside them leaves the
effects there. -/
structure Outside (B : Callbacks τ) (s t : World (Target τ)) : Prop where
  recovery : t.recovery = s.recovery
  mutations : t.db.mutations = s.db.mutations
  lasting : ∀ key, B.Effected key s → B.Effected key t

variable [DecidableEq ι]

/-- Any calls, any crashes. -/
def concurrent (B : Callbacks τ) (c : Config Label (World (Target τ)) Error ι) :
    Event ι Call (World (Target τ) → World (Target τ)) → Prop
  | .env f => Outside B c.shared (f c.shared)
  | _ => True

/-- A call that looks for an effect that does not exist is the only one that is about to bring it
about. -/
def apart (B : Callbacks τ) (c : Config Label (World (Target τ)) Error ι) :
    Event ι Call (World (Target τ) → World (Target τ)) → Prop
  | .env f => Outside B c.shared (f c.shared)
  | .step i => ∀ key, c.pool i = some (B.probing key key.actionFingerprint) →
      ¬ B.Effected key c.shared → ∀ j, c.pool j ≠ some (B.mutating key)
  | _ => True

/-- With its next step the call under this key returns. -/
def Returns (c : Config Label (World (Target τ)) Error ι) (i : ι) (key : IdempotencyKey) : Prop :=
  ∃ l u k, c.pool i = some (.act l u k) ∧
    (l = .beginExecution key ∨ l = .confirmExecution key) ∧ k c.shared = .ret ⟨⟩

/-- What the rows and the target say of each key. -/
structure Sound (B : Callbacks τ) (s : World (Target τ)) : Prop where
  expected : ∀ key row, s.recovery key = some row →
    row.expectedFingerprint = key.actionFingerprint
  confirmed : ∀ key row, s.recovery key = some row → row.state = .executionConfirmed →
    B.Effected key s
  once : ∀ key, s.db.mutations key = 0 ∨ s.db.mutations key = 1 ∧ B.Effected key s

/-- Where a call can be. -/
inductive At (B : Callbacks τ) (s : World (Target τ)) : Proc (Target τ) PUnit → Prop
  | called (k : Call) : At B s (B.call k)
  | probing (key : IdempotencyKey) : At B s (B.probing key key.actionFingerprint)
  | mutating (key : IdempotencyKey) : At B s (B.mutating key)
  | confirming {key : IdempotencyKey} : B.Effected key s → At B s (confirmExecution key)

theorem At.mono {s t : World (Target τ)} {p : Proc (Target τ) PUnit} (h : At B s p)
    (hst : ∀ key, B.Effected key s → B.Effected key t) : At B t p := by
  cases h with
  | called k => exact .called k
  | probing key => exact .probing key
  | mutating key => exact .mutating key
  | confirming heffect => exact .confirming (hst _ heffect)

theorem Sound.put {s : World (Target τ)} (h : Sound B s) {key : IdempotencyKey}
    {row : RecoveryRecord} (hexpected : row.expectedFingerprint = key.actionFingerprint)
    (hconfirmed : row.state = .executionConfirmed → B.Effected key s) : Sound B (put key row s) := by
  refine ⟨fun other found hfound => ?_, fun other found hfound => ?_, h.once⟩
  all_goals
    simp only [Recovery.put, Function.update_apply] at hfound
    split at hfound
    · next hsame =>
      cases hfound
      subst hsame
      first | exact hexpected | exact hconfirmed
    · first | exact h.expected other found hfound | exact h.confirmed other found hfound

theorem Sound.mutated {s : World (Target τ)} (h : Sound B s) {key : IdempotencyKey}
    (hnone : s.db.mutations key = 0) : Sound B (B.mutated key s) := by
  have hkept : ∀ other, B.Effected other s → B.Effected other (B.mutated key s) :=
    fun other ho => B.lasting other key _ ho
  refine ⟨h.expected, fun other row hrow hc => hkept other (h.confirmed other row hrow hc),
    fun other => ?_⟩
  by_cases hsame : other = key
  · subst hsame
    refine .inr ⟨?_, B.visible other _⟩
    simp [Callbacks.mutated, hnone]
  · refine (h.once other).imp (fun h0 => ?_) (fun h1 => ⟨?_, hkept other h1.2⟩)
    · simpa [Callbacks.mutated, hsame] using h0
    · simpa [Callbacks.mutated, hsame] using h1.1

theorem Sound.outside {s t : World (Target τ)} (h : Sound B s) (hout : Outside B s t) :
    Sound B t := by
  refine ⟨fun key row hrow => ?_, fun key row hrow hc => ?_, fun key => ?_⟩
  · exact h.expected key row (hout.recovery ▸ hrow)
  · exact hout.lasting key (h.confirmed key row (hout.recovery ▸ hrow) hc)
  · rw [hout.mutations]
    exact (h.once key).imp_right (fun hdone => ⟨hdone.1, hout.lasting key hdone.2⟩)

theorem mutating_inj {key other : IdempotencyKey} (h : B.mutating key = B.mutating other)
    (s : World (Target τ)) : key = other := by
  have hnext : (fun s : World (Target τ) => confirmExecution (τ := Target τ) key) =
      fun s => confirmExecution other := by
    simpa using (Process.act.inj h).2.2
  simpa using (Process.act.inj (congrFun hnext s)).1

/-- Only a call that is about to mutate the target shows it in its next label. -/
theorem ne_mutating {p : Proc (Target τ) PUnit} {l : Label} (hp : p.label = some l)
    (hl : l.mutates = none) (key : IdempotencyKey) : p ≠ B.mutating key := by
  rintro rfl
  cases hp
  cases hl

theorem probing_ne_mutating (key other : IdempotencyKey) (expected : ActionFingerprint) :
    B.probing key expected ≠ B.mutating other :=
  ne_mutating rfl rfl other

/-- What holds of every configuration that a run with calls that keep apart reaches. -/
structure Once (B : Callbacks τ) (c : Config Label (World (Target τ)) Error ι) : Prop where
  sound : Sound B c.shared
  places : ∀ i p, c.pool i = some p → At B c.shared p
  poised : ∀ i key, c.pool i = some (B.mutating key) → c.shared.db.mutations key = 0 ∧
    ∀ j, c.pool j = some (B.mutating key) → j = i

theorem Once.moved {c : Config Label (World (Target τ)) Error ι} (h : Once B c) {i : ι}
    {t : World (Target τ)} {q : Option (Proc (Target τ) PUnit)} (hs : Sound B t)
    (hkept : ∀ key, B.Effected key c.shared → B.Effected key t)
    (hq : ∀ p, q = some p → At B t p)
    (hpoised : ∀ key, q = some (B.mutating key) → t.db.mutations key = 0 ∧
      ∀ j, c.pool j ≠ some (B.mutating key))
    (hothers : ∀ j key, j ≠ i → c.pool j = some (B.mutating key) → t.db.mutations key = 0) :
    Once B ⟨t, Function.update c.pool i q⟩ := by
  refine ⟨hs, fun j p hp => ?_, fun j key hj => ?_⟩
  · by_cases hji : j = i
    · subst hji
      simp only [Function.update_self] at hp
      exact hq p hp
    · simp only [Function.update_of_ne hji] at hp
      exact (h.places j p hp).mono hkept
  · by_cases hji : j = i
    · subst hji
      simp only [Function.update_self] at hj
      obtain ⟨hzero, halone⟩ := hpoised key hj
      refine ⟨hzero, fun j' hj' => ?_⟩
      by_contra hne
      exact halone j' (by simpa [hne] using hj')
    · simp only [Function.update_of_ne hji] at hj
      refine ⟨hothers j key hji hj, fun j' hj' => ?_⟩
      by_cases hj'i : j' = i
      · subst hj'i
        simp only [Function.update_self] at hj'
        exact absurd hj ((hpoised key hj').2 j)
      · exact (h.poised j key hj).2 j' (by simpa [hj'i] using hj')

/-- A call that is over, and has brought about no effect with its last action. -/
theorem Once.over {c : Config Label (World (Target τ)) Error ι} (h : Once B c) {i : ι}
    {t : World (Target τ)} (hs : Sound B t) (hdb : t.db = c.shared.db) :
    Once B ⟨t, Function.update c.pool i none⟩ := by
  refine h.moved hs (fun key hk => ?_) (fun _ hq => by cases hq) (fun _ hq => by cases hq)
    (fun j key _ hj => ?_)
  · rw [Callbacks.Effected, hdb]
    exact hk
  · rw [hdb]
    exact (h.poised j key hj).1

/-- An action that brings about no effect, after which the call is not about to. -/
theorem Once.still {c : Config Label (World (Target τ)) Error ι} (h : Once B c) {i : ι}
    {t : World (Target τ)} {p : Proc (Target τ) PUnit} (hs : Sound B t) (hdb : t.db = c.shared.db)
    (hp : p.settle = some p → At B t p) (hno : ∀ key, p ≠ B.mutating key) :
    Once B ⟨t, Function.update c.pool i p.settle⟩ := by
  have hsettled : ∀ q, p.settle = some q → q = p := by
    intro q hq
    cases p <;> cases hq
    rfl
  refine h.moved hs (fun key hk => ?_) (fun q hq => ?_) (fun key hk => ?_) (fun j key _ hj => ?_)
  · rw [Callbacks.Effected, hdb]
    exact hk
  · cases hsettled q hq
    exact hp hq
  · exact absurd (hsettled _ hk).symm (hno key)
  · rw [hdb]
    exact (h.poised j key hj).1

theorem Once.acted {c : Config Label (World (Target τ)) Error ι} (h : Once B c) {i : ι} {l : Label}
    {u : World (Target τ) → World (Target τ)} {k : World (Target τ) → Proc (Target τ) PUnit}
    (hpool : c.pool i = some (.act l u k))
    (hapart : ∀ key, c.pool i = some (B.probing key key.actionFingerprint) →
      ¬ B.Effected key c.shared → ∀ j, c.pool j ≠ some (B.mutating key)) :
    Once B ⟨u c.shared, Function.update c.pool i (k c.shared).settle⟩ := by
  have hat := h.places i _ hpool
  generalize hp : Process.act l u k = p at hat
  cases hat with
  | called call =>
    cases call with
    | recordIntent key actionId targetId =>
      cases hp
      dsimp only
      cases hrow : c.shared.recovery key with
      | some row => exact h.over h.sound rfl
      | none => exact h.over (h.sound.put rfl nofun) rfl
    | executeOrRecover key =>
      cases hp
      dsimp only
      cases hbegin : beginRow key c.shared with
      | error e => exact h.over h.sound rfl
      | ok r =>
        obtain ⟨o, t⟩ := r
        obtain ⟨row, hrow, ⟨-, rfl, rfl⟩ | ⟨rfl, rfl⟩⟩ := beginRow_ok hbegin
        · exact h.over h.sound rfl
        · have hexpected := h.sound.expected key row hrow
          refine h.still (h.sound.put hexpected nofun) rfl (fun _ => ?_) (ne_mutating rfl rfl)
          dsimp only
          rw [hexpected]
          exact .probing key
  | probing key =>
    rw [hp] at hpool
    cases hp
    dsimp only
    by_cases heffect : B.Effected key c.shared
    · rw [heffect]
      exact h.still h.sound rfl (fun _ => .confirming heffect) (ne_mutating rfl rfl)
    · rw [show B.targetHasExactEffect key key.actionFingerprint c.shared.db.state = false from
        Bool.not_eq_true _ ▸ heffect]
      refine h.moved h.sound (fun _ hk => hk) (fun q hq => ?_) (fun other hother => ?_)
        (fun j other _ hj => (h.poised j other hj).1)
      · cases hq
        exact .mutating key
      · obtain rfl := mutating_inj (Option.some.inj hother) c.shared
        refine ⟨(h.sound.once key).resolve_right (fun hdone => heffect hdone.2), ?_⟩
        exact hapart key hpool heffect
  | mutating key =>
    rw [hp] at hpool
    cases hp
    have hkept (other : IdempotencyKey) (ho : B.Effected other c.shared) :
        B.Effected other (B.mutated key c.shared) := B.lasting other key _ ho
    refine h.moved (h.sound.mutated (h.poised i key hpool).1) hkept (fun q hq => ?_)
      (fun other hother => ?_) (fun j other hj hother => ?_)
    · cases hq
      exact .confirming (B.visible key _)
    · cases hother
    · have hne : other ≠ key := by
        rintro rfl
        exact hj ((h.poised i other hpool).2 j hother)
      simpa [Callbacks.mutated, hne] using (h.poised j other hother).1
  | @confirming key heffect =>
    cases hp
    dsimp only
    cases hrow : c.shared.recovery key with
    | none => exact h.over h.sound rfl
    | some row =>
      have hput : Sound B (put key { row with state := .executionConfirmed } c.shared) :=
        h.sound.put (h.sound.expected key row hrow) (fun _ => heffect)
      exact h.over hput rfl

theorem Once.next {c c' : Config Label (World (Target τ)) Error ι} {e : Event ι Call _}
    (h : Once B c) (hapart : apart B c e) (hn : (callers B ι).next c e = some c') : Once B c' := by
  obtain ⟨i, call, rfl, -, rfl⟩ | ⟨i, l, u, k, rfl, hpool, rfl⟩ | ⟨i, rfl, rfl⟩ | ⟨f, rfl, rfl⟩ :=
    System.next_cases hn
  · have hcall : (B.call call).settle = some (B.call call) := by cases call <;> rfl
    refine h.still h.sound rfl (fun _ => .called call) ?_
    cases call <;> exact ne_mutating rfl rfl
  · exact h.acted hpool hapart
  · exact h.over h.sound rfl
  · have hout : Outside B c.shared (f c.shared) := hapart
    refine ⟨h.sound.outside hout, fun i p hp => (h.places i p hp).mono hout.lasting,
      fun i key hi => ?_⟩
    rw [show ((callers B ι).env f c.shared).db.mutations = _ from hout.mutations]
    exact h.poised i key hi

/-- A call returns where its row is confirmed, or after it has seen or brought about the effect. -/
theorem Once.returned {c c' : Config Label (World (Target τ)) Error ι} (h : Once B c) {i : ι}
    {key : IdempotencyKey} (hreturns : Returns c i key)
    (hn : (callers B ι).next c (.step i) = some c') : B.Effected key c'.shared := by
  obtain ⟨l, u, k, hpool, hl, hk⟩ := hreturns
  have hc' : c' = ⟨u c.shared, Function.update c.pool i (k c.shared).settle⟩ := by
    rw [System.next_step hpool] at hn
    exact (Option.some.inj hn).symm
  subst hc'
  have hat := h.places i _ hpool
  generalize hp : Process.act l u k = p at hat
  cases hat with
  | called call =>
    cases call with
    | recordIntent other actionId targetId =>
      cases hp
      rcases hl with hl | hl <;> cases hl
    | executeOrRecover other =>
      cases hp
      rcases hl with hl | hl <;> cases hl
      dsimp only at hk ⊢
      cases hbegin : beginRow key c.shared with
      | error e => simp [hbegin] at hk
      | ok r =>
        obtain ⟨o, t⟩ := r
        obtain ⟨row, hrow, ⟨hconfirmed, rfl, rfl⟩ | ⟨rfl, -⟩⟩ := beginRow_ok hbegin
        · exact h.sound.confirmed key row hrow hconfirmed
        · simp only [hbegin] at hk
          cases hk
  | probing other =>
    cases hp
    rcases hl with hl | hl <;> cases hl
  | mutating other =>
    cases hp
    rcases hl with hl | hl <;> cases hl
  | @confirming other heffect =>
    cases hp
    rcases hl with hl | hl <;> cases hl
    dsimp only
    cases c.shared.recovery key <;> exact heffect

/-- Where no call looks in vain for an effect that another is about to bring about, the mutation is
made once at most, and the effect exists when a call returns. -/
theorem executed_once_of_apart (B : Callbacks τ) {s : World (Target τ)}
    (hrows : s.recovery = fun _ => none) (hmutations : s.db.mutations = fun _ => 0)
    {c : Config Label (World (Target τ)) Error ι}
    (hr : (callers B ι).Reach (apart B) (.quiet s) c) :
    (∀ key, c.shared.db.mutations key ≤ 1) ∧
      ∀ i key c', Returns c i key → (callers B ι).next c (.step i) = some c' →
        B.Effected key c'.shared := by
  have hstart : Once B (.quiet s : Config Label (World (Target τ)) Error ι) := by
    refine ⟨⟨?_, ?_, fun key => .inl (congrFun hmutations key)⟩, (fun _ _ hp => by cases hp),
      (fun _ _ hp => by cases hp)⟩
    all_goals
      intro key row hrow
      cases (congrFun hrows key).symm.trans hrow
  have honce : Once B c := hr.invariant hstart (fun _ _ _ h hP hn => h.next hP hn)
  refine ⟨fun key => ?_, fun i key c' hreturns hn => honce.returned hreturns hn⟩
  rcases honce.sound.once key with hzero | ⟨hone, -⟩
  · exact hzero ▸ Nat.zero_le 1
  · exact Nat.le_of_eq hone

/-- Where two calls do not keep apart, both of them can go on to the mutation. -/
theorem mutated_twice_of_together {c : Config Label (World (Target τ)) Error ι} {i j : ι}
    {key : IdempotencyKey} (hi : c.pool i = some (B.probing key key.actionFingerprint))
    (hnone : ¬ B.Effected key c.shared) (hj : c.pool j = some (B.mutating key)) :
    ∃ c', (callers B ι).Reach (concurrent B) c c' ∧
      c'.shared.db.mutations key = c.shared.db.mutations key + 2 := by
  have hne : j ≠ i := by
    rintro rfl
    exact probing_ne_mutating key key _ (Option.some.inj (hi.symm.trans hj))
  have hfalse : B.targetHasExactEffect key key.actionFingerprint c.shared.db.state = false :=
    Bool.not_eq_true _ ▸ hnone
  -- the second call looks, and then both of them go on
  let looked : Config Label (World (Target τ)) Error ι :=
    ⟨c.shared, Function.update c.pool i (some (B.mutating key))⟩
  have hlooks : (callers B ι).next c (.step i) = some looked := by
    refine (System.next_step hi).trans ?_
    dsimp only
    rw [hfalse]
    rfl
  let first : Config Label (World (Target τ)) Error ι :=
    ⟨B.mutated key c.shared, Function.update looked.pool i (some (confirmExecution key))⟩
  have hfirst : (callers B ι).next looked (.step i) = some first := by
    have hself : looked.pool i = some (B.mutating key) := Function.update_self i _ c.pool
    exact (System.next_step hself).trans rfl
  have hj' : first.pool j = some (B.mutating key) := by
    simp [first, looked, hne, hj]
  have hany (d : Config Label (World (Target τ)) Error ι) (k : ι) :
      concurrent B d (.step k) := trivial
  refine ⟨_, ((System.Reach.init.step (hany c i) hlooks).step (hany looked i) hfirst).step
    (hany first j) (System.next_step hj'), ?_⟩
  simp [first, Callbacks.mutated]

section

/-- One index, that is there or not. -/
def indexCallbacks : Callbacks Bool where
  targetHasExactEffect key expected present := expected = key.actionFingerprint && present
  applyMutation _ _ := true
  visible key _ := by simp
  lasting _ _ _ _ := by simp

def preparedKey : IdempotencyKey := ⟨0, "candidate", ⟨preparedAction⟩⟩

/-- Nothing is recorded, and the index is not there. -/
def bare : World (Target Bool) where
  db := ⟨false, fun _ => 0⟩

/-- One session records the intent, executes it, and asks again. -/
def again : List (Event Unit Call (World (Target Bool) → World (Target Bool))) :=
  Event.calls () (.recordIntent preparedKey 0 0) 1 ++
    Event.calls () (.executeOrRecover preparedKey) 4 ++
    [.start () (.executeOrRecover preparedKey)]

theorem executed_once_of_apart_again :
    ∃ c : Config Label (World (Target Bool)) Error Unit,
      (callers indexCallbacks Unit).Reach (apart indexCallbacks) (.quiet bare) c ∧
      c.shared.db.mutations preparedKey = 1 ∧ (∀ key, c.shared.db.mutations key ≤ 1) := by
  have hrun : ((callers indexCallbacks Unit).exec (fun _ _ => true) again (.quiet bare)).map
      (·.shared.db.mutations preparedKey) = some 1 := by
    decide +kernel
  have hallowed : ∀ e ∈ again, ∀ c, apart indexCallbacks c e := by
    intro e he c
    obtain ⟨k, rfl⟩ | rfl : (∃ k, e = .start () k) ∨ e = .step () := by
      simp only [again, List.mem_append, List.mem_singleton] at he
      rcases he with (he | he) | rfl
      · exact (Event.of_mem_calls he).imp_left (fun h => ⟨_, h⟩)
      · exact (Event.of_mem_calls he).imp_left (fun h => ⟨_, h⟩)
      · exact .inl ⟨_, rfl⟩
    · trivial
    · exact fun key hi _ j hj => probing_ne_mutating key key _ (Option.some.inj (hi.symm.trans hj))
  obtain ⟨c, hr, hc⟩ := System.Reach.of_exec_map (P := apart indexCallbacks)
    (fun e he c _ => hallowed e he c) hrun
  exact ⟨c, hr, hc, (executed_once_of_apart indexCallbacks rfl rfl hr).1⟩

/-- Two sessions begin one after the other, and both look before either of them creates the index. -/
def together : List (Event Bool Call (World (Target Bool) → World (Target Bool))) :=
  Event.calls false (.recordIntent preparedKey 0 0) 1 ++
    [.start false (.executeOrRecover preparedKey), .start true (.executeOrRecover preparedKey),
      .step false, .step true, .step false, .step true, .step false, .step true]

theorem not_executed_once :
    ¬ ∀ c : Config Label (World (Target Bool)) Error Bool,
      (callers indexCallbacks Bool).Reach (concurrent indexCallbacks) (.quiet bare) c →
      ∀ key, c.shared.db.mutations key ≤ 1 := by
  intro h
  have hrun : ((callers indexCallbacks Bool).exec (fun _ _ => true) together (.quiet bare)).map
      (·.shared.db.mutations preparedKey) = some 2 := by
    decide +kernel
  have hallowed : ∀ e ∈ together, ∀ c, concurrent indexCallbacks c e := by
    intro e he c
    cases e with
    | env f => simp [together, Event.calls] at he
    | _ => trivial
  obtain ⟨c, hr, hc⟩ := System.Reach.of_exec_map (P := concurrent indexCallbacks)
    (fun e he c _ => hallowed e he c) hrun
  have honce := h c hr preparedKey
  rw [hc] at honce
  exact absurd honce (by decide)

end

end NoSQLOptimizer.Recovery
