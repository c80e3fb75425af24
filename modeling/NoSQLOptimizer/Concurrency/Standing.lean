import NoSQLOptimizer.Concurrency.Trail
import NoSQLOptimizer.Concurrency.Transactions

universe u

namespace NoSQLOptimizer.Concurrency

section

variable {L σ ε ι κ η : Type u} [DecidableEq ι] {S : System L σ ε ι κ η} {C : S.Conduct}
  {D : Discipline C} {c c' c₀ d : Config L σ ε ι} {i : ι} {k : κ}
  {past : List (L × Config L σ ε ι)}

/-- What others do is what the session relies on. -/
theorem Discipline.Holds.rely_other (h : D.Holds c) (hG : D.Governs) {e : Event ι κ η}
    (hP : C.Allows c e) (he : e.session ≠ some i) (hn : S.next c e = some c') :
    D.rely i c.shared c'.shared := by
  have hne : ∀ {j}, (some j : Option ι) ≠ some i → i ≠ j := fun h hij => h (by rw [hij])
  cases e with
  | start j k =>
    simp only [System.next] at hn
    split at hn <;> cases hn
    exact D.refl i _
  | step j =>
    simp only [System.next] at hn
    split at hn <;> cases hn
    next l u k hp =>
      have hl : c.label j = some l := by simp [Config.label, hp, Process.label]
      exact ((h.safe j _ hp c.shared (D.refl j _) h.inv).2 (hP l hl)).1.others i (hne he)
  | crash j =>
    simp only [System.next] at hn
    split at hn <;> cases hn
    next l u k hp =>
      have hl : c.label j = some l := by simp [Config.label, hp, Process.label]
      exact ((h.safe j _ hp c.shared (D.refl j _) h.inv).1 (hP l hl)).1.others i (hne he)
  | env e =>
    cases hn
    exact (hG.env _ _ hP h.inv).2 i

namespace System

/-- Before its first action the call's session is as it was outside of it. -/
theorem Progress.idle (h : S.Progress C.Allows c₀ i k [] c) (hc₀ : D.Holds c₀) (hG : D.Governs) :
    D.idle i c.shared := by
  generalize hpast : ([] : List (L × Config L σ ε ι)) = past at h
  induction h with
  | start hr _ hn =>
    simp only [System.next] at hn
    split at hn <;> cases hn
    next hidle => exact (hc₀.reach hG hr).idle i (Option.isNone_iff_eq_none.mp hidle)
  | own => simp at hpast
  | other hpast' hP he hn ih =>
    exact D.idle_stable (ih hpast) ((hc₀.reach hG hpast'.reach).rely_other hG hP he hn)

/-- Since its last action others have done what the call's session relies on. -/
theorem Progress.since (past : List (L × Config L σ ε ι)) {l : L}
    (h : S.Progress C.Allows c₀ i k (past ++ [(l, d)]) c)
    (hc₀ : D.Holds c₀) (hG : D.Governs) :
    ∃ u k', d.pool i = some (.act l u k') ∧ D.rely i (u d.shared) c.shared := by
  generalize hall : past ++ [(l, d)] = all at h
  induction h with
  | start => simp at hall
  | own _ hl _ hn =>
    obtain ⟨-, hlast⟩ := List.append_inj' hall rfl
    cases hlast
    simp only [System.next] at hn
    split at hn <;> cases hn
    next l' u k' hp =>
      obtain rfl : l' = l := by simpa [Config.label, hp, Process.label] using hl
      exact ⟨u, k', hp, D.refl i _⟩
  | other hpast hP he hn ih =>
    obtain ⟨u, k', hp, hrely⟩ := ih hall
    exact ⟨u, k', hp,
      D.trans hrely ((hc₀.reach hG hpast.reach).rely_other hG hP he hn)⟩

/-- The process that is at the call's first action is the call. -/
theorem Progress.first {q : Process L σ ε PUnit} {s₀ : σ} {P : Config L σ ε ι → Event ι κ η → Prop}
    (h : S.Progress P (.quiet s₀) i k [] c) (hq : c.pool i = some q) : q = S.call i k := by
  have htrail := h.trail hq
  generalize hpast : seen ([] : List (L × Config L σ ε ι)) = past at htrail
  cases htrail with
  | init => rfl
  | snoc => simp [seen] at hpast

end System

theorem Process.Traced.rescue {α : Type u} {T : List (L × σ) → L → σ → Prop}
    {Q : List (L × σ) → α → Prop} {past : List (L × σ)} {p : Process L σ ε α}
    {h : ε → Process L σ ε α} (hp : p.Traced T Q past)
    (hh : ∀ e past', (h e).Traced T Q past') : (p.rescue h).Traced T Q past := by
  induction p generalizing past with
  | ret a => exact hp
  | fail e => exact hh e past
  | act l u k ih => exact fun s => ⟨(hp s).1, ih s (hp s).2⟩

end

namespace Transactions

variable {τ κ ω β ι ε α : Type} {M : Schema τ κ ω β} {i : ι}

theorem view_eq_tables {s : Database τ κ ω ι} (h : (s.sessions i).writes = []) :
    M.view i s = s.tables := by
  rw [Schema.view, h]
  rfl

variable [DecidableEq ι]

theorem hold_session (b : β) (ws : List ω) (s : Database τ κ ω ι) :
    (M.hold i b ws s).sessions i =
      ⟨(s.sessions i).locks ++ M.needs b (M.view i s), (s.sessions i).writes ++ ws⟩ :=
  Function.update_self i _ s.sessions

theorem execute_traced {T : List (Statement β × Database τ κ ω ι) → Statement β →
      Database τ κ ω ι → Prop} {Q : List (Statement β × Database τ κ ω ι) → α → Prop}
    {past : List (Statement β × Database τ κ ω ι)} {b : β} {f : τ → Except ε (α × List ω)}
    (hT : ∀ s, T past (.exec b) s)
    (hQ : ∀ s a ws, f (M.view i s) = .ok (a, ws) → Q (past ++ [(.exec b, s)]) a) :
    (M.execute i b f).Traced T Q past := by
  intro s
  refine ⟨hT s, ?_⟩
  dsimp only
  cases hf : f (M.view i s) with
  | ok r => exact hQ s r.1 r.2 hf
  | error e => trivial

/-- Nothing is asked of a commit or a rollback. -/
theorem transaction_traced {T : List (Statement β × Database τ κ ω ι) → Statement β →
      Database τ κ ω ι → Prop} {Q : List (Statement β × Database τ κ ω ι) → α → Prop}
    {past : List (Statement β × Database τ κ ω ι)}
    {p : Process (Statement β) (Database τ κ ω ι) ε α}
    (hcommit : ∀ past s, T past .commit s) (hrollback : ∀ past s, T past .rollback s)
    (hp : p.Traced T Q past) :
    (M.transaction i p).Traced T (fun _ _ => True) past := by
  refine .bind (Q := Q) (.rescue hp (fun e past' => ?_)) (fun a past' _ => ?_)
  · exact fun s => ⟨hrollback past' s, trivial⟩
  · exact fun s => ⟨hcommit past' s, trivial⟩

/-- A transaction executes the statements of its block. -/
theorem transaction_always {B : β → Prop} {p : Process (Statement β) (Database τ κ ω ι) ε α}
    (hp : p.Always (fun l _ _ => ∀ b, l = .exec b → B b) (fun _ => True)) :
    (M.transaction i p).Always (fun l _ _ => ∀ b, l = .exec b → B b) (fun _ => True) := by
  refine .then (.rescue hp (fun _ => trivial) (fun e => ?_)) (fun a => ?_)
  · exact fun _ => ⟨fun b h => (by cases h), trivial⟩
  · exact fun _ => ⟨fun b h => (by cases h), trivial⟩

theorem execute_always {B : β → Prop} {b : β} {f : τ → Except ε (α × List ω)} (hb : B b) :
    (M.execute i b f).Always (fun l _ _ => ∀ b, l = .exec b → B b) (fun _ => True) := by
  refine .atomic _ _ (fun _ _ _ _ => ⟨fun b' h => ?_, trivial⟩)
    (fun _ _ _ => ⟨fun b' h => ?_, trivial⟩)
  · cases h
    exact hb
  · cases h
    exact hb

end Transactions

end NoSQLOptimizer.Concurrency
