import NoSQLOptimizer.Files.Spec

namespace NoSQLOptimizer.Files.Filing

variable {D N ε α β γ δ : Type}

/-- The end of a program, beside a result that was had without any file. -/
def Agree (Q : α → β → Machine D N → Prop) (S : Machine D N → Prop) :
    Except (Raised ε) α → Except ε β → Machine D N → Prop
  | .ok a, .ok b, m => Q a b m
  | .error e, .error e', m => e = .error e' ∧ S m
  | _, _, _ => False

/-- Started where `P` holds, the program comes to what the computation comes to. -/
def Follows (P : Machine D N → Prop) (x : Filing D N ε α) (g : Except ε β)
    (Q : α → β → Machine D N → Prop) (S : Machine D N → Prop) : Prop :=
  ∀ m, P m → Agree Q S (x m).1 g (x m).2

section

variable {P P' R : Machine D N → Prop} {S : Machine D N → Prop} {x : Filing D N ε α}
  {g : Except ε β}

theorem Follows.mono {Q Q' : α → β → Machine D N → Prop} {S' : Machine D N → Prop}
    (h : Follows P x g Q S) (hP : ∀ m, P' m → P m) (hQ : ∀ a b m, Q a b m → Q' a b m)
    (hS : ∀ m, S m → S' m) : Follows P' x g Q' S' := by
  intro m hm
  have hagree := h m (hP m hm)
  revert hagree
  cases (x m).1 with
  | ok a =>
    cases g with
    | ok b => exact hQ a b _
    | error e' => exact id
  | error e =>
    cases g with
    | ok b => exact id
    | error e' => exact And.imp_right (hS _)

theorem Follows.pure {a : α} {b : β} {Q : α → β → Machine D N → Prop} (h : ∀ m, P m → Q a b m) :
    Follows P (pure a : Filing D N ε α) (.ok b) Q S := h

theorem Follows.lift (g : Except ε β) (herror : ∀ m, P m → S m) :
    Follows P (lift g : Filing D N ε β) g (fun a b m => a = b ∧ P m) S := by
  cases g with
  | ok b => exact fun m hm => ⟨rfl, hm⟩
  | error e => exact fun m hm => ⟨rfl, herror m hm⟩

theorem Follows.bind {R : α → β → Machine D N → Prop} {Q : γ → δ → Machine D N → Prop}
    {f : α → Filing D N ε γ} {h : β → Except ε δ} (hx : Follows P x g R S)
    (hf : ∀ a b, Follows (R a b) (f a) (h b) Q S) : Follows P (x >>= f) (g >>= h) Q S := by
  intro m hm
  have hagree := hx m hm
  rw [bind_apply]
  revert hagree
  cases x m with
  | mk r m' =>
    cases r with
    | ok a =>
      cases g with
      | ok b => exact hf a b m'
      | error e' => exact False.elim
    | error e =>
      cases g with
      | ok b => exact False.elim
      | error e' => exact id

/-- Where the program has what the computation has. -/
theorem Follows.bind_eq {x : Filing D N ε β} {R : Machine D N → Prop}
    {Q : γ → δ → Machine D N → Prop} {f : β → Filing D N ε γ} {h : β → Except ε δ}
    (hx : Follows P x g (fun a b m => a = b ∧ R m) S)
    (hf : ∀ b, Follows R (f b) (h b) Q S) : Follows P (x >>= f) (g >>= h) Q S := by
  apply Follows.bind hx
  rintro a b m ⟨rfl, hm⟩
  exact hf a m hm

/-- A step that always succeeds is none of the computation. -/
theorem Follows.after {f : α → Filing D N ε γ} {Q : γ → β → Machine D N → Prop}
    (hx : Spec P x (fun _ => R) (fun _ _ => False)) (hf : ∀ a, Follows R (f a) g Q S) :
    Follows P (x >>= f) g Q S := by
  intro m hm
  have hends := hx m hm
  rw [bind_apply]
  revert hends
  cases x m with
  | mk r m' =>
    cases r with
    | ok a => exact hf a m'
    | error e => exact False.elim

theorem Follows.mapM (f : α → Filing D N ε β) (h : α → Except ε γ) (xs : List α)
    (I : List α → List β → List γ → Machine D N → Prop)
    (hstep : ∀ done x rest as bs, xs = done ++ x :: rest →
      Follows (I done as bs) (f x) (h x) (fun a b => I (done ++ [x]) (as ++ [a]) (bs ++ [b])) S) :
    Follows (I [] [] []) (xs.mapM f) (xs.mapM h) (I xs) S := by
  suffices hloop : ∀ rest done as bs, xs = done ++ rest →
      Follows (I done as bs) (rest.mapM f) (rest.mapM h)
        (fun as' bs' => I xs (as ++ as') (bs ++ bs')) S from
    hloop xs [] [] [] rfl
  intro rest
  induction rest with
  | nil =>
    intro done as bs hxs
    rw [List.append_nil] at hxs
    subst hxs
    rw [List.mapM_nil, List.mapM_nil]
    refine Follows.pure (fun m hm => ?_)
    rwa [List.append_nil, List.append_nil]
  | cons x rest ih =>
    intro done as bs hxs
    rw [List.mapM_cons, List.mapM_cons]
    apply Follows.bind (hstep done x rest as bs hxs)
    intro a b
    apply Follows.bind (ih (done ++ [x]) (as ++ [a]) (bs ++ [b])
      (by rw [hxs, List.append_assoc]; rfl))
    intro as' bs'
    refine Follows.pure (fun m hm => ?_)
    rwa [List.append_assoc, List.append_assoc] at hm

/-- Nothing but the computation decides what comes of the program. -/
theorem Follows.outcome {x : Filing D N ε β} (h : Follows P x g (fun a b _ => a = b) S)
    {m : Machine D N} (hm : P m) : (x m).1 = g.mapError .error := by
  have hagree := h m hm
  revert hagree
  cases (x m).1 with
  | ok a =>
    cases g with
    | ok b => exact congrArg Except.ok
    | error e' => exact False.elim
  | error e =>
    cases g with
    | ok b => exact False.elim
    | error e' => exact fun he => congrArg Except.error he.1

end

end NoSQLOptimizer.Files.Filing
