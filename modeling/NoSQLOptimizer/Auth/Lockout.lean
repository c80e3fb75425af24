import NoSQLOptimizer.Auth.Rotation
import NoSQLOptimizer.Concurrency.Commits

namespace NoSQLOptimizer.Auth

open ControlPlane Concurrency Transactions

/-- The user's row once a password has been verified against it at a time. -/
def User.attempted (user : User) (verified : Bool) (now : Instant) : User :=
  if verified then { user with failedLoginCount := 0, lockedUntil := none }
  else { user with
    failedLoginCount := user.failedLoginCount + 1
    lockedUntil := if failedLoginLimit ≤ user.failedLoginCount + 1 then
      some (now + lockoutDuration) else none }

/-- A commit of a login that has verified a password: the user was active and not locked then. -/
def Attempted (H : Library) (id : UserId) (password : String) (now : Instant) (verified : Bool)
    (t u : Tables) : Prop :=
  ∃ user, t.user id = some user ∧ user.status = "ACTIVE" ∧
    (∀ locked ∈ user.lockedUntil, locked ≤ now) ∧
    H.verifyPassword user.passwordHash password = verified ∧
    u.user id = some (user.attempted verified now)

/-- The user is there still, with the same failures and the same lock. -/
def Kept (id : UserId) (t u : Tables) : Prop :=
  ∀ user, t.user id = some user → ∃ user', u.user id = some user' ∧
    user'.failedLoginCount = user.failedLoginCount ∧ user'.lockedUntil = user.lockedUntil

theorem Kept.refl (id : UserId) (t : Tables) : Kept id t t := fun user h => ⟨user, h, rfl, rfl⟩

theorem Kept.trans {id : UserId} {t u v : Tables} (h : Kept id t u) (h' : Kept id u v) :
    Kept id t v := by
  intro user huser
  obtain ⟨user', huser', hcount, hlocked⟩ := h user huser
  obtain ⟨user'', huser'', hcount', hlocked'⟩ := h' user' huser'
  exact ⟨user'', huser'', hcount'.trans hcount, hlocked'.trans hlocked⟩

theorem Kept.of_users {id : UserId} {t u : Tables} (h : u.users = t.users) : Kept id t u := by
  intro user huser
  exact ⟨user, by rwa [Tables.user, h], rfl, rfl⟩

/-- Elsewhere, users are added and changed, but not what their logins have left. -/
structure Elsewhere (t u : Tables) : Prop where
  ids : (t.users.map (·.id)).Nodup → (u.users.map (·.id)).Nodup
  kept : ∀ id, Kept id t u

/-- A commit leaves a user's failures and lock alone, or is one of a login. -/
def Logged (H : Library) (t u : Tables) : Prop :=
  ∀ id, Kept id t u ∨ ∃ password now verified, Attempted H id password now verified t u

def Identified (t : Tables) : Prop := (t.users.map (·.id)).Nodup

/-- The requests under row locks, with their commits. -/
abbrev guarding (ι : Type) [DecidableEq ι] (H : Library) :
    Discipline (schema.conduct (call (ι := ι) H) (fun _ _ _ => True) Elsewhere) :=
  discipline _ schema Identified (Logged H)

/-- A write that leaves the users alone. -/
def Write.Calm : Write → Prop
  | .setLogin _ _ _ => False
  | .putUser _ => False
  | _ => True

theorem users_of_calm {ws : List Write} (h : ∀ w ∈ ws, w.Calm) (t : Tables) :
    (schema.applyAll ws t).users = t.users := by
  induction ws generalizing t with
  | nil => rfl
  | cons w ws ih =>
    have hw := h w List.mem_cons_self
    rw [Schema.applyAll, List.foldl_cons]
    refine (ih (fun w' hw' => h w' (List.mem_cons_of_mem w hw')) _).trans ?_
    cases w with
    | setLogin => cases hw
    | putUser => cases hw
    | insertToken => rfl
    | revoke => rfl
    | insertAudit => rfl

section

variable {ι : Type} [DecidableEq ι] {H : Library} {i : ι} {α : Type}

/-- Session `i` has written nothing to the users. -/
def Calm (i : ι) (s : Store ι) : Prop := ∀ w ∈ (s.sessions i).writes, w.Calm

theorem calm_stable : (guarding ι H).Stable i (Calm i) := by
  rintro s t ⟨hsession, -⟩ - hs
  rw [Calm, hsession]
  exact hs

theorem guarded_idle : (guarding ι H).Stable i (fun s => s.sessions i = {}) :=
  fun s t hst _ hs => (hst.1 : t.sessions i = s.sessions i).trans hs

/-- A statement that locks what it writes, and nothing of the users. -/
theorem execute_calm {b : Query} {f : Tables → Except Error (α × List Write)}
    (h : ∀ t a new, f t = .ok (a, new) → ∀ w ∈ new, w.Calm ∧ ∀ k ∈ w.keys, k ∈ b.needs t) :
    (guarding ι H).Triple i (Calm i) (schema.execute i b f) (fun _ => Calm i) (fun _ _ => True) := by
  refine .atomic calm_stable (crashable _) (fun _ => calm_stable) (fun _ _ _ _ _ _ => trivial) ?_
    (fun _ _ _ _ _ _ => trivial)
  intro s a t hs hcalm hacts ht
  cases hf : f (schema.view i s) with
  | error e =>
    rw [hf] at ht
    cases ht
  | ok r =>
    rw [hf] at ht
    cases ht
    refine ⟨⟨hs.hold hacts.1 (fun w hw k hk => List.mem_append_right _ ((h _ _ _ hf w hw).2 k hk)),
      trivial, others_rely rfl (fun _ hj => Function.update_of_ne hj _ _)⟩, ?_⟩
    intro w hw
    rw [hold_session] at hw
    rcases List.mem_append.mp hw with hw | hw
    · exact hcalm w hw
    · exact (h _ _ _ hf w hw).1

/-- What is calm may be committed. -/
theorem transaction_calm {p : Proc ι α}
    (hp : (guarding ι H).Triple i (Calm i) p (fun _ => Calm i) (fun _ _ => True)) :
    (guarding ι H).Triple i (fun s => s.sessions i = {}) (schema.transaction i p)
      (fun _ s => s.sessions i = {}) (fun _ s => s.sessions i = {}) := by
  refine transaction_triple (.conseq hp ?_ (fun a s _ hs => ?_) (fun _ _ _ _ => trivial))
  · intro s _ hs w hw
    rw [hs] at hw
    cases hw
  · refine ⟨_, _, fun _ => True, ⟨rfl, trivial⟩, Frame.true _, fun t ht _ => ?_⟩
    have husers := users_of_calm hs t
    refine ⟨?_, fun id => .inl (.of_users husers)⟩
    rw [Identified, husers]
    exact ht

theorem audit_calm (eventType : String) (actor : Option UserId) (payload : AuditPayload) :
    (guarding ι H).Triple i (fun s => s.sessions i = {}) (audit i eventType actor payload)
      (fun _ s => s.sessions i = {}) (fun _ s => s.sessions i = {}) := by
  refine transaction_calm (execute_calm (fun t a new hf w hw => ?_))
  cases hf
  obtain rfl := List.mem_singleton.mp hw
  exact ⟨trivial, fun k hk => by cases hk⟩

theorem insertToken_calm (row : RefreshToken) :
    (guarding ι H).Triple i (Calm i) (insertToken i row) (fun _ => Calm i) (fun _ _ => True) := by
  refine execute_calm (fun t a new hf w hw => ?_)
  repeat' split at hf
  all_goals cases hf
  obtain rfl := List.mem_singleton.mp hw
  exact ⟨trivial, fun k hk => hk⟩

theorem grant_calm (eventType : String) (user : User) (draw : Draw) :
    (guarding ι H).Triple i (fun s => s.sessions i = {}) (grant H i eventType user draw)
      (fun _ s => s.sessions i = {}) (fun _ s => s.sessions i = {}) := by
  unfold grant
  split
  · exact .fail guarded_idle (fun _ _ h => h)
  · exact .bind (transaction_calm (insertToken_calm _)) (fun _ => .bind (audit_calm _ _ _)
      (fun _ => .ret guarded_idle (fun _ _ h => h)))

theorem unauthorized_calm {Q : α → Store ι → Prop} (detail : String) :
    (guarding ι H).Triple i (Calm i) (unauthorized detail) Q (fun _ _ => True) :=
  .fail calm_stable (fun _ _ _ => trivial)

theorem rotate_calm (tokenId : String) (presented : Token) (now : Instant) :
    (guarding ι H).Triple i (fun s => s.sessions i = {}) (rotate H i tokenId presented now)
      (fun _ s => s.sessions i = {}) (fun _ s => s.sessions i = {}) := by
  refine transaction_calm (.bind (Q := fun _ => Calm i)
    (execute_calm (fun t found new hf w hw => ?_)) (fun found => ?_))
  · obtain ⟨-, rfl⟩ := oneOrNone_eq_ok hf
    cases hw
  cases found with
  | none => exact unauthorized_calm _
  | some row =>
    dsimp only
    split
    · exact unauthorized_calm _
    · refine .bind (Q := fun _ => Calm i) (execute_calm (fun t user new hf w hw => ?_))
        (fun user => ?_)
      · cases hf
        cases hw
      cases user with
      | none => exact unauthorized_calm _
      | some user =>
        dsimp only
        split
        · exact unauthorized_calm _
        · refine .bind (Q := fun _ => Calm i) (execute_calm (fun t a new hf w hw => ?_))
            (fun _ => .ret calm_stable (fun _ _ h => h))
          cases hf
          obtain ⟨_, -, rfl⟩ := List.mem_map.mp hw
          exact ⟨trivial, fun k hk => hk⟩

theorem revokeToken_calm (tokenId : String) (presented : Token) (now : Instant) :
    (guarding ι H).Triple i (Calm i) (revokeToken i tokenId (H.sha256 presented) now presented)
      (fun _ => Calm i) (fun _ _ => True) := by
  refine execute_calm (fun t rows new hf w hw => ?_)
  cases hf
  obtain ⟨row, hrow, rfl⟩ := List.mem_map.mp hw
  refine ⟨trivial, fun k hk => ?_⟩
  obtain rfl := List.mem_singleton.mp hk
  exact List.mem_map.mpr ⟨row, hrow, rfl⟩

theorem logout_calm (presented : Token) (draw : Draw) :
    (guarding ι H).Triple i (fun s => s.sessions i = {}) (logout H i presented draw)
      (fun _ s => s.sessions i = {}) (fun _ s => s.sessions i = {}) := by
  unfold logout
  split
  · exact .ret guarded_idle (fun _ _ h => h)
  · exact .fail guarded_idle (fun _ _ h => h)
  · refine transaction_calm ?_
    split
    · exact .fail calm_stable (fun _ _ _ => trivial)
    · exact .bind (revokeToken_calm _ presented draw.now)
        (fun _ => .ret calm_stable (fun _ _ h => h))

theorem refresh_calm (presented : Token) (draw : Draw) :
    (guarding ι H).Triple i (fun s => s.sessions i = {}) (refresh H i presented draw)
      (fun _ s => s.sessions i = {}) (fun _ s => s.sessions i = {}) := by
  unfold refresh
  split
  · exact .fail guarded_idle (fun _ _ h => h)
  split
  · exact .fail guarded_idle (fun _ _ h => h)
  · exact .bind (rotate_calm _ presented draw.now) (fun user => grant_calm _ user draw)

end

section

variable {H : Library} {t : Tables} {user : User} {id : UserId}

theorem user_of_emailed (ht : Identified t) {email : String} (h : t.emailed email = [user]) :
    t.user user.id = some user := by
  have hmem : user ∈ t.emailed email := h ▸ List.mem_cons_self
  exact find?_eq_some_of_key ht (List.mem_of_mem_filter hmem) (fun _ => decide_eq_true_iff)

theorem frame_user {ks : List Key} (h : .user id ∈ ks) (o : Option User) :
    Frame schema ks (fun t => t.user id = o) :=
  fun _ _ hsame ht => (hsame _ h).symm.trans ht

/-- What a login writes to the row of its user. -/
def loginWrite (user : User) (verified : Bool) (now : Instant) : Write :=
  .setLogin user.id (user.attempted verified now).failedLoginCount
    (user.attempted verified now).lockedUntil

theorem user_loginWrite (h : t.user user.id = some user) (verified : Bool) (now : Instant) :
    ((loginWrite user verified now).apply t).user user.id = some (user.attempted verified now) := by
  rw [loginWrite, user_setLogin, h, Option.map_some, User.loggedIn, if_pos rfl]
  cases verified <;> rfl

theorem identified_loginWrite (ht : Identified t) (verified : Bool) (now : Instant) :
    Identified ((loginWrite user verified now).apply t) := by
  rw [Identified, loginWrite, Write.apply, List.map_map]
  refine (congrArg List.Nodup (List.map_congr_left (fun other _ => ?_))).mpr ht
  exact other.loggedIn_id _ _ _

theorem logged_loginWrite (h : t.user user.id = some user) (hactive : user.status = "ACTIVE")
    {now : Instant} (hfree : ∀ locked ∈ user.lockedUntil, locked ≤ now) (password : String) :
    Logged H t ((loginWrite user (H.verifyPassword user.passwordHash password) now).apply t) := by
  intro id
  by_cases hid : id = user.id
  · subst hid
    exact .inr ⟨password, now, _, user, h, hactive, hfree, rfl, user_loginWrite h _ now⟩
  · refine .inl (fun other hother => ⟨other, ?_, rfl, rfl⟩)
    have hsame := Write.same_apply (k := .user id) (w := loginWrite user
      (H.verifyPassword user.passwordHash password) now) t (by simp [loginWrite, Write.keys, hid])
    exact hsame.symm.trans hother

end

section

variable {ι : Type} [DecidableEq ι] {H : Library} {i : ι}

/-- What is known of the user that a login has selected. -/
def Chosen (found : Option User) (t : Tables) : Prop := ∀ user ∈ found, t.user user.id = some user

theorem frame_chosen (found : Option User) :
    Frame schema (found.toList.map (.user ·.id)) (Chosen found) := by
  intro t u hsame ht user huser
  obtain rfl := Option.mem_def.mp huser
  exact frame_user List.mem_cons_self _ t u hsame (ht user rfl)

theorem ready_of_chosen {ι : Type} {i : ι} {ls : List Key} {found : Option User} {s : Store ι}
    (hR : Frame schema ls (Chosen found)) (hs : Held i ls [] (Chosen found) s) :
    Ready schema Identified (Logged H) i s :=
  ⟨ls, [], _, hs, hR, fun t ht _ => ⟨ht, fun id => .inl (.refl id t)⟩⟩

/-- The update of a login that has verified a password may be committed. -/
theorem verified_triple {user : User} (hactive : user.status = "ACTIVE") {now : Instant}
    (hfree : ∀ locked ∈ user.lockedUntil, locked ≤ now) {verified : Bool} (password : String)
    (hverified : H.verifyPassword user.passwordHash password = verified) (outcome : LoginOutcome) :
    (guarding ι H).Triple i (Held i [.user user.id] [] (Chosen (some user)))
      ((updateLogin i user.id (user.attempted verified now).failedLoginCount
        (user.attempted verified now).lockedUntil).bind (fun _ => .ret outcome))
      (fun _ => Ready schema Identified (Logged H) i) (fun _ _ => True) := by
  have hframe : Frame schema [.user user.id, .user user.id] (Chosen (some user)) :=
    (frame_chosen (some user)).append [.user user.id]
  refine .bind (Q := fun _ => Held i [.user user.id, .user user.id] [loginWrite user verified now]
    (Chosen (some user))) (execute_triple (frame_chosen (some user)) (fun _ => hframe) ?_)
    (fun _ => .ret (held_stable hframe) (fun s _ hs => ⟨_, _, _, hs, hframe, ?_⟩))
  · intro t _ new _ ht _ hf
    cases hf
    exact ⟨rfl, rfl, by simp [schema, Write.keys], ht⟩
  · intro t ht hchosen
    have huser := hchosen user rfl
    exact ⟨identified_loginWrite ht verified now,
      hverified ▸ logged_loginWrite huser hactive hfree password⟩

theorem free_of_not_locked {user : User} {now : Instant}
    (h : ¬ (user.status ≠ "ACTIVE" ∨ ∃ locked ∈ user.lockedUntil, now < locked)) :
    user.status = "ACTIVE" ∧ ∀ locked ∈ user.lockedUntil, locked ≤ now := by
  obtain ⟨hactive, hlocked⟩ := not_or.mp h
  exact ⟨not_not.mp hactive, fun locked hmem => not_lt.mp (fun hlt => hlocked ⟨locked, hmem, hlt⟩)⟩

theorem attemptLogin_guarded (request : LoginRequest) (now : Instant) :
    (guarding ι H).Triple i (fun s => s.sessions i = {}) (attemptLogin H i request now)
      (fun _ s => s.sessions i = {}) (fun _ s => s.sessions i = {}) := by
  refine transaction_triple (.bind (Q := fun found => Held i (found.toList.map (.user ·.id)) []
    (Chosen found)) ?_ (fun found => ?_))
  · refine .pre (K := Held i [] [] (fun _ => True)) (execute_triple (Frame.true []) frame_chosen ?_)
      (fun s _ hs => ⟨hs, trivial⟩)
    intro t found new ht _ _ hf
    obtain ⟨hrows, rfl⟩ := oneOrNone_eq_ok hf
    refine ⟨?_, rfl, (fun _ hw => by cases hw), ?_⟩
    · rw [← hrows]
      rfl
    · intro user huser
      obtain rfl := Option.mem_def.mp huser
      exact user_of_emailed ht hrows
  · have hstable : (guarding ι H).Stable i (Held i (found.toList.map (.user ·.id)) []
        (Chosen found)) := held_stable (frame_chosen found)
    have hret (outcome : LoginOutcome) : (guarding ι H).Triple i
        (Held i (found.toList.map (.user ·.id)) [] (Chosen found)) (.ret outcome)
        (fun _ => Ready schema Identified (Logged H) i) (fun _ _ => True) :=
      .ret hstable (fun s _ hs => ready_of_chosen (frame_chosen found) hs)
    cases found with
    | none => exact hret _
    | some user =>
      dsimp only
      split
      · exact hret _
      next hopen =>
        obtain ⟨hactive, hfree⟩ := free_of_not_locked hopen
        split
        · next hwrong =>
          exact verified_triple (ι := ι) hactive hfree request.password (by simpa using hwrong) _
        · next hright =>
          exact verified_triple (ι := ι) hactive hfree request.password (by simpa using hright) _

theorem call_guarded (i : ι) (k : Call) :
    (guarding ι H).Triple i (fun s => s.sessions i = {}) (call H i k)
      (fun _ s => s.sessions i = {}) (fun _ s => s.sessions i = {}) := by
  cases k with
  | login request draw =>
    refine .bind (Q := fun _ s => s.sessions i = {}) (.bind (attemptLogin_guarded request draw.now)
      (fun outcome => ?_)) (fun _ => .ret guarded_idle (fun _ _ h => h))
    cases outcome with
    | failed actor payload =>
      exact .bind (audit_calm _ actor payload) (fun _ => .fail guarded_idle (fun _ _ h => h))
    | accepted user => exact grant_calm _ user draw
  | refresh presented draw =>
    exact .bind (refresh_calm presented draw) (fun _ => .ret guarded_idle (fun _ _ h => h))
  | logout presented draw => exact logout_calm presented draw

theorem guarded_governs : (guarding ι H).Governs :=
  governs call_guarded (fun _ _ ht h => h.ids ht)

/-- Every action is one of a session that makes statements in transactions. -/
theorem grant_does (eventType : String) (user : User) (draw : Draw) :
    (grant H i eventType user draw).Always (schema.Does i) (fun _ => True) := by
  unfold grant
  split
  · trivial
  · exact .then (transaction_does execute_does)
      (fun _ => .then (transaction_does execute_does) (fun _ => trivial))

theorem login_does (request : LoginRequest) (draw : Draw) :
    (login H i request draw).Always (schema.Does i) (fun _ => True) := by
  refine .then (transaction_does (.then execute_does (fun found => ?_))) (fun outcome => ?_)
  · cases found with
    | none => trivial
    | some user =>
      dsimp only
      split
      · trivial
      split
      · exact .then execute_does (fun _ => trivial)
      · exact .then execute_does (fun _ => trivial)
  · cases outcome with
    | failed actor payload => exact .then (transaction_does execute_does) (fun _ => trivial)
    | accepted user => exact grant_does _ user draw

theorem rotate_does (tokenId : String) (presented : Token) (now : Instant) :
    (rotate H i tokenId presented now).Always (schema.Does i) (fun _ => True) := by
  refine transaction_does (.then execute_does (fun found => ?_))
  cases found with
  | none => trivial
  | some row =>
    dsimp only
    split
    · trivial
    · refine .then execute_does (fun user => ?_)
      cases user with
      | none => trivial
      | some user =>
        dsimp only
        split
        · trivial
        · exact .then execute_does (fun _ => trivial)

theorem call_does (i : ι) (k : Call) : (call H i k).Always (schema.Does i) (fun _ => True) := by
  cases k with
  | login request draw => exact .then (login_does request draw) (fun _ => trivial)
  | refresh presented draw =>
    refine .then ?_ (fun _ => trivial)
    unfold refresh
    split
    · trivial
    split
    · trivial
    · exact .then (rotate_does _ presented draw.now) (fun user => grant_does _ user draw)
  | logout presented draw =>
    rw [call]
    unfold logout
    split
    · trivial
    · trivial
    · refine transaction_does ?_
      split
      · trivial
      · exact .then execute_does (fun _ => trivial)

/-- The first actions of a login that verifies a password. -/
theorem call_login (request : LoginRequest) (draw : Draw) : ∃ u k,
    call H i (.login request draw) = .act (.exec (.selectLogin request.email)) u k ∧
      ∀ s user, (schema.view i s).emailed request.email = [user] →
        u s = schema.hold i (.selectLogin request.email) [] s ∧
        (user.status = "ACTIVE" → (∀ locked ∈ user.lockedUntil, locked ≤ draw.now) →
          ∃ k' : Store ι → Store ι → Proc ι PUnit, k s = .act (.exec (.updateLogin user.id)) (schema.hold i (.updateLogin user.id)
            [loginWrite user (H.verifyPassword user.passwordHash request.password) draw.now])
              (fun s' => .act .commit (schema.commit i) (k' s'))) := by
  refine ⟨_, _, rfl, fun s user h => ⟨by simp [h, oneOrNone, Except.map], fun hactive hfree => ?_⟩⟩
  have hopen : ¬ (user.status ≠ "ACTIVE" ∨ ∃ locked ∈ user.lockedUntil, draw.now < locked) := by
    rintro (hne | ⟨locked, hmem, hlt⟩)
    · exact hne hactive
    · exact absurd hlt (not_lt.mpr (hfree locked hmem))
  cases hverified : H.verifyPassword user.passwordHash request.password with
  | false =>
    simp only [h, oneOrNone, Except.map, Process.ret_bind, hopen, if_false, hverified]
    exact ⟨_, rfl⟩
  | true =>
    simp only [h, oneOrNone, Except.map, Process.ret_bind, hopen, if_false, hverified]
    exact ⟨_, rfl⟩

/-- A password is verified where the login's transaction has selected the user only, who is active and
not locked at the time of the request. -/
def Verifies (i : ι) (request : LoginRequest) (draw : Draw)
    (past : List (Statement Query × Store ι)) (l : Statement Query) (_ : Store ι) : Prop :=
  ∀ id, l = .exec (.updateLogin id) → ∃ first user,
    past = [(.exec (.selectLogin request.email), first)] ∧
      (schema.view i first).emailed request.email = [user] ∧ user.id = id ∧
      user.status = "ACTIVE" ∧ ∀ locked ∈ user.lockedUntil, locked ≤ draw.now

/-- The statement is not the update of a login. -/
def Query.Aside (b : Query) : Prop := ∀ id, b ≠ .updateLogin id

theorem audit_aside (eventType : String) (actorUserId : Option UserId) (payload : AuditPayload) :
    (audit i eventType actorUserId payload).Always (fun l _ _ => ∀ b, l = .exec b → b.Aside)
      (fun _ => True) :=
  transaction_always (execute_always (fun _ h => by cases h))

theorem grant_aside (eventType : String) (user : User) (draw : Draw) :
    (grant H i eventType user draw).Always (fun l _ _ => ∀ b, l = .exec b → b.Aside)
      (fun _ => True) := by
  unfold grant
  split
  · trivial
  · exact .then (transaction_always (execute_always (fun _ h => by cases h)))
      (fun _ => .then (audit_aside _ _ _) (fun _ => trivial))

theorem verifies_of_aside {ι α : Type} {i : ι} {request : LoginRequest} {draw : Draw}
    {p : Proc ι α} {past : List (Statement Query × Store ι)}
    (h : p.Always (fun l _ _ => ∀ b, l = .exec b → b.Aside) (fun _ => True)) :
    p.Traced (Verifies i request draw) (fun _ _ => True) past :=
  .of_always h (fun _ _ _ _ hl id heq => absurd rfl (hl _ heq id))

theorem login_traced (request : LoginRequest) (draw : Draw) :
    (call H i (.login request draw)).Traced (Verifies i request draw) (fun _ _ => True) [] := by
  refine .bind (Q := fun _ _ => True) (.bind (Q := fun _ _ => True) (transaction_traced
    (Q := fun _ _ => True) (fun _ _ _ h => by cases h) (fun _ _ _ h => by cases h) ?_) ?_)
    (fun _ _ _ => trivial)
  · refine .bind (Q := fun past found => ∃ first : Store ι,
      past = [(.exec (.selectLogin request.email), first)] ∧
        (schema.view i first).emailed request.email = found.toList)
      (execute_traced (fun s id h => by cases h)
        (fun s found ws hf => ⟨s, rfl, (oneOrNone_eq_ok hf).1⟩)) ?_
    rintro found _ ⟨first, rfl, hfound⟩
    cases found with
    | none => trivial
    | some user =>
      dsimp only
      split
      · trivial
      next hopen =>
        obtain ⟨hactive, hfree⟩ := free_of_not_locked hopen
        have hverifies (s : Store ι) : Verifies i request draw
            [(.exec (.selectLogin request.email), first)] (.exec (.updateLogin user.id)) s := by
          intro id h
          cases h
          exact ⟨first, user, rfl, hfound, rfl, hactive, hfree⟩
        split
        · exact .bind (Q := fun _ _ => True) (execute_traced hverifies (fun _ _ _ _ => trivial))
            (fun _ _ _ => trivial)
        · exact .bind (Q := fun _ _ => True) (execute_traced hverifies (fun _ _ _ _ => trivial))
            (fun _ _ _ => trivial)
  · intro outcome past _
    cases outcome with
    | failed actor payload =>
      exact verifies_of_aside (.then (audit_aside _ actor payload) (fun _ => trivial))
    | accepted user => exact verifies_of_aside (grant_aside _ user draw)

variable {t : Tables} {c c' d d' : Config (Statement Query) (Store ι) Error ι}
  {request : LoginRequest} {draw : Draw} {user : User}

/-- The runs: requests of any sessions, among surroundings that leave the logins alone. -/
abbrev LoginRun (H : Library) (t : Tables) (c : Config (Statement Query) (Store ι) Error ι) : Prop :=
  (schema.system (call H)).Reach
    (schema.conduct (call H) (fun _ _ _ => True) Elsewhere).Allows (.quiet { tables := t }) c

/-- In such a run, session `i` has come to where it is in this login, by these actions. -/
abbrev InLogin (H : Library) (t : Tables) (i : ι) (request : LoginRequest) (draw : Draw)
    (past : List (Statement Query × Config (Statement Query) (Store ι) Error ι))
    (c : Config (Statement Query) (Store ι) Error ι) : Prop :=
  (schema.system (call H)).Progress
    (schema.conduct (call H) (fun _ _ _ => True) Elsewhere).Allows (.quiet { tables := t }) i
    (.login request draw) past c

theorem guarded_holds (ht : Identified t) (hr : LoginRun H t c) : (guarding ι H).Holds c :=
  (holds_quiet ht).reach guarded_governs hr

/-- Once a login has selected its user it holds the row. -/
theorem user_held (ht : Identified t)
    (hpast : InLogin H t i request draw [(.exec (.selectLogin request.email), d)] c)
    (hfound : (schema.view i d.shared).emailed request.email = [user]) :
    Held i [.user user.id] [] (fun t => t.user user.id = some user) c.shared := by
  have hquiet : (guarding ι H).Holds (.quiet { tables := t }) := holds_quiet ht
  have hstart := (System.Progress.earlier [] hpast).1
  have hidle : d.shared.sessions i = {} := hstart.idle hquiet guarded_governs
  have hview : schema.view i d.shared = d.shared.tables := view_eq_tables (by rw [hidle])
  obtain ⟨u, k, hpool, hsessions, hsame⟩ := System.Progress.since [] hpast hquiet guarded_governs
  obtain ⟨u', k', hcall, hshape⟩ := call_login (H := H) (i := i) request draw
  obtain ⟨-, rfl, -⟩ := Process.act.inj ((hstart.first hpool).trans hcall)
  rw [(hshape d.shared user hfound).1] at hsessions hsame
  have hlocks : c.shared.sessions i = ⟨[.user user.id], []⟩ := by
    have hneeds : schema.needs (.selectLogin request.email) (schema.view i d.shared) =
        [.user user.id] := by
      change List.map _ _ = _
      rw [hfound]
      rfl
    rw [hsessions, hold_session, hidle, hneeds]
    rfl
  have huser : d.shared.tables.user user.id = some user := by
    rw [hview] at hfound
    exact user_of_emailed (guarded_holds ht hstart.reach).inv.tables hfound
  refine ⟨hlocks, (hsame (.user user.id) ?_).symm.trans huser⟩
  rw [← hsessions, hlocks]
  exact List.mem_cons_self

/-- Where a login is about to update its user it has verified a password, and holds the row, which is
not locked at the time of the request. -/
theorem verified_held (ht : Identified t)
    {past : List (Statement Query × Config (Statement Query) (Store ι) Error ι)} {id : UserId}
    (hpast : InLogin H t i request draw past c) (hl : c.label i = some (.exec (.updateLogin id))) :
    ∃ d user, past = [(.exec (.selectLogin request.email), d)] ∧
      (schema.view i d.shared).emailed request.email = [user] ∧ user.id = id ∧
      user.status = "ACTIVE" ∧ (∀ locked ∈ user.lockedUntil, locked ≤ draw.now) ∧
      Held i [.user user.id] [] (fun t => t.user user.id = some user) c.shared := by
  obtain ⟨first, user, hseen, hfound, hid, hactive, hfree⟩ :=
    hpast.traced hl (login_traced request draw) id rfl
  obtain ⟨d, rest, rfl, rfl, hrest⟩ := System.seen_eq_cons hseen
  obtain rfl := List.map_eq_nil_iff.mp hrest
  exact ⟨d, user, rfl, hfound, hid, hactive, hfree, user_held ht hpast hfound⟩

/-- A login that has verified a password commits what came of it. -/
theorem attempted_of_commit (ht : Identified t) {id : UserId}
    (hpast : InLogin H t i request draw
      [(.exec (.selectLogin request.email), d), (.exec (.updateLogin id), d')] c)
    (hn : (schema.system (call H)).next c (.step i) = some c') :
    c'.shared.commits = c.shared.commits ++ [(c.shared.tables, c'.shared.tables)] ∧
      ∃ verified,
        Attempted H id request.password draw.now verified c.shared.tables c'.shared.tables := by
  obtain ⟨hprevious, hlabel, -⟩ :=
    System.Progress.earlier [(.exec (.selectLogin request.email), d)] hpast
  obtain ⟨_, user, hsel, hfound, rfl, hactive, hfree, hsession, huser⟩ :=
    verified_held ht hprevious hlabel
  cases hsel
  obtain ⟨u, k, hcall, hshape⟩ := call_login (H := H) (i := i) request draw
  obtain ⟨-, hsecond⟩ := hshape d.shared user hfound
  obtain ⟨k', hupdate⟩ := hsecond hactive hfree
  -- the action at `d'` is the update
  obtain ⟨u', k₂, hpool, hsessions, hsame⟩ := System.Progress.since
    [(.exec (.selectLogin request.email), d)] hpast (holds_quiet ht) guarded_governs
  obtain ⟨u₀, k₀, hstart, hat⟩ := (hprevious.trail hpool).of_singleton
  obtain ⟨-, rfl, rfl⟩ := Process.act.inj (hstart.symm.trans hcall)
  obtain ⟨-, rfl, rfl⟩ := Process.act.inj (hat.trans hupdate)
  -- and the one at `c` is the commit
  simp only [System.next] at hn
  split at hn <;> cases hn
  next l u k₃ hp =>
    obtain ⟨u₂, k₂, hbefore, hc⟩ := (hpast.trail hp).of_pair
    obtain ⟨_, _, hstart', hat'⟩ := hbefore.of_singleton
    obtain ⟨-, -, rfl⟩ := Process.act.inj (hstart'.symm.trans hcall)
    obtain ⟨-, -, rfl⟩ := Process.act.inj (hat'.trans hupdate)
    obtain ⟨-, rfl, -⟩ := Process.act.inj hc
    have hlocks : c.shared.sessions i = ⟨[.user user.id, .user user.id],
        [loginWrite user (H.verifyPassword user.passwordHash request.password) draw.now]⟩ := by
      rw [hsessions, hold_session, hsession]
      rfl
    have hrow : c.shared.tables.user user.id = some user := by
      refine (hsame (.user user.id) ?_).symm.trans huser
      rw [← hsessions, hlocks]
      exact List.mem_cons_self
    refine ⟨rfl, _, user, hrow, hactive, hfree, rfl, ?_⟩
    change (schema.view i c.shared).user user.id = _
    rw [Schema.view, hlocks]
    exact user_loginWrite hrow _ draw.now

end

section

variable {H : Library} {t u : Tables} {id : UserId} {password : String} {now bound : Instant}

/-- The user has failed often enough to be locked, until this time at least. -/
def Barred (id : UserId) (bound : Instant) (t : Tables) : Prop :=
  ∃ user, t.user id = some user ∧ failedLoginLimit ≤ user.failedLoginCount ∧
    ∃ locked ∈ user.lockedUntil, bound ≤ locked

theorem Barred.kept (h : Barred id bound t) (hkept : Kept id t u) : Barred id bound u := by
  obtain ⟨user, huser, hcount, locked, hlocked, hbound⟩ := h
  obtain ⟨user', huser', hcount', hlocked'⟩ := hkept user huser
  exact ⟨user', huser', hcount' ▸ hcount, locked, hlocked' ▸ hlocked, hbound⟩

/-- No password is verified before the lock has run out. -/
theorem Barred.le_of_attempted (h : Barred id bound t) {verified : Bool}
    (ha : Attempted H id password now verified t u) : bound ≤ now := by
  obtain ⟨user, huser, -, locked, hlocked, hbound⟩ := h
  obtain ⟨user', huser', -, hfree, -⟩ := ha
  rw [huser, Option.some.injEq] at huser'
  exact hbound.trans (hfree locked (huser' ▸ hlocked))

theorem barred_of_failures (ha : Attempted H id password now false t u)
    (hcount : ∃ user, u.user id = some user ∧ failedLoginLimit ≤ user.failedLoginCount) :
    Barred id (now + lockoutDuration) u := by
  obtain ⟨user, -, -, -, -, huser⟩ := ha
  obtain ⟨user', huser', hcount⟩ := hcount
  rw [huser, Option.some.injEq] at huser'
  have hfailures : failedLoginLimit ≤ user.failedLoginCount + 1 := by
    rw [← huser'] at hcount
    exact hcount
  refine ⟨_, huser, hfailures, now + lockoutDuration, ?_, le_refl _⟩
  exact Option.mem_def.mpr (if_pos hfailures)

/-- A failure more extends the lock. -/
theorem Barred.failed (h : Barred id bound t) (ha : Attempted H id password now false t u) :
    Barred id bound u := by
  have hnow := h.le_of_attempted ha
  obtain ⟨user, huser, hcount, -⟩ := h
  have hfailures : ∃ user, u.user id = some user ∧ failedLoginLimit ≤ user.failedLoginCount := by
    obtain ⟨user', huser', -, -, -, hu⟩ := ha
    rw [huser, Option.some.injEq] at huser'
    subst huser'
    exact ⟨_, hu, hcount.trans (Int.le_add_one (le_refl user.failedLoginCount))⟩
  obtain ⟨user', huser', hcount', locked, hlocked, hbound⟩ := barred_of_failures ha hfailures
  have hduration : 0 ≤ lockoutDuration := by decide
  exact ⟨user', huser', hcount', locked, hlocked,
    hnow.trans ((Int.le_add_of_nonneg_right hduration).trans hbound)⟩

end

section

variable {ι : Type} [DecidableEq ι] {H : Library} {t : Tables}
  {c : Config (Statement Query) (Store ι) Error ι}

/-- Once a user is locked, a password is verified again only as long after as the lock lasts. -/
theorem spaced_of_commits {es : List (Tables × Tables)} {u v : Tables} {id : UserId}
    {password : String} {now bound : Instant} {verified : Bool}
    (hlinked : Linked (fun t u => ∀ id, Kept id t u) t es u) (hbarred : Barred id bound t)
    (hlogged : ∀ e ∈ es, Logged H e.1 e.2)
    (hfailed : ∀ e ∈ es, ∀ password now, ¬ Attempted H id password now true e.1 e.2)
    (ha : Attempted H id password now verified u v) : bound ≤ now := by
  have hbarred' : Barred id bound u := by
    apply hlinked.invariant hbarred (fun t u hkept ht => ht.kept (hkept id))
    intro e he hb
    rcases hlogged e he id with hkept | ⟨password', now', verified', hattempted⟩
    · exact hb.kept hkept
    · cases verified' with
      | false => exact hb.failed hattempted
      | true => exact absurd hattempted (hfailed e he password' now')
  exact hbarred'.le_of_attempted ha

/-- No password is verified for a request from before the end of the lock; what a verification comes
to is committed with the time of its request; and from the fifth failure on, no password is verified
within the lock's duration of a failure, unless a login succeeds between them. -/
theorem login_lockout (ht : Identified t) (hr : LoginRun H t c) :
    (∀ i request draw past id, InLogin H t i request draw past c →
      c.label i = some (.exec (.updateLogin id)) → ∃ user, c.shared.tables.user id = some user ∧
        user.status = "ACTIVE" ∧ ∀ locked ∈ user.lockedUntil, locked ≤ draw.now) ∧
    (∀ i request draw id d d' c', InLogin H t i request draw
        [(.exec (.selectLogin request.email), d), (.exec (.updateLogin id), d')] c →
      (schema.system (call H)).next c (.step i) = some c' →
        c'.shared.commits = c.shared.commits ++ [(c.shared.tables, c'.shared.tables)] ∧
        ∃ verified,
          Attempted H id request.password draw.now verified c.shared.tables c'.shared.tables) ∧
    ∀ id before e between e' after password now password' now' verified,
      c.shared.commits = before ++ e :: (between ++ e' :: after) →
      Attempted H id password now false e.1 e.2 →
      (∃ user, e.2.user id = some user ∧ failedLoginLimit ≤ user.failedLoginCount) →
      Attempted H id password' now' verified e'.1 e'.2 →
      (∀ e'' ∈ between, ∀ password now, ¬ Attempted H id password now true e''.1 e''.2) →
        now + lockoutDuration ≤ now' := by
  refine ⟨?_, fun i request draw id d d' c' => attempted_of_commit ht, ?_⟩
  · intro i request draw past id hpast hl
    obtain ⟨_, user, -, -, rfl, hactive, hfree, -, huser⟩ := verified_held ht hpast hl
    exact ⟨user, huser, hactive, hfree⟩
  · intro id before e between e' after password now password' now' verified hcommits hfirst hcount
      hsecond hfailed
    have hlinked : Linked (fun t u => ∀ id, Kept id t u) t c.shared.commits c.shared.tables :=
      reach_linked (fun t id => .refl id t) (fun h h' id => (h id).trans (h' id)) call_does
        (fun _ _ h => h.kept) hr
    have hlogged := (guarded_holds ht hr).inv.commits
    rw [hcommits] at hlinked hlogged
    exact spaced_of_commits hlinked.split.2.split.1 (barred_of_failures hfirst hcount)
      (fun e'' he => hlogged e'' (by simp [he])) hfailed hsecond

end

section

/-- Passwords that are never right. -/
def guessing : Library := { plain with verify := fun _ _ => false }

def guessed (failures : Int) (lockedUntil : Option Instant) (audit : List AuditEvent) : Tables where
  users := [
    { id := 0
      email := "operator@example.com"
      passwordHash := ""
      failedLoginCount := failures
      lockedUntil := lockedUntil }]
  audit := audit

def guess (now : Instant) : Call :=
  .login ⟨"operator@example.com", "not the password"⟩ { now := now }

/-- A fifth failure, and a sixth as soon as the lock has run out. -/
def guesses : List (Event Unit Call (List Write)) :=
  Event.calls () (guess 0) 5 ++ Event.calls () (guess lockoutDuration) 3

def fifth : AuditEvent := ⟨"AUTH_LOGIN_FAILED", some 0, .failures 5 true⟩

theorem login_lockout_guesses : ∃ c : Config (Statement Query) (Store Unit) Error Unit,
    LoginRun guessing (guessed 4 none []) c ∧
    c.shared.commits = [(guessed 4 none [], guessed 5 (some lockoutDuration) []),
      (guessed 5 (some lockoutDuration) [], guessed 5 (some lockoutDuration) [fifth]),
      (guessed 5 (some lockoutDuration) [fifth],
        guessed 6 (some (lockoutDuration + lockoutDuration)) [fifth])] ∧
    0 + lockoutDuration ≤ lockoutDuration := by
  have hrun : ((schema.system (call guessing)).exec (fun _ _ => true) guesses
      (.quiet { tables := guessed 4 none [] })).map (fun c => c.shared.commits) =
        some [(guessed 4 none [], guessed 5 (some lockoutDuration) []),
          (guessed 5 (some lockoutDuration) [], guessed 5 (some lockoutDuration) [fifth]),
          (guessed 5 (some lockoutDuration) [fifth],
            guessed 6 (some (lockoutDuration + lockoutDuration)) [fifth])] := by
    decide +kernel
  have hallows : ∀ e ∈ guesses, ∀ c, true = true →
      (schema.conduct (call guessing) (fun _ _ _ => True) Elsewhere).Allows c e := by
    intro e he c _
    rcases List.mem_append.mp he with he | he
    all_goals
      obtain rfl | rfl := Event.of_mem_calls he
      · trivial
      · refine fun l _ => ⟨?_, fun _ _ => trivial⟩
        cases l with
        | exec b => exact fun _ _ j hj => absurd rfl hj
        | _ => trivial
  obtain ⟨c, hr, hc⟩ := System.Reach.of_exec_map
    (P := (schema.conduct (call guessing) (fun _ _ _ => True) Elsewhere).Allows) hallows hrun
  have hids : Identified (guessed 4 none []) := by simp [Identified, guessed]
  have hspaced := (login_lockout hids hr).2.2 0 [] _ [_] _ []
    "not the password" 0 "not the password" lockoutDuration false hc
  refine ⟨c, hr, hc, hspaced ?_ ?_ ?_ ?_⟩
  · exact ⟨_, rfl, rfl, fun _ h => (by cases h), rfl, rfl⟩
  · exact ⟨_, rfl, by decide⟩
  · refine ⟨_, rfl, rfl, fun _ h => ?_, rfl, rfl⟩
    cases h
    exact le_refl _
  · rintro e he password now ⟨_, -, -, -, hverified, -⟩
    simp [Library.verifyPassword, guessing] at hverified

end

end NoSQLOptimizer.Auth
