import NoSQLOptimizer.Auth.Routes
import NoSQLOptimizer.Concurrency.Standing
import NoSQLOptimizer.ControlPlane.Rows

namespace NoSQLOptimizer.Auth

open ControlPlane Concurrency Transactions

/-- What holds of the tables at every commit. -/
structure Consistent (H : Library) (t : Tables) : Prop where
  ids : (t.tokens.map (·.id)).Nodup
  tokenIds : (t.tokens.map (·.tokenId)).Nodup
  hashes : (t.tokens.map (·.tokenHash)).Nodup
  once : (t.revocations.map (·.row)).Nodup
  revoked : ∀ e ∈ t.revocations, ∃ row ∈ t.tokens, row.id = e.row ∧
    row.tokenHash = H.sha256 e.presented ∧ row.revokedAt ≠ none

section

variable {H : Library} {t u : Tables} {row : RefreshToken} {id : RowId} {now : Instant}

theorem token_mem (h : t.token id = some row) : row ∈ t.tokens ∧ row.id = id :=
  ⟨List.mem_of_find?_eq_some h, by simpa using List.find?_some h⟩

theorem Consistent.token (h : Consistent H t) (hrow : row ∈ t.tokens) : t.token row.id = some row :=
  find?_eq_some_of_key h.ids hrow (fun _ => decide_eq_true_iff)

theorem map_revoked {α : Type} {f : RefreshToken → α} (rows : List RefreshToken)
    (h : ∀ row : RefreshToken, f (row.revoked id now) = f row) :
    (rows.map (·.revoked id now)).map f = rows.map f := by
  rw [List.map_map]
  exact List.map_congr_left (fun row _ => h row)

/-- A row that is revoked had not been revoked by anybody. -/
theorem Consistent.revoke (h : Consistent H t) (hrow : t.token id = some row)
    (hnone : row.revokedAt = none) {presented : Token} (hhash : row.tokenHash = H.sha256 presented)
    (now : Instant) (route : Route) : Consistent H ((Write.revoke id now route presented).apply t) := by
  obtain ⟨hmem, rfl⟩ := token_mem hrow
  have hkept : ∀ other ∈ t.tokens, other.revoked row.id now ∈
      ((Write.revoke row.id now route presented).apply t).tokens :=
    fun other hother => List.mem_map.mpr ⟨other, hother, rfl⟩
  refine ⟨?_, ?_, ?_, nodup_map_concat h.once (fun e he heq => ?_), fun e he => ?_⟩
  · rw [Write.apply, map_revoked t.tokens (fun row' => row'.revoked_id row.id now)]
    exact h.ids
  · rw [Write.apply, map_revoked t.tokens (fun row' => row'.revoked_tokenId row.id now)]
    exact h.tokenIds
  · rw [Write.apply, map_revoked t.tokens (fun row' => row'.revoked_tokenHash row.id now)]
    exact h.hashes
  · obtain ⟨other, hother, hid, -, hrevoked⟩ := h.revoked e he
    obtain rfl := List.inj_on_of_nodup_map h.ids hother hmem (hid.trans heq)
    exact hrevoked hnone
  · rcases List.mem_append.mp he with he | he
    · obtain ⟨other, hother, hid, hotherHash, hrevoked⟩ := h.revoked e he
      refine ⟨_, hkept other hother, (other.revoked_id row.id now).trans hid,
        (other.revoked_tokenHash row.id now).trans hotherHash, ?_⟩
      unfold RefreshToken.revoked
      split
      · exact Option.some_ne_none now
      · exact hrevoked
    · obtain rfl := List.mem_singleton.mp he
      refine ⟨_, hkept row hmem, row.revoked_id row.id now,
        (row.revoked_tokenHash row.id now).trans hhash, ?_⟩
      simp [RefreshToken.revoked]

theorem Consistent.insert (h : Consistent H t) (hid : t.token row.id = none)
    (htokenId : t.named row.tokenId = []) (hhash : t.hashed row.tokenHash = []) :
    Consistent H ((Write.insertToken row).apply t) := by
  refine ⟨nodup_map_concat h.ids (fun other hother => ?_),
    nodup_map_concat h.tokenIds (fun other hother heq => ?_),
    nodup_map_concat h.hashes (fun other hother heq => ?_), h.once, fun e he => ?_⟩
  · simpa using List.find?_eq_none.mp hid other hother
  · exact List.filter_eq_nil_iff.mp htokenId other hother (decide_eq_true heq)
  · exact List.filter_eq_nil_iff.mp hhash other hother (decide_eq_true heq)
  · obtain ⟨other, hother, hrest⟩ := h.revoked e he
    exact ⟨other, List.mem_append_left _ hother, hrest⟩

/-- What happens to users and to the audit does not matter. -/
theorem Consistent.users (h : Consistent H t) (hu : Users t u) : Consistent H u := by
  obtain ⟨htokens, hrevocations⟩ := hu
  refine ⟨?_, ?_, ?_, ?_, ?_⟩
  · exact htokens ▸ h.ids
  · exact htokens ▸ h.tokenIds
  · exact htokens ▸ h.hashes
  · exact hrevocations ▸ h.once
  · rw [htokens, hrevocations]
    exact h.revoked

/-- A token that is presented has one row at most. -/
theorem Consistent.presented (h : Consistent H t) (tokenId : String) (tokenHash : Digest) :
    t.presented tokenId tokenHash = [] ∨ ∃ row, t.presented tokenId tokenHash = [row] := by
  have hmem : ∀ row ∈ t.presented tokenId tokenHash, row ∈ t.tokens ∧ row.tokenId = tokenId := by
    intro row hrow
    obtain ⟨hrow, hwanted⟩ := List.mem_filter.mp hrow
    exact ⟨hrow, (of_decide_eq_true hwanted).1⟩
  have hnodup : (t.presented tokenId tokenHash).Nodup := h.ids.of_map.filter _
  rcases hrows : t.presented tokenId tokenHash with _ | ⟨row, _ | ⟨other, rest⟩⟩
  · exact .inl rfl
  · exact .inr ⟨row, rfl⟩
  · rw [hrows] at hmem hnodup
    obtain ⟨hrow, hid⟩ := hmem row List.mem_cons_self
    obtain ⟨hother, hid'⟩ := hmem other (List.mem_cons_of_mem row List.mem_cons_self)
    have heq := List.inj_on_of_nodup_map h.tokenIds hrow hother (hid.trans hid'.symm)
    exact absurd (heq ▸ List.mem_cons_self) (List.nodup_cons.mp hnodup).1

/-- What `one_or_none()` gives is all there is. -/
theorem oneOrNone_eq_ok {ρ : Type} {rows : List ρ} {found : Option ρ} {ws : List Write}
    (h : (oneOrNone rows).map (fun found => (found, ([] : List Write))) = .ok (found, ws)) :
    rows = found.toList ∧ ws = [] := by
  rcases rows with _ | ⟨row, _ | ⟨other, rest⟩⟩ <;> cases h <;> exact ⟨rfl, rfl⟩

end

section

variable {ι : Type} [DecidableEq ι] {H : Library} {i : ι} {ls : List Key} {ws : List Write}
  {R : Tables → Prop}

/-- The requests under row locks. -/
abbrev locking (ι : Type) [DecidableEq ι] (H : Library) :
    Discipline (schema.conduct (call (ι := ι) H) (fun _ _ _ => True) Users) :=
  discipline _ schema (Consistent H) (fun _ _ => True)

theorem frame_token {ks : List Key} {id : RowId} (h : .token id ∈ ks) (o : Option RefreshToken) :
    Frame schema ks (fun t => t.token id = o) :=
  fun _ _ hsame ht => (hsame _ h).symm.trans ht

theorem frame_named {ks : List Key} {text : String} (h : .tokenId text ∈ ks) :
    Frame schema ks (fun t => t.named text = []) := by
  intro t u hsame ht
  have hids : (t.named text).map (·.id) = (u.named text).map (·.id) := hsame _ h
  rw [ht] at hids
  exact List.map_eq_nil_iff.mp hids.symm

theorem frame_hashed {ks : List Key} {digest : Digest} (h : .tokenHash digest ∈ ks) :
    Frame schema ks (fun t => t.hashed digest = []) := by
  intro t u hsame ht
  have hids : (t.hashed digest).map (·.id) = (u.hashed digest).map (·.id) := hsame _ h
  rw [ht] at hids
  exact List.map_eq_nil_iff.mp hids.symm

theorem stable_held (hR : Frame schema ls R) : (locking ι H).Stable i (Held i ls ws R) :=
  held_stable hR

theorem stable_idle : (locking ι H).Stable i (fun s => s.sessions i = {}) :=
  fun s t hst _ hs => (hst.1 : t.sessions i = s.sessions i).trans hs

theorem unauthorized_triple {α : Type} {K : Store ι → Prop} (hK : (locking ι H).Stable i K)
    {Q : α → Store ι → Prop} (detail : String) :
    (locking ι H).Triple i K (unauthorized detail) Q (fun _ _ => True) :=
  .fail hK (fun _ _ _ => trivial)

/-- What is written may be committed. -/
theorem ready_of_held {ι : Type} {i : ι} {s : Store ι} (hR : Frame schema ls R) (hs : Held i ls ws R s)
    (h : ∀ t, Consistent H t → R t → Consistent H (schema.applyAll ws t)) :
    Ready schema (Consistent H) (fun _ _ => True) i s :=
  ⟨ls, ws, R, hs, hR, fun t ht hRt => ⟨h t ht hRt, trivial⟩⟩

/-- A transaction of one statement. -/
theorem single_triple {α : Type} {b : Query} {f : Tables → Except Error (α × List Write)}
    {L : List Key} {W : α → List Write} {P : α → Tables → Prop}
    (hP : ∀ a, Frame schema L (P a))
    (h : ∀ t a new, Consistent H t → f t = .ok (a, new) → b.needs t = L ∧ new = W a ∧
      (∀ w ∈ new, ∀ k ∈ w.keys, k ∈ L) ∧ P a t)
    (hcommit : ∀ a t, Consistent H t → P a t → Consistent H (schema.applyAll (W a) t)) :
    (locking ι H).Triple i (fun s => s.sessions i = {}) (schema.transaction i (schema.execute i b f))
      (fun _ s => s.sessions i = {}) (fun _ s => s.sessions i = {}) := by
  refine transaction_triple (.post (Q := fun a => Held i L (W a) (P a))
    (.pre (K := Held i [] [] (fun _ => True)) (execute_triple (Frame.true []) hP ?_)
      (fun s _ hs => ⟨hs, trivial⟩)) (fun a s _ hs => ready_of_held (hP a) hs (hcommit a)))
  exact fun t a new ht _ _ hf => h t a new ht hf

theorem audit_triple (eventType : String) (actor : Option UserId) (payload : AuditPayload) :
    (locking ι H).Triple i (fun s => s.sessions i = {}) (audit i eventType actor payload)
      (fun _ s => s.sessions i = {}) (fun _ s => s.sessions i = {}) := by
  refine single_triple (L := []) (W := fun _ => [.insertAudit ⟨eventType, actor, payload⟩])
    (P := fun _ _ => True) (fun _ => Frame.true _) ?_
    (fun _ _ ht _ => ht.users ⟨rfl, rfl⟩)
  intro t a new _ hf
  cases hf
  exact ⟨rfl, rfl, by simp [Write.keys], trivial⟩

theorem createToken_triple (row : RefreshToken) :
    (locking ι H).Triple i (fun s => s.sessions i = {}) (schema.transaction i (insertToken i row))
      (fun _ s => s.sessions i = {}) (fun _ s => s.sessions i = {}) := by
  refine single_triple (L := (Write.insertToken row).keys) (W := fun _ => [.insertToken row])
    (P := fun _ t => t.token row.id = none ∧ t.named row.tokenId = [] ∧ t.hashed row.tokenHash = [])
    (fun _ => (frame_token (by simp [Write.keys]) none).and
      ((frame_named (by simp [Write.keys])).and (frame_hashed (by simp [Write.keys])))) ?_
    (fun _ _ ht hnew => ht.insert hnew.1 hnew.2.1 hnew.2.2)
  intro t a new _ hf
  split at hf
  · cases hf
  split at hf
  · cases hf
  split at hf
  · cases hf
  split at hf
  · cases hf
  next hid hname hhash =>
    cases hf
    refine ⟨rfl, rfl, by simp, ?_, not_not.mp hname, not_not.mp hhash⟩
    exact Option.isNone_iff_eq_none.mp (by simpa using hid)

theorem grant_triple (eventType : String) (user : User) (draw : Draw) :
    (locking ι H).Triple i (fun s => s.sessions i = {}) (grant H i eventType user draw)
      (fun _ s => s.sessions i = {}) (fun _ s => s.sessions i = {}) := by
  unfold grant
  split
  · exact .fail stable_idle (fun _ _ h => h)
  · exact .bind (createToken_triple _) (fun _ => .bind (audit_triple _ _ _)
      (fun _ => .ret stable_idle (fun _ _ h => h)))

theorem updateLogin_triple (id : UserId) (failures : Int) (lockedUntil : Option Instant) :
    (locking ι H).Triple i (Held i ls [] (fun _ => True)) (updateLogin i id failures lockedUntil)
      (fun _ => Held i (ls ++ [.user id]) [.setLogin id failures lockedUntil] (fun _ => True))
      (fun _ _ => True) := by
  refine execute_triple (Frame.true _) (fun _ => Frame.true _) ?_
  intro t _ new _ _ _ hf
  cases hf
  exact ⟨rfl, rfl, by simp [schema, Write.keys], trivial⟩

theorem attemptLogin_triple (request : LoginRequest) (now : Instant) :
    (locking ι H).Triple i (fun s => s.sessions i = {}) (attemptLogin H i request now)
      (fun _ s => s.sessions i = {}) (fun _ s => s.sessions i = {}) := by
  have hready : ∀ ks s, Held i ks [] (fun _ => True) s →
      Ready schema (Consistent H) (fun _ _ => True) i s :=
    fun ks s hs => ready_of_held (Frame.true ks) hs (fun _ ht _ => ht)
  have hupdated : ∀ ks id failures lockedUntil s,
      Held i ks [.setLogin id failures lockedUntil] (fun _ => True) s →
      Ready schema (Consistent H) (fun _ _ => True) i s :=
    fun ks id failures lockedUntil s hs =>
      ready_of_held (Frame.true ks) hs (fun _ ht _ => ht.users ⟨rfl, rfl⟩)
  refine transaction_triple (.bind (Q := fun found => Held i (found.toList.map (.user ·.id)) []
    (fun _ => True)) ?_ (fun found => ?_))
  · refine .pre (K := Held i [] [] (fun _ => True)) (execute_triple (Frame.true [])
      (fun _ => Frame.true _) ?_) (fun s _ hs => ⟨hs, trivial⟩)
    intro t found new _ _ _ hf
    obtain ⟨hrows, rfl⟩ := oneOrNone_eq_ok hf
    refine ⟨?_, rfl, (fun _ hw => by cases hw), trivial⟩
    rw [← hrows]
    rfl
  · cases found with
    | none => exact .ret (stable_held (Frame.true _)) (fun s _ hs => hready _ s hs)
    | some user =>
      dsimp only
      split
      · exact .ret (stable_held (Frame.true _)) (fun s _ hs => hready _ s hs)
      split
      · exact .bind (updateLogin_triple _ _ _)
          (fun _ => .ret (stable_held (Frame.true _)) (fun s _ hs => hupdated _ _ _ _ s hs))
      · exact .bind (updateLogin_triple _ _ _)
          (fun _ => .ret (stable_held (Frame.true _)) (fun s _ hs => hupdated _ _ _ _ s hs))

theorem login_triple (request : LoginRequest) (draw : Draw) :
    (locking ι H).Triple i (fun s => s.sessions i = {}) (login H i request draw)
      (fun _ s => s.sessions i = {}) (fun _ s => s.sessions i = {}) := by
  refine .bind (attemptLogin_triple request draw.now) (fun outcome => ?_)
  cases outcome with
  | failed actor payload =>
    exact .bind (audit_triple _ actor payload) (fun _ => .fail stable_idle (fun _ _ h => h))
  | accepted user => exact grant_triple _ user draw

/-- What is known of a token's row that was selected. -/
def Selected (H : Library) (presented : Token) (o : Option RefreshToken) (t : Tables) : Prop :=
  ∀ row ∈ o, t.token row.id = some row ∧ row.tokenHash = H.sha256 presented

theorem frame_selected (presented : Token) (o : Option RefreshToken) :
    Frame schema (o.toList.map (.token ·.id)) (Selected H presented o) := by
  intro t u hsame ht row hrow
  obtain rfl := Option.mem_def.mp hrow
  exact ⟨frame_token List.mem_cons_self _ t u hsame (ht row hrow).1, (ht row hrow).2⟩

theorem selectToken_triple (tokenId : String) (presented : Token) :
    (locking ι H).Triple i (fun s => s.sessions i = {}) (selectToken i tokenId (H.sha256 presented))
      (fun o => Held i (o.toList.map (.token ·.id)) [] (Selected H presented o))
      (fun _ _ => True) := by
  refine .pre (K := Held i [] [] (fun _ => True)) (execute_triple (Frame.true [])
    (frame_selected presented) ?_) (fun s _ hs => ⟨hs, trivial⟩)
  intro t o new ht _ _ hf
  obtain ⟨hrows, rfl⟩ := oneOrNone_eq_ok hf
  refine ⟨?_, rfl, (fun _ hw => by cases hw), fun row hrow => ?_⟩
  · rw [← hrows]
    rfl
  obtain rfl := Option.mem_def.mp hrow
  have hmem : row ∈ t.presented tokenId (H.sha256 presented) := by
    have hrows' : t.presented tokenId (H.sha256 presented) = [row] := hrows
    rw [hrows']
    exact List.mem_cons_self
  obtain ⟨hmem, hwanted⟩ := List.mem_filter.mp hmem
  exact ⟨ht.token hmem, (of_decide_eq_true hwanted).2⟩

theorem selectUser_triple (hR : Frame schema ls R) (id : UserId) :
    (locking ι H).Triple i (Held i ls ws R) (selectUser i id) (fun _ => Held i ls ws R)
      (fun _ _ => True) := by
  refine execute_triple hR (fun _ => hR) ?_
  intro t _ new _ ht _ hf
  cases hf
  exact ⟨List.append_nil ls, List.append_nil ws, (fun _ hw => by cases hw), ht⟩

theorem updateToken_triple (hR : Frame schema ls R) {row : RefreshToken}
    (hrow : ∀ t, R t → t.token row.id = some row) (now : Instant) (presented : Token) :
    (locking ι H).Triple i (Held i ls [] R) (updateToken i row.id now presented)
      (fun _ => Held i (ls ++ [.token row.id]) [.revoke row.id now .refresh presented] R)
      (fun _ _ => True) := by
  refine execute_triple hR (fun _ => hR.append _) ?_
  intro t _ new _ ht _ hf
  have hfound : (schema.applyAll [] t).token row.id = some row := hrow t ht
  rw [hfound] at hf
  cases hf
  exact ⟨rfl, rfl, by simp [schema, Write.keys], ht⟩

theorem rotate_triple (tokenId : String) (presented : Token) (now : Instant) :
    (locking ι H).Triple i (fun s => s.sessions i = {}) (rotate H i tokenId presented now)
      (fun _ s => s.sessions i = {}) (fun _ s => s.sessions i = {}) := by
  refine transaction_triple (.bind (selectToken_triple tokenId presented) (fun o => ?_))
  have hstable : (locking ι H).Stable i (Held i _ [] (Selected H presented o)) :=
    stable_held (frame_selected presented o)
  cases o with
  | none => exact unauthorized_triple hstable _
  | some row =>
    dsimp only
    split
    · exact unauthorized_triple hstable _
    next hcurrent =>
      have hnone : row.revokedAt = none := not_not.mp (fun h => hcurrent (.inl h))
      refine .bind (selectUser_triple (frame_selected presented (some row)) row.userId)
        (fun user => ?_)
      cases user with
      | none => exact unauthorized_triple hstable _
      | some user =>
        dsimp only
        split
        · exact unauthorized_triple hstable _
        · have hframe : Frame schema _ (Selected H presented (some row)) :=
            (frame_selected presented (some row)).append [.token row.id]
          refine .bind (updateToken_triple (frame_selected presented (some row))
            (fun t ht => (ht row rfl).1) now presented)
            (fun _ => .ret (stable_held hframe) (fun s _ hs => ready_of_held hframe hs ?_))
          exact fun t ht hselected =>
            ht.revoke (hselected row rfl).1 hnone (hselected row rfl).2 now .refresh

/-- What is known of the rows that a logout finds: there is one at most. -/
def Found (H : Library) (presented : Token) (rows : List RefreshToken) (t : Tables) : Prop :=
  rows.length ≤ 1 ∧ ∀ row ∈ rows, t.token row.id = some row ∧ row.revokedAt = none ∧
    row.tokenHash = H.sha256 presented

theorem frame_found (presented : Token) (rows : List RefreshToken) :
    Frame schema (rows.map (.token ·.id)) (Found H presented rows) := by
  rintro t u hsame ⟨hlength, hrows⟩
  refine ⟨hlength, fun row hrow => ⟨?_, (hrows row hrow).2⟩⟩
  exact frame_token (List.mem_map.mpr ⟨row, hrow, rfl⟩) _ t u hsame (hrows row hrow).1

theorem revokeToken_triple (tokenId : String) (presented : Token) (now : Instant) :
    (locking ι H).Triple i (fun s => s.sessions i = {})
      (revokeToken i tokenId (H.sha256 presented) now presented)
      (fun rows => Held i (rows.map (.token ·.id))
        (rows.map (fun row => .revoke row.id now .logout presented)) (Found H presented rows))
      (fun _ _ => True) := by
  refine .pre (K := Held i [] [] (fun _ => True)) (execute_triple (Frame.true [])
    (frame_found presented) ?_) (fun s _ hs => ⟨hs, trivial⟩)
  intro t rows new ht _ _ hf
  cases hf
  refine ⟨rfl, rfl, ?_, ?_, fun row hrow => ?_⟩
  · intro w hw k hk
    obtain ⟨row, hrow, rfl⟩ := List.mem_map.mp hw
    obtain rfl := List.mem_singleton.mp hk
    exact List.mem_map.mpr ⟨row, hrow, rfl⟩
  · refine le_trans (List.length_filter_le _ _) ?_
    change (t.presented tokenId (H.sha256 presented)).length ≤ 1
    obtain hnone | ⟨row, hone⟩ := ht.presented tokenId (H.sha256 presented)
    · simp [hnone]
    · simp [hone]
  · obtain ⟨hmem, hunrevoked⟩ := List.mem_filter.mp hrow
    obtain ⟨hmem, hwanted⟩ := List.mem_filter.mp hmem
    exact ⟨ht.token hmem, of_decide_eq_true hunrevoked, (of_decide_eq_true hwanted).2⟩

theorem Consistent.revokeAll {t : Tables} (ht : Consistent H t) {presented : Token}
    {rows : List RefreshToken} (hrows : Found H presented rows t) (now : Instant) :
    Consistent H (schema.applyAll (rows.map (fun row => .revoke row.id now .logout presented)) t) := by
  obtain ⟨hlength, hrows⟩ := hrows
  rcases rows with _ | ⟨row, _ | ⟨other, rest⟩⟩
  · exact ht
  · obtain ⟨hrow, hnone, hhash⟩ := hrows row List.mem_cons_self
    exact ht.revoke hrow hnone hhash now .logout
  · simp at hlength

theorem call_triple (i : ι) (k : Call) :
    (locking ι H).Triple i (fun s => s.sessions i = {}) (call H i k)
      (fun _ s => s.sessions i = {}) (fun _ s => s.sessions i = {}) := by
  cases k with
  | login request draw =>
    exact .bind (login_triple request draw) (fun _ => .ret stable_idle (fun _ _ h => h))
  | refresh presented draw =>
    refine .bind (Q := fun _ s => s.sessions i = {}) ?_ (fun _ => .ret stable_idle (fun _ _ h => h))
    unfold refresh
    split
    · exact .fail stable_idle (fun _ _ h => h)
    split
    · exact .fail stable_idle (fun _ _ h => h)
    · exact .bind (rotate_triple _ presented draw.now) (fun user => grant_triple _ user draw)
  | logout presented draw =>
    rw [call]
    unfold logout
    split
    · exact .ret stable_idle (fun _ _ h => h)
    · exact .fail stable_idle (fun _ _ h => h)
    · refine transaction_triple ?_
      split
      · exact .fail (stable_idle (H := H)) (fun _ _ _ => trivial)
      · refine .bind (revokeToken_triple _ presented draw.now) (fun _ => ?_)
        exact .ret (stable_held (frame_found presented _)) (fun s _ hs =>
          ready_of_held (frame_found presented _) hs (fun t ht hrows => ht.revokeAll hrows draw.now))

end

section

variable {ι : Type} [DecidableEq ι] {H : Library} {i : ι}

/-- The row has a right to be rotated: neither revoked nor, by this reading of a clock, expired; and
its user is active. -/
def Rotatable (t : Tables) (id : RowId) (now : Instant) : Prop :=
  ∃ row user, t.token id = some row ∧ row.revokedAt = none ∧ now < row.expiresAt ∧
    t.user row.userId = some user ∧ user.status = "ACTIVE"

/-- Before the update of a rotation its transaction has selected the token's row and, after that, the
user's. -/
structure Checked (H : Library) (i : ι) (presented : Token) (draw : Draw)
    (past : List (Statement Query × Store ι)) (id : RowId) (now : Instant) (tokenId : String)
    (row : RefreshToken) (user : User) (first second : Store ι) : Prop where
  claims : ∃ claims, H.decodeClaims draw.verifiedAt draw.decodedAt presented .refresh = .ok claims ∧
    claims.jti = some tokenId
  past : past = [(.exec (.selectToken tokenId (H.sha256 presented)), first),
    (.exec (.selectUser row.userId), second)]
  found : (schema.view i first).presented tokenId (H.sha256 presented) = [row]
  id : row.id = id
  revokedAt : row.revokedAt = none
  expiresAt : now < row.expiresAt
  selected : (schema.view i second).user row.userId = some user
  active : user.status = "ACTIVE"

/-- No row is rotated but by a `refresh` that has checked it. -/
def Refreshes (H : Library) (i : ι) (k : Call) (past : List (Statement Query × Store ι))
    (l : Statement Query) (_ : Store ι) : Prop :=
  ∀ id now, l = .exec (.updateToken id now) → ∃ presented draw tokenId row user first second,
    k = .refresh presented draw ∧
      Checked H i presented draw past id now tokenId row user first second

/-- The statement is not the update of a rotation. -/
def Query.Other (b : Query) : Prop := ∀ id now, b ≠ .updateToken id now

theorem refreshes_of_other {ι : Type} {i : ι} {k : Call} {p : Proc ι PUnit} {past : List (Statement Query × Store ι)}
    (h : p.Always (fun l _ _ => ∀ b, l = .exec b → b.Other) (fun _ => True)) :
    p.Traced (Refreshes H i k) (fun _ _ => True) past :=
  .of_always h (fun _ _ _ _ hl id now heq => absurd rfl (hl _ heq id now))

theorem audit_always (eventType : String) (actor : Option UserId) (payload : AuditPayload) :
    (audit i eventType actor payload).Always (fun l _ _ => ∀ b, l = .exec b → b.Other)
      (fun _ => True) :=
  transaction_always (execute_always (fun _ _ h => by cases h))

theorem grant_always (eventType : String) (user : User) (draw : Draw) :
    (grant H i eventType user draw).Always (fun l _ _ => ∀ b, l = .exec b → b.Other)
      (fun _ => True) := by
  unfold grant
  split
  · trivial
  · exact .then (transaction_always (execute_always (fun _ _ h => by cases h)))
      (fun _ => .then (audit_always _ _ _) (fun _ => trivial))

theorem login_always (request : LoginRequest) (draw : Draw) :
    (login H i request draw).Always (fun l _ _ => ∀ b, l = .exec b → b.Other) (fun _ => True) := by
  refine .then (transaction_always (.then (execute_always (fun _ _ h => by cases h))
    (fun found => ?_))) (fun outcome => ?_)
  · cases found with
    | none => trivial
    | some user =>
      dsimp only
      split
      · trivial
      split
      · exact .then (execute_always (fun _ _ h => by cases h)) (fun _ => trivial)
      · exact .then (execute_always (fun _ _ h => by cases h)) (fun _ => trivial)
  · cases outcome with
    | failed actor payload => exact .then (audit_always _ _ _) (fun _ => trivial)
    | accepted user => exact grant_always _ user draw

theorem logout_always (presented : Token) (draw : Draw) :
    (logout H i presented draw).Always (fun l _ _ => ∀ b, l = .exec b → b.Other) (fun _ => True) := by
  unfold logout
  split
  · trivial
  · trivial
  · refine transaction_always ?_
    split
    · trivial
    · exact .then (execute_always (fun _ _ h => by cases h)) (fun _ => trivial)

theorem rotate_traced {tokenId : String} {presented : Token} {draw : Draw} {claims : Claims}
    (hclaims : H.decodeClaims draw.verifiedAt draw.decodedAt presented .refresh = .ok claims)
    (hjti : claims.jti = some tokenId) :
    (rotate H i tokenId presented draw.now).Traced (Refreshes H i (.refresh presented draw))
      (fun _ _ => True) [] := by
  have hselect : ∀ past b (s : Store ι), b.Other →
      Refreshes H i (.refresh presented draw) past (.exec b) s :=
    fun past b s hb id now h => absurd (Statement.exec.inj h) (hb id now)
  refine transaction_traced (Q := fun _ _ => True) (fun _ _ _ _ h => by cases h)
    (fun _ _ _ _ h => by cases h) ?_
  refine .bind (Q := fun past found => ∃ first : Store ι,
    past = [(.exec (.selectToken tokenId (H.sha256 presented)), first)] ∧
      (schema.view i first).presented tokenId (H.sha256 presented) = found.toList)
    (execute_traced (fun s => hselect _ _ s (fun _ _ h => by cases h)) ?_) ?_
  · exact fun s found ws hf => ⟨s, rfl, (oneOrNone_eq_ok hf).1⟩
  rintro found _ ⟨first, rfl, hfound⟩
  cases found with
  | none => trivial
  | some row =>
    dsimp only
    split
    · trivial
    next hcurrent =>
      obtain ⟨hnone, hbefore⟩ := not_or.mp hcurrent
      refine .bind (Q := fun past user => ∃ second : Store ι,
        past = [(.exec (.selectToken tokenId (H.sha256 presented)), first),
          (.exec (.selectUser row.userId), second)] ∧ (schema.view i second).user row.userId = user)
        (execute_traced (fun s => hselect _ _ s (fun _ _ h => by cases h)) ?_) ?_
      · intro s user ws hf
        cases hf
        exact ⟨s, rfl, rfl⟩
      rintro user _ ⟨second, rfl, huser⟩
      cases user with
      | none => trivial
      | some user =>
        dsimp only
        split
        · trivial
        next hactive =>
          refine .bind (Q := fun _ _ => True) (execute_traced (fun s => ?_) (fun _ _ _ _ => trivial))
            (fun _ _ _ => trivial)
          intro id now h
          cases h
          exact ⟨presented, draw, tokenId, row, user, first, second, rfl,
            ⟨claims, hclaims, hjti⟩, rfl, hfound, rfl, not_not.mp hnone, not_le.mp hbefore, huser,
            not_not.mp hactive⟩

theorem call_traced (k : Call) : (call H i k).Traced (Refreshes H i k) (fun _ _ => True) [] := by
  cases k with
  | login request draw =>
    exact refreshes_of_other (.then (login_always request draw) (fun _ => trivial))
  | logout presented draw => exact refreshes_of_other (logout_always presented draw)
  | refresh presented draw =>
    refine .bind (Q := fun _ _ => True) ?_ (fun _ _ _ => trivial)
    unfold refresh
    split
    · trivial
    split
    · trivial
    next hclaims _ tokenId hjti =>
      exact .bind (rotate_traced hclaims hjti) (fun user past _ =>
        .of_always (grant_always _ user draw) (fun _ _ _ _ hl id now h => absurd rfl (hl _ h id now)))

/-- The first action of a rotation. -/
theorem call_refresh {tokenId : String} {presented : Token} {draw : Draw} {claims : Claims}
    (hclaims : H.decodeClaims draw.verifiedAt draw.decodedAt presented .refresh = .ok claims)
    (hjti : claims.jti = some tokenId) :
    ∃ u k, call H i (.refresh presented draw) =
        .act (.exec (.selectToken tokenId (H.sha256 presented))) u k ∧
      ∀ s row, (schema.view i s).presented tokenId (H.sha256 presented) = [row] →
        u s = schema.hold i (.selectToken tokenId (H.sha256 presented)) [] s := by
  simp only [call, refresh, hclaims, hjti]
  refine ⟨_, _, rfl, fun s row h => ?_⟩
  simp [h, oneOrNone, Except.map]

variable {t : Tables} {c : Config (Statement Query) (Store ι) Error ι}

theorem holds (ht : Consistent H t)
    (hr : (schema.system (call H)).Reach
      (schema.conduct (call H) (fun _ _ _ => True) Users).Allows (.quiet { tables := t }) c) :
    (locking ι H).Holds c :=
  (holds_quiet ht).reach (governs call_triple (fun _ _ ht => ht.users)) hr

/-- Where a rotation selects its user it holds the token's row, and has written nothing. -/
theorem row_held (ht : Consistent H t) {tokenId : String} {presented : Token} {draw : Draw}
    {claims : Claims} {row : RefreshToken} {d : Config (Statement Query) (Store ι) Error ι}
    (hclaims : H.decodeClaims draw.verifiedAt draw.decodedAt presented .refresh = .ok claims)
    (hjti : claims.jti = some tokenId)
    (hpast : (schema.system (call H)).Progress
      (schema.conduct (call H) (fun _ _ _ => True) Users).Allows (.quiet { tables := t }) i
      (.refresh presented draw) [(.exec (.selectToken tokenId (H.sha256 presented)), d)] c)
    (hfound : (schema.view i d.shared).presented tokenId (H.sha256 presented) = [row]) :
    Held i [.token row.id] [] (fun t => t.token row.id = some row) c.shared := by
  have hG : (locking ι H).Governs := governs call_triple (fun _ _ ht => ht.users)
  have hquiet : (locking ι H).Holds (.quiet { tables := t }) := holds_quiet ht
  have hstart := (System.Progress.earlier [] hpast).1
  -- the transaction begins where its session has done nothing yet
  have hidle : d.shared.sessions i = {} := hstart.idle hquiet hG
  have hview : schema.view i d.shared = d.shared.tables := view_eq_tables (by rw [hidle])
  obtain ⟨u, k, hpool, hsessions, hsame⟩ := System.Progress.since [] hpast hquiet hG
  obtain ⟨u', k', hcall, hhold⟩ := call_refresh (i := i) hclaims hjti
  obtain ⟨-, rfl, -⟩ := Process.act.inj ((hstart.first hpool).trans hcall)
  rw [hhold d.shared row hfound] at hsessions hsame
  have hlocks : c.shared.sessions i = ⟨[.token row.id], []⟩ := by
    have hneeds : schema.needs (.selectToken tokenId (H.sha256 presented))
        (schema.view i d.shared) = [.token row.id] := by
      change List.map _ _ = _
      rw [hfound]
      rfl
    rw [hsessions, hold_session, hidle, hneeds]
    rfl
  have hrow : d.shared.tables.token row.id = some row := by
    rw [hview] at hfound
    have hmem : row ∈ d.shared.tables.presented tokenId (H.sha256 presented) := by
      rw [hfound]
      exact List.mem_cons_self
    exact (holds ht hstart.reach).inv.tables.token (List.mem_of_mem_filter hmem)
  refine ⟨hlocks, (hsame (.token row.id) ?_).symm.trans hrow⟩
  rw [← hsessions, hlocks]
  exact List.mem_cons_self

/-- A rotation begins, with its user found active, where the token is neither revoked nor expired. -/
theorem rotatable_of_update (ht : Consistent H t)
    (hr : (schema.system (call H)).Reach
      (schema.conduct (call H) (fun _ _ _ => True) Users).Allows (.quiet { tables := t }) c)
    {id : RowId} {now : Instant} (hl : c.label i = some (.exec (.updateToken id now))) :
    ∃ d uid, (schema.system (call H)).Earlier
        (schema.conduct (call H) (fun _ _ _ => True) Users).Allows i (.exec (.selectUser uid)) d c ∧
      Rotatable d.shared.tables id now := by
  obtain ⟨k, past, hpast, hrefreshes⟩ := hr.traced hl (fun k => call_traced (H := H) (i := i) k)
  obtain ⟨presented, draw, tokenId, row, user, first, second, rfl, hchecked⟩ :=
    hrefreshes id now rfl
  obtain ⟨claims, hclaims, hjti⟩ := hchecked.claims
  obtain ⟨d₁, rest, rfl, rfl, hrest⟩ := System.seen_eq_cons hchecked.past
  obtain ⟨d₂, rest, rfl, rfl, hnil⟩ := System.seen_eq_cons hrest
  obtain rfl := List.map_eq_nil_iff.mp hnil
  obtain ⟨hpast', hearlier⟩ := System.Progress.earlier
    [(.exec (.selectToken tokenId (H.sha256 presented)), d₁)] hpast
  obtain ⟨hsession, hrow⟩ := row_held ht hclaims hjti hpast' hchecked.found
  have huser := hchecked.selected
  rw [view_eq_tables (by rw [hsession])] at huser
  exact ⟨d₂, row.userId, hearlier, row, user, hchecked.id ▸ hrow, hchecked.revokedAt,
    hchecked.expiresAt, huser, hchecked.active⟩

/-- No token is revoked twice. -/
theorem Consistent.presented_nodup (h : Consistent H t) :
    (t.revocations.map (·.presented)).Nodup := by
  refine List.Nodup.map_on (fun e he e' he' heq => ?_) h.once.of_map
  obtain ⟨row, hrow, hid, hhash, -⟩ := h.revoked e he
  obtain ⟨row', hrow', hid', hhash', -⟩ := h.revoked e' he'
  have hsame : row = row' :=
    List.inj_on_of_nodup_map h.hashes hrow hrow' (hhash.trans (heq ▸ hhash'.symm))
  exact List.inj_on_of_nodup_map h.once he he' (hid.symm.trans (hsame ▸ hid'))

/-- The keys are unique, as the tables' constraints have it; the log begins here. -/
structure Tables.Unlogged (t : Tables) : Prop where
  ids : (t.tokens.map (·.id)).Nodup
  tokenIds : (t.tokens.map (·.tokenId)).Nodup
  hashes : (t.tokens.map (·.tokenHash)).Nodup
  revocations : t.revocations = []

theorem Tables.Unlogged.consistent (h : t.Unlogged) : Consistent H t := by
  refine ⟨h.ids, h.tokenIds, h.hashes, ?_, ?_⟩
  · rw [h.revocations]
    exact List.nodup_nil
  · rw [h.revocations]
    exact fun _ he => by cases he

end

section

/-- Tokens that say what they are called. -/
def plain : Library where
  verify _ _ := true
  encode claims := claims.jti.getD ""
  decode _ token := some
    { sub := some "0"
      role := some "OPERATOR"
      tokenType := some "refresh"
      iat := 0
      exp := 1
      jti := some token }
  sha256 token := token
  userText _ := "0"

def issued : Tables where
  users := [{ id := 0, email := "operator@example.com", passwordHash := "", role := "OPERATOR" }]
  tokens := [{ id := 0, userId := 0, tokenId := "first", tokenHash := "first", expiresAt := 1 }]

theorem issued_unlogged : issued.Unlogged := ⟨by decide, by decide, by decide, rfl⟩

/-- The token is presented twice. -/
def twice : List (Event Unit Call (List Write)) :=
  Event.calls () (.refresh "first" { tokenId := "second", rowId := 1 }) 8 ++
    Event.calls () (.refresh "first" { tokenId := "third", rowId := 2 }) 2

theorem allows_alone {H : Library} {c : Config (Statement Query) (Store Unit) Error Unit}
    {e : Event Unit Call (List Write)} (he : e ∈ twice) :
    (schema.conduct (call H) (fun _ _ _ => True) Users).Allows c e := by
  rcases List.mem_append.mp he with he | he
  all_goals
    obtain rfl | rfl := Event.of_mem_calls he
    · trivial
    · refine fun l _ => ⟨?_, fun _ _ => trivial⟩
      cases l with
      | exec b => exact fun _ _ j hj => absurd rfl hj
      | _ => trivial

end

end NoSQLOptimizer.Auth
