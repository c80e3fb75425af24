import NoSQLOptimizer.Files.Machine

namespace NoSQLOptimizer.Files

namespace Change

def folder {D N : Type} : Change D N → D
  | .mkdir folder _ => folder
  | .create folder _ => folder
  | .append folder _ _ => folder
  | .replace folder _ _ => folder

variable {D N : Type} {folder : D} {name : N} {c : Change D N}

/-- The change is to this file. -/
def Touches (folder : D) (name : N) : Change D N → Prop
  | .mkdir _ _ => False
  | .create folder' name' => folder' = folder ∧ name' = name
  | .append folder' name' _ => folder' = folder ∧ name' = name
  | .replace folder' source target => folder' = folder ∧ (source = name ∨ target = name)

theorem not_touches_of_folder (h : c.folder ≠ folder) (name : N) : ¬ c.Touches folder name := by
  cases c with
  | mkdir _ _ => exact id
  | create _ _ => exact fun htouch => h htouch.1
  | append _ _ _ => exact fun htouch => h htouch.1
  | replace _ _ _ => exact fun htouch => h htouch.1

variable [DecidableEq D] [DecidableEq N] {disk disk' : Disk D N}

theorem file_update (files : AList (fun _ : N => Text)) (folder' : D) :
    Disk.file (Function.update disk folder' (some files)) folder name =
      if folder = folder' then files.lookup name else disk.file folder name := by
  by_cases h : folder = folder'
  · subst h
    simp [Disk.file]
  · simp [Disk.file, h]

theorem file_apply_create (h : (Change.create folder name).apply disk = some disk') :
    disk'.file folder name = some [] := by
  obtain ⟨files, -, rfl⟩ := Option.map_eq_some_iff.mp h
  rw [file_update, if_pos rfl, AList.lookup_insert]

theorem file_apply_append {text : Text} (h : (Change.append folder name text).apply disk = some disk') :
    ∃ before, disk.file folder name = some before ∧
      disk'.file folder name = some (before ++ text) := by
  obtain ⟨files, hfiles, h⟩ := Option.bind_eq_some_iff.mp h
  obtain ⟨before, hbefore, h⟩ := Option.bind_eq_some_iff.mp h
  cases h
  refine ⟨before, ?_, ?_⟩
  · rw [Disk.file, hfiles]
    exact hbefore
  · rw [file_update, if_pos rfl, AList.lookup_insert]

/-- The frame of a change. -/
theorem file_apply (htouch : ¬ c.Touches folder name)
    (h : c.apply disk = some disk') : disk'.file folder name = disk.file folder name := by
  cases c with
  | mkdir folder' existOk =>
    cases hfolder : disk folder' with
    | none =>
      simp only [apply, hfolder, Option.some.injEq] at h
      rw [← h, file_update]
      split
      · next heq => rw [heq, Disk.file, hfolder, AList.lookup_empty, Option.bind_none]
      · rfl
    | some files =>
      simp only [apply, hfolder, Option.ite_none_right_eq_some, Option.some.injEq] at h
      rw [h.2]
  | create folder' name' =>
    obtain ⟨files, hfiles, rfl⟩ := Option.map_eq_some_iff.mp h
    rw [file_update]
    split
    · next heq =>
      subst heq
      rw [AList.lookup_insert_ne (fun heq => htouch ⟨rfl, heq.symm⟩), Disk.file, hfiles]
      rfl
    · rfl
  | append folder' name' text =>
    obtain ⟨files, hfiles, h⟩ := Option.bind_eq_some_iff.mp h
    obtain ⟨before, -, h⟩ := Option.bind_eq_some_iff.mp h
    cases h
    rw [file_update]
    split
    · next heq =>
      subst heq
      rw [AList.lookup_insert_ne (fun heq => htouch ⟨rfl, heq.symm⟩), Disk.file, hfiles]
      rfl
    · rfl
  | replace folder' source target =>
    obtain ⟨files, hfiles, h⟩ := Option.bind_eq_some_iff.mp h
    obtain ⟨text, -, h⟩ := Option.bind_eq_some_iff.mp h
    cases h
    rw [file_update]
    split
    · next heq =>
      subst heq
      rw [AList.lookup_insert_ne (fun heq => htouch ⟨rfl, .inr heq.symm⟩),
        AList.lookup_erase_ne (fun heq => htouch ⟨rfl, .inl heq.symm⟩), Disk.file, hfiles]
      rfl
    · rfl

theorem file_cut (htouch : ¬ c.Touches folder name) (characters : ℕ) :
    (c.cut disk characters).file folder name = disk.file folder name := by
  cases c with
  | append folder' name' text =>
    simp only [cut]
    cases h : (Change.append folder' name' (text.take characters)).apply disk with
    | none => rfl
    | some disk' =>
      have htouch' : ¬ (Change.append folder' name' (text.take characters)).Touches folder name :=
        htouch
      exact file_apply htouch' h
  | _ => rfl

/-- A file that was cut short is a beginning of the one that was not. -/
theorem file_cut_append {text before : Text} (characters : ℕ)
    (h : disk.file folder name = some before) :
    ((Change.append folder name text).cut disk characters).file folder name =
      some (before ++ text.take characters) := by
  simp only [cut]
  cases happly : (Change.append folder name (text.take characters)).apply disk with
  | none =>
    obtain ⟨files, hfiles, hbefore⟩ := Option.bind_eq_some_iff.mp h
    simp [apply, hfiles, hbefore] at happly
  | some disk' =>
    obtain ⟨before', hbefore', hafter⟩ := file_apply_append happly
    rw [h, Option.some.injEq] at hbefore'
    rw [hbefore']
    exact hafter

/-! Where the changes of a program go through. -/

theorem apply_mkdir (disk : Disk D N) (folder : D) :
    ∃ disk', (Change.mkdir folder true).apply disk = some disk' ∧ (disk' folder).isSome := by
  cases h : disk folder with
  | none => exact ⟨_, by rw [apply, h], by rw [Function.update_self, Option.isSome_some]⟩
  | some files => exact ⟨disk, by rw [apply, h]; rfl, by rw [h, Option.isSome_some]⟩

theorem apply_create (h : (disk folder).isSome) (name : N) :
    ∃ disk', (Change.create folder name).apply disk = some disk' := by
  obtain ⟨files, hfiles⟩ := Option.isSome_iff_exists.mp h
  exact ⟨_, by rw [apply, hfiles, Option.map_some]⟩

theorem apply_append {before : Text} (h : disk.file folder name = some before) (text : Text) :
    ∃ disk', (Change.append folder name text).apply disk = some disk' := by
  obtain ⟨files, hfiles, hbefore⟩ := Option.bind_eq_some_iff.mp h
  exact ⟨_, by simp only [apply, hfiles, hbefore, Option.bind_eq_bind, Option.bind_some]; rfl⟩

theorem apply_replace {source : N} {text : Text} (h : disk.file folder source = some text)
    (target : N) : ∃ disk', (Change.replace folder source target).apply disk = some disk' := by
  obtain ⟨files, hfiles, htext⟩ := Option.bind_eq_some_iff.mp h
  exact ⟨_, by simp only [apply, hfiles, htext, Option.bind_eq_bind, Option.bind_some]; rfl⟩

/-! The files of a folder, as a whole. -/

theorem file_eq (htouch : ∀ name, ¬ c.Touches folder name) (h : c.apply disk = some disk') :
    disk'.file folder = disk.file folder :=
  funext (fun name => file_apply (htouch name) h)

theorem cut_file_eq (htouch : ∀ name, ¬ c.Touches folder name) (characters : ℕ) :
    (c.cut disk characters).file folder = disk.file folder :=
  funext (fun name => file_cut (htouch name) characters)

theorem file_eq_create (h : (Change.create folder name).apply disk = some disk') :
    disk'.file folder = Function.update (disk.file folder) name (some []) := by
  rw [Function.eq_update_iff]
  refine ⟨file_apply_create h, fun name' hne => file_apply ?_ h⟩
  rintro ⟨-, rfl⟩
  exact hne rfl

theorem file_eq_append {text before : Text} (h : (Change.append folder name text).apply disk = some disk')
    (hbefore : disk.file folder name = some before) :
    disk'.file folder = Function.update (disk.file folder) name (some (before ++ text)) := by
  rw [Function.eq_update_iff]
  refine ⟨?_, fun name' hne => file_apply ?_ h⟩
  · obtain ⟨before', hbefore', hafter⟩ := file_apply_append h
    rw [hbefore, Option.some.injEq] at hbefore'
    rw [hafter, hbefore']
  · rintro ⟨-, rfl⟩
    exact hne rfl

theorem cut_file_eq_append {text before : Text} (characters : ℕ)
    (hbefore : disk.file folder name = some before) :
    ((Change.append folder name text).cut disk characters).file folder =
      Function.update (disk.file folder) name (some (before ++ text.take characters)) := by
  rw [Function.eq_update_iff]
  refine ⟨file_cut_append characters hbefore, fun name' hne => file_cut ?_ characters⟩
  rintro ⟨-, rfl⟩
  exact hne rfl

end Change

namespace Filing

variable {D N ε α β : Type}

theorem lift_apply (g : Except ε α) (m : Machine D N) :
    (lift g : Filing D N ε α) m = (g.mapError .error, m) := by
  cases g <;> rfl

theorem bind_of_ok {x : Filing D N ε α} {f : α → Filing D N ε β} {m m' : Machine D N}
    {a : α} (h : x m = (.ok a, m')) : (x >>= f) m = f a m' := by
  rw [bind_apply, h]

theorem bind_of_error {x : Filing D N ε α} {f : α → Filing D N ε β}
    {m m' : Machine D N} {e : Raised ε} (h : x m = (.error e, m')) :
    (x >>= f) m = (.error e, m') := by
  rw [bind_apply, h]

/-- How a program ends. -/
def Ends (Q : α → Machine D N → Prop) (E : Raised ε → Machine D N → Prop) :
    Except (Raised ε) α → Machine D N → Prop
  | .ok a, m => Q a m
  | .error e, m => E e m

theorem Ends.mono {Q Q' : α → Machine D N → Prop} {E E' : Raised ε → Machine D N → Prop}
    {r : Except (Raised ε) α} {m : Machine D N} (h : Ends Q E r m) (hQ : ∀ a, Q a m → Q' a m)
    (hE : ∀ e, E e m → E' e m) : Ends Q' E' r m := by
  cases r with
  | ok a => exact hQ a h
  | error e => exact hE e h

theorem Ends.elim {Q : α → Machine D N → Prop} {E : Raised ε → Machine D N → Prop}
    {r : Except (Raised ε) α} {m : Machine D N} {P : Prop} (h : Ends Q E r m) (hQ : ∀ a, Q a m → P)
    (hE : ∀ e, E e m → P) : P := by
  cases r with
  | ok a => exact hQ a h
  | error e => exact hE e h

/-- Started where `P` holds, the program ends as `Q` says, or raises as `E` says. -/
def Spec (P : Machine D N → Prop) (x : Filing D N ε α) (Q : α → Machine D N → Prop)
    (E : Raised ε → Machine D N → Prop) : Prop :=
  ∀ m, P m → Ends Q E (x m).1 (x m).2

section

variable {P P' : Machine D N → Prop} {Q Q' : α → Machine D N → Prop}
  {E E' : Raised ε → Machine D N → Prop} {x : Filing D N ε α}

theorem Spec.mono (h : Spec P x Q E) (hP : ∀ m, P' m → P m) (hQ : ∀ a m, Q a m → Q' a m)
    (hE : ∀ e m, E e m → E' e m) : Spec P' x Q' E' :=
  fun m hm => (h m (hP m hm)).mono (fun a => hQ a _) (fun e => hE e _)

theorem Spec.pure {a : α} (h : ∀ m, P m → Q a m) : Spec P (pure a : Filing D N ε α) Q E := h

theorem Spec.bind {R : α → Machine D N → Prop} {S : β → Machine D N → Prop}
    {f : α → Filing D N ε β} (hx : Spec P x R E) (hf : ∀ a, Spec (R a) (f a) S E) :
    Spec P (x >>= f) S E := by
  intro m hm
  have hends := hx m hm
  rw [bind_apply]
  revert hends
  cases x m with
  | mk r m' =>
    cases r with
    | ok a => exact hf a m'
    | error e => exact id

theorem Spec.bind_lift {S : β → Machine D N → Prop} {g : Except ε α} {f : α → Filing D N ε β}
    (herror : ∀ e m, g = .error e → P m → E (.error e) m)
    (hok : ∀ a, g = .ok a → Spec P (f a) S E) : Spec P (Filing.lift g >>= f) S E := by
  cases g with
  | ok a => exact hok a rfl
  | error e => exact fun m => herror e m rfl

/-- A loop keeps what each of its steps keeps. -/
theorem Spec.mapM (f : α → Filing D N ε β) (xs : List α)
    (I : List α → List β → Machine D N → Prop)
    (hstep : ∀ done x rest as, xs = done ++ x :: rest →
      Spec (I done as) (f x) (fun a => I (done ++ [x]) (as ++ [a])) E) :
    Spec (I [] []) (xs.mapM f) (I xs) E := by
  suffices hloop : ∀ rest done as, xs = done ++ rest →
      Spec (I done as) (rest.mapM f) (fun as' => I xs (as ++ as')) E from
    hloop xs [] [] rfl
  intro rest
  induction rest with
  | nil =>
    intro done as hxs
    rw [List.append_nil] at hxs
    subst hxs
    rw [List.mapM_nil]
    refine Spec.pure (fun m hm => ?_)
    rwa [List.append_nil]
  | cons x rest ih =>
    intro done as hxs
    rw [List.mapM_cons]
    apply Spec.bind (hstep done x rest as hxs)
    intro a
    apply Spec.bind (ih (done ++ [x]) (as ++ [a]) (by rw [hxs, List.append_assoc]; rfl))
    intro as'
    refine Spec.pure (fun m hm => ?_)
    rwa [List.append_assoc] at hm

theorem Spec.forM (f : α → Filing D N ε Unit) (xs : List α) (I : List α → Machine D N → Prop)
    (hstep : ∀ done x rest, xs = done ++ x :: rest →
      Spec (I done) (f x) (fun _ => I (done ++ [x])) E) :
    Spec (I []) (xs.forM f) (fun _ => I xs) E := by
  suffices hloop : ∀ rest done, xs = done ++ rest →
      Spec (I done) (rest.forM f) (fun _ => I xs) E from hloop xs [] rfl
  intro rest
  induction rest with
  | nil =>
    intro done hxs
    rw [List.append_nil] at hxs
    subst hxs
    exact Spec.pure (fun m => id)
  | cons x rest ih =>
    intro done hxs
    exact Spec.bind (hstep done x rest hxs)
      (fun _ => ih (done ++ [x]) (by rw [hxs, List.append_assoc]; rfl))

theorem Spec.mapM_of_step {f : α → Filing D N ε β} {xs : List α}
    (hstep : ∀ x ∈ xs, Spec P (f x) (fun _ => P) E) : Spec P (xs.mapM f) (fun _ => P) E := by
  refine Spec.mapM f xs (fun _ _ => P) (fun done x rest as hxs => hstep x ?_)
  rw [hxs]
  exact List.mem_append_right done List.mem_cons_self

end

section

variable [DecidableEq N] {P : Machine D N → Prop} {E : Raised ε → Machine D N → Prop} {folder : D}
  {name : N}

theorem size_apply (m : Machine D N) : (size folder name : Filing D N ε (Option ℕ)) m =
    (.ok ((m.disk.file folder name).map List.length),
      { m with examined := (folder, name) :: m.examined }) := rfl

theorem readText_of_file {m : Machine D N} {text : Text} (h : m.disk.file folder name = some text) :
    (readText folder name : Filing D N ε Text) m = (.ok text, m) := by
  rw [readText, h]

variable [DecidableEq D] {Q : Unit → Machine D N → Prop} {c : Change D N}

/-- What a change makes of the disk, as a whole or cut short. -/
theorem Spec.change (hcut : ∀ m characters faults, P m →
      E .osError { m with disk := c.cut m.disk characters, faults := faults })
    (hfail : ∀ m faults, P m → E .osError { m with faults := faults })
    (happly : ∀ m disk faults, P m → c.apply m.disk = some disk →
      Q () { m with disk := disk, faults := faults }) :
    Spec P (change c) Q E := by
  intro m hm
  unfold Filing.change
  cases m.faults.head?.join with
  | some characters => exact hcut m characters _ hm
  | none =>
    cases h : c.apply m.disk with
    | none => exact hfail m _ hm
    | some disk => exact happly m disk _ hm h

theorem change_of_apply {m : Machine D N} {disk : Disk D N} (hm : m.faults = [])
    (h : c.apply m.disk = some disk) :
    (Filing.change c : Filing D N ε Unit) m = (.ok (), { m with disk := disk }) := by
  cases m with
  | mk disk' faults examined =>
    subst hm
    simp only [Filing.change, List.head?_nil, Option.join_none, h, List.tail_nil]

/-- A change that nothing cuts short. -/
theorem Spec.change_of_apply
    (h : ∀ m, P m → m.faults = [] ∧
      ∃ disk, c.apply m.disk = some disk ∧ Q () { m with disk := disk }) :
    Spec P (Filing.change c) Q E := by
  intro m hm
  obtain ⟨hfaults, disk, hdisk, hQ⟩ := h m hm
  rw [Filing.change_of_apply hfaults hdisk]
  exact hQ

end

end Filing

end NoSQLOptimizer.Files
