import NoSQLOptimizer.Files.Spec

namespace NoSQLOptimizer.Files

section

variable {faults : List (Option ℕ)} {k n : ℕ}

/-- None of the first changes fails. -/
def Unfailed (faults : List (Option ℕ)) (changes : ℕ) : Prop := ∀ f ∈ faults.take changes, f = none

theorem Unfailed.mono (h : Unfailed faults n) (hle : k ≤ n) : Unfailed faults k :=
  fun f hf => h f ((List.take_subset_take_left faults hle) hf)

theorem unfailed_succ_iff :
    Unfailed faults (k + 1) ↔ Unfailed faults k ∧ (faults.drop k).head?.join = none := by
  unfold Unfailed
  rw [List.take_add_one, List.head?_drop, List.forall_mem_append]
  cases faults[k]? with
  | none => simp
  | some f => simp

end

namespace Change

variable {D N : Type} [DecidableEq D] [DecidableEq N] {disk disk' : Disk D N} {folder : D}
  {c : Change D N}

/-- No change takes a folder away. -/
theorem isSome_apply (h : c.apply disk = some disk') (hsome : (disk folder).isSome) :
    (disk' folder).isSome := by
  have hupdate (folder' : D) (files : AList (fun _ : N => Text)) :
      (Function.update disk folder' (some files) folder).isSome := by
    by_cases heq : folder = folder'
    · rw [heq, Function.update_self]
      rfl
    · rwa [Function.update_of_ne heq]
  cases c with
  | mkdir folder' existOk =>
    simp only [apply] at h
    split at h
    · cases h
      exact hupdate folder' ∅
    · rw [Option.ite_none_right_eq_some, Option.some.injEq] at h
      rwa [← h.2]
  | create folder' name =>
    obtain ⟨files, -, rfl⟩ := Option.map_eq_some_iff.mp h
    exact hupdate folder' _
  | append folder' name text =>
    obtain ⟨files, -, h⟩ := Option.bind_eq_some_iff.mp h
    obtain ⟨before, -, h⟩ := Option.bind_eq_some_iff.mp h
    cases h
    exact hupdate folder' _
  | replace folder' source target =>
    obtain ⟨files, -, h⟩ := Option.bind_eq_some_iff.mp h
    obtain ⟨text, -, h⟩ := Option.bind_eq_some_iff.mp h
    cases h
    exact hupdate folder' _

theorem isSome_cut (characters : ℕ) (hsome : (disk folder).isSome) :
    (c.cut disk characters folder).isSome := by
  cases c with
  | append folder' name text =>
    simp only [cut]
    cases h : (Change.append folder' name (text.take characters)).apply disk with
    | none => exact hsome
    | some disk' => exact isSome_apply h hsome
  | _ => exact hsome

end Change

namespace Filing

variable {D N ε : Type} [DecidableEq D] [DecidableEq N] {faults : List (Option ℕ)} {k : ℕ}

/-- So many changes were made, and none of them failed. -/
def Made (faults : List (Option ℕ)) (k : ℕ) (P : Disk D N → Prop) (m : Machine D N) : Prop :=
  m.faults = faults.drop k ∧ Unfailed faults k ∧ P m.disk

/-- Where a change raises, it is because this one fails. -/
theorem Spec.change_made {c : Change D N} {P Q R : Disk D N → Prop}
    (happly : ∀ disk, P disk → ∃ disk', c.apply disk = some disk' ∧ Q disk')
    (hcut : ∀ disk characters, P disk → R (c.cut disk characters)) :
    Spec (ε := ε) (Made faults k P) (Filing.change c) (fun _ => Made faults (k + 1) Q)
      (fun _ m => ¬ Unfailed faults (k + 1) ∧ R m.disk) := by
  rintro m ⟨hfaults, hunfailed, hP⟩
  have htail : m.faults.tail = faults.drop (k + 1) := by rw [hfaults, List.tail_drop]
  unfold Filing.change
  cases hfault : m.faults.head?.join with
  | some characters =>
    refine ⟨fun h => ?_, hcut m.disk characters hP⟩
    rw [unfailed_succ_iff, ← hfaults, hfault] at h
    cases h.2
  | none =>
    obtain ⟨disk', hdisk', hQ⟩ := happly m.disk hP
    rw [hdisk']
    refine ⟨htail, ?_, hQ⟩
    rw [unfailed_succ_iff, ← hfaults]
    exact ⟨hunfailed, hfault⟩

end Filing

end NoSQLOptimizer.Files
