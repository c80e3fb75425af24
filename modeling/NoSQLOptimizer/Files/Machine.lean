import Mathlib.Data.List.AList
import Mathlib.Logic.Function.Basic

namespace NoSQLOptimizer.Files

abbrev Text := List Char

/-- Folders, each with the texts of its files. -/
abbrev Disk (D N : Type) := D → Option (AList (fun _ : N => Text))

namespace Disk

variable {D N : Type} [DecidableEq N]

def file (disk : Disk D N) (folder : D) (name : N) : Option Text :=
  (disk folder).bind (·.lookup name)

end Disk

/-- A change that a program makes to a disk. -/
inductive Change (D N : Type)
  | mkdir (folder : D) (existOk : Bool)
  /-- `open(.., "w")` -/
  | create (folder : D) (name : N)
  | append (folder : D) (name : N) (text : Text)
  | replace (folder : D) (source target : N)

namespace Change

variable {D N : Type} [DecidableEq D] [DecidableEq N]

/-- The disk after the change; `none` where the change raises. -/
def apply (disk : Disk D N) : Change D N → Option (Disk D N)
  | .mkdir folder existOk =>
    match disk folder with
    | none => some (Function.update disk folder (some ∅))
    | some _ => if existOk then some disk else none
  | .create folder name =>
    (disk folder).map (fun files => Function.update disk folder (some (files.insert name [])))
  | .append folder name text => do
    let files ← disk folder
    let before ← files.lookup name
    return Function.update disk folder (some (files.insert name (before ++ text)))
  | .replace folder source target => do
    let files ← disk folder
    let text ← files.lookup source
    return Function.update disk folder (some ((files.erase source).insert target text))

/-- What is there where the change was cut short after so many characters. -/
def cut (disk : Disk D N) (characters : ℕ) : Change D N → Disk D N
  | .append folder name text =>
    ((Change.append folder name (text.take characters)).apply disk).getD disk
  | _ => disk

end Change

inductive Raised (ε : Type)
  | osError
  | error (e : ε)
  deriving DecidableEq

/-- A disk, and for each change that will be made to it whether it is cut short, and after how many
characters.  Behind the end of the list no change is.  `examined` are the files that were asked for
their size. -/
structure Machine (D N : Type) where
  disk : Disk D N
  faults : List (Option ℕ) := []
  examined : List (D × N) := []

/-- A program over files. -/
def Filing (D N ε α : Type) := Machine D N → Except (Raised ε) α × Machine D N

namespace Filing

variable {D N ε α β : Type}

instance : Monad (Filing D N ε) where
  pure a := fun m => (.ok a, m)
  bind x f := fun m =>
    match x m with
    | (.ok a, m') => f a m'
    | (.error e, m') => (.error e, m')

theorem pure_apply (a : α) (m : Machine D N) : (pure a : Filing D N ε α) m = (.ok a, m) := rfl

theorem bind_apply (x : Filing D N ε α) (f : α → Filing D N ε β) (m : Machine D N) :
    (x >>= f) m =
      match x m with
      | (.ok a, m') => f a m'
      | (.error e, m') => (.error e, m') := rfl

theorem bind_pure (x : Filing D N ε α) : (x >>= pure) = x := by
  funext m
  rw [bind_apply]
  cases x m with
  | mk r m' => cases r <;> rfl

theorem bind_assoc {γ : Type} (x : Filing D N ε α) (f : α → Filing D N ε β)
    (g : β → Filing D N ε γ) : (x >>= f) >>= g = x >>= fun a => f a >>= g := by
  funext m
  simp only [bind_apply]
  cases x m with
  | mk r m' => cases r <;> rfl

instance : LawfulMonad (Filing D N ε) :=
  LawfulMonad.mk' _ (fun x => bind_pure x) (fun _ _ => rfl) (fun x f g => bind_assoc x f g)

def raise (e : ε) : Filing D N ε α := fun m => (.error (.error e), m)

/-- What does not touch any file. -/
def lift : Except ε α → Filing D N ε α
  | .ok a => pure a
  | .error e => raise e

variable [DecidableEq N]

/-- The size of a file, if it is there. -/
def size (folder : D) (name : N) : Filing D N ε (Option ℕ) := fun m =>
  (.ok ((m.disk.file folder name).map List.length),
    { m with examined := (folder, name) :: m.examined })

def readText (folder : D) (name : N) : Filing D N ε Text := fun m =>
  match m.disk.file folder name with
  | none => (.error .osError, m)
  | some text => (.ok text, m)

def folderExists (folder : D) : Filing D N ε Bool := fun m => (.ok (m.disk folder).isSome, m)

def names (folder : D) : Filing D N ε (List N) := fun m =>
  match m.disk folder with
  | none => (.error .osError, m)
  | some files => (.ok files.keys, m)

variable [DecidableEq D]

def change (c : Change D N) : Filing D N ε Unit := fun m =>
  match m.faults.head?.join, c.apply m.disk with
  | some characters, _ =>
    (.error .osError, { m with disk := c.cut m.disk characters, faults := m.faults.tail })
  | none, none => (.error .osError, { m with faults := m.faults.tail })
  | none, some disk => (.ok (), { m with disk := disk, faults := m.faults.tail })

/-- The disk after a program that stopped behind so many changes, in the middle of the next one. -/
def crash (x : Filing D N ε α) (changes characters : ℕ) (disk : Disk D N) : Disk D N :=
  (x ⟨disk, List.replicate changes none ++ [some characters], []⟩).2.disk

end Filing

end NoSQLOptimizer.Files
