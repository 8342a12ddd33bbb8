import ScreenScript.Disk.Basic

namespace ScreenScript

/-- Whether a disk has the same at a path in two states. -/
structure Disk.SameAt {σ : Type} (d : Disk σ) (path : String) (disk disk' : σ) : Prop where
  isFile : d.isFile path disk = d.isFile path disk'
  readText : d.readText path disk = d.readText path disk'
  readPicture : d.readPicture path disk = d.readPicture path disk'

namespace Disk.Reading

variable {σ α β ε : Type} {d : Disk σ} {disk disk' : σ} {path : String}

def paths (d : Disk σ) (disk : σ) : Reading α → List String
  | done _ => []
  | isFileThen path next => path :: paths d disk (next (d.isFile path disk))
  | readTextThen path next => path :: paths d disk (next (d.readText path disk))
  | readPictureThen path next => path :: paths d disk (next (d.readPicture path disk))

theorem run_congr {r : Reading α} (same : ∀ path ∈ r.paths d disk, d.SameAt path disk disk') :
    r.run d disk = r.run d disk' := by
  induction r with
  | done => rfl
  | isFileThen path next ih =>
      obtain ⟨here, rest⟩ := List.forall_mem_cons.1 same
      rw [run, run, ← here.isFile]
      exact ih _ rest
  | readTextThen path next ih =>
      obtain ⟨here, rest⟩ := List.forall_mem_cons.1 same
      rw [run, run, ← here.readText]
      exact ih _ rest
  | readPictureThen path next ih =>
      obtain ⟨here, rest⟩ := List.forall_mem_cons.1 same
      rw [run, run, ← here.readPicture]
      exact ih _ rest

theorem run_bind (d : Disk σ) (disk : σ) (r : Reading α) (f : α → Reading β) :
    (r >>= f).run d disk = (f (r.run d disk)).run d disk := by
  change (r.bind f).run d disk = _
  induction r with
  | done => rfl
  | isFileThen path next ih => exact ih _
  | readTextThen path next ih => exact ih _
  | readPictureThen path next ih => exact ih _

theorem paths_bind (d : Disk σ) (disk : σ) (r : Reading α) (f : α → Reading β) :
    (r >>= f).paths d disk = r.paths d disk ++ (f (r.run d disk)).paths d disk := by
  change (r.bind f).paths d disk = _
  induction r with
  | done => rfl
  | isFileThen path next ih => exact congrArg (path :: ·) (ih _)
  | readTextThen path next ih => exact congrArg (path :: ·) (ih _)
  | readPictureThen path next ih => exact congrArg (path :: ·) (ih _)

theorem run_liftM (r : Reading α) :
    (liftM r : ExceptT ε Reading α).run.run d disk = .ok (r.run d disk) :=
  run_bind d disk r _

theorem paths_liftM (r : Reading α) :
    (liftM r : ExceptT ε Reading α).run.paths d disk = r.paths d disk :=
  (paths_bind d disk r _).trans (List.append_nil _)

theorem run_bindT (x : ExceptT ε Reading α) (f : α → ExceptT ε Reading β) :
    (x >>= f).run.run d disk = x.run.run d disk >>= fun a => (f a).run.run d disk := by
  rw [ExceptT.run_bind, run_bind]
  cases x.run.run d disk <;> rfl

theorem mem_paths_bindT {x : ExceptT ε Reading α} {f : α → ExceptT ε Reading β} :
    path ∈ (x >>= f).run.paths d disk ↔
      path ∈ x.run.paths d disk ∨
        ∃ a, x.run.run d disk = .ok a ∧ path ∈ (f a).run.paths d disk := by
  rw [ExceptT.run_bind, paths_bind, List.mem_append]
  cases x.run.run d disk with
  | ok a => simp
  | error fault => simp [paths, pure]

theorem run_firstFile? (d : Disk σ) (disk : σ) (files : List String) :
    (firstFile? files).run d disk = files.find? fun file => d.isFile file disk := by
  induction files with
  | nil => rfl
  | cons file rest ih =>
      rw [firstFile?, run_bind, List.find?_cons]
      cases here : d.isFile file disk with
      | true => simp [isFile, run, here, pure]
      | false => simpa [isFile, run, here] using ih

theorem mem_of_mem_paths_firstFile? {files : List String}
    (mem : path ∈ (firstFile? files).paths d disk) : path ∈ files := by
  induction files with
  | nil => cases mem
  | cons file rest ih =>
      rw [firstFile?, paths_bind] at mem
      rcases List.mem_append.1 mem with first | later
      · exact List.mem_cons.2 (.inl (List.mem_singleton.1 first))
      · split at later
        · cases later
        · exact List.mem_cons_of_mem _ (ih later)

end Disk.Reading

end ScreenScript
