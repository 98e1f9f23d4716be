/-
Module: ComponentAtlas.Proofs.Discovery.Survey
Purpose: When a scan of a project has a result: the machine has to tell of each scanned
  directory whether it is there.
Main exports:
  Disk.Tells, Disk.Refuses, reached_of_tells, reached_of_refuses, scan_eq_ok_iff,
  scan_eq_error_iff, Workspace.IsRefused
-/
import ComponentAtlas.Discovery.Scan
import ComponentAtlas.Proofs.Disk.Tree

namespace ComponentAtlas

/-- The machine tells whether there is a directory at a path. -/
def Disk.Tells (disk : Disk) (path : Path) : Prop := ∃ answer, disk.isDirectory path = .ok answer

/-- Asked for paths one after the other, the machine tells of the first ones whether there
are directories, and then fails to. -/
inductive Disk.Refuses (disk : Disk) : List Path → Fault → Prop where
  | here {path : Path} {rest : List Path} {fault : Fault}
      (untold : disk.isDirectory path = .error fault) : Refuses disk (path :: rest) fault
  | later {path : Path} {rest : List Path} {fault : Fault} (told : disk.Tells path)
      (refuses : Refuses disk rest fault) : Refuses disk (path :: rest) fault

namespace Disk

variable {disk : Disk} {paths : List Path} {fault : Fault}

theorem tells_or_refuses (disk : Disk) (paths : List Path) :
    (∀ path ∈ paths, disk.Tells path) ∨ ∃ fault, disk.Refuses paths fault := by
  induction paths with
  | nil => exact .inl (List.forall_mem_nil _)
  | cons path rest ih =>
      cases asked : disk.isDirectory path with
      | error fault => exact .inr ⟨fault, .here asked⟩
      | ok answer =>
          rcases ih with allTold | ⟨fault, refuses⟩
          · exact .inl (List.forall_mem_cons.mpr ⟨⟨answer, asked⟩, allTold⟩)
          · exact .inr ⟨fault, .later ⟨answer, asked⟩ refuses⟩

/-- Disks that give the same answers refuse alike. -/
theorem Refuses.of_answers {other : Disk} (refuses : disk.Refuses paths fault)
    (same : ∀ path, disk.isDirectory path = other.isDirectory path) :
    other.Refuses paths fault := by
  induction refuses with
  | here untold => exact .here ((same _).symm.trans untold)
  | later told refuses ih =>
      obtain ⟨answer, asked⟩ := told
      exact .later ⟨answer, (same _).symm.trans asked⟩ ih

end Disk

namespace Scan

variable {disk : Disk} {roots : List Path} {fault : Fault}

theorem reached_of_tells (allTold : ∀ root ∈ roots, disk.Tells root) :
    reached disk roots = (roots, none) := by
  induction roots with
  | nil => rfl
  | cons root rest ih =>
      obtain ⟨⟨answer, told⟩, restTold⟩ := List.forall_mem_cons.mp allTold
      rw [reached, told]
      dsimp only
      rw [ih restTold]

theorem reached_of_refuses (refuses : disk.Refuses roots fault) :
    ∃ told, reached disk roots = (told, some fault) := by
  induction refuses with
  | here untold => exact ⟨[], by rw [reached, untold]⟩
  | @later root rest _ told refuses ih =>
      obtain ⟨answer, asked⟩ := told
      obtain ⟨told, isReached⟩ := ih
      refine ⟨root :: told, ?_⟩
      rw [reached, asked]
      dsimp only
      rw [isReached]

end Scan

namespace Workspace

variable {workspace : Workspace} {disk : Disk} {roots : List Path} {fault : Fault}

theorem survey_of_tells (isRoots : workspace.scanRoots = .ok roots)
    (allTold : ∀ root ∈ roots, disk.Tells root) :
    workspace.survey disk =
      ((Scan.ofRoots workspace disk roots).events, .ok (Scan.ofRoots workspace disk roots)) := by
  rw [survey, isRoots]
  dsimp only
  rw [Scan.reached_of_tells allTold]

theorem scan_of_tells (isRoots : workspace.scanRoots = .ok roots)
    (allTold : ∀ root ∈ roots, disk.Tells root) :
    workspace.scan disk = .ok (Scan.ofRoots workspace disk roots) := by
  rw [scan, survey_of_tells isRoots allTold]

theorem scan_of_refuses (isRoots : workspace.scanRoots = .ok roots)
    (refuses : disk.Refuses roots fault) : workspace.scan disk = .error fault := by
  obtain ⟨told, isReached⟩ := Scan.reached_of_refuses refuses
  rw [scan, survey, isRoots]
  dsimp only
  rw [isReached]

/-- A scan finds something just when its directories are known and the machine tells of
each of them. -/
theorem scan_eq_ok_iff {scan : Scan} :
    workspace.scan disk = .ok scan ↔ ∃ roots, workspace.scanRoots = .ok roots ∧
      (∀ root ∈ roots, disk.Tells root) ∧ scan = Scan.ofRoots workspace disk roots := by
  constructor
  · intro scanned
    cases isRoots : workspace.scanRoots with
    | error fault =>
        rw [Workspace.scan, survey, isRoots] at scanned
        cases scanned
    | ok roots =>
        rcases disk.tells_or_refuses roots with allTold | ⟨fault, refuses⟩
        · rw [scan_of_tells isRoots allTold] at scanned
          cases scanned
          exact ⟨roots, rfl, allTold, rfl⟩
        · rw [scan_of_refuses isRoots refuses] at scanned
          cases scanned
  · rintro ⟨roots, isRoots, allTold, rfl⟩
    exact scan_of_tells isRoots allTold

/-- A scan of known directories fails just as the first of them that the machine does not
tell of. -/
theorem scan_eq_error_iff (isRoots : workspace.scanRoots = .ok roots) :
    workspace.scan disk = .error fault ↔ disk.Refuses roots fault := by
  constructor
  · intro failed
    rcases disk.tells_or_refuses roots with allTold | ⟨other, refuses⟩
    · rw [scan_of_tells isRoots allTold] at failed
      cases failed
    · rw [scan_of_refuses isRoots refuses] at failed
      cases failed
      exact refuses
  · exact scan_of_refuses isRoots

/-- The machine does not tell of a directory that the project scans whether it is there. -/
def IsRefused (workspace : Workspace) (disk : Disk) (fault : Fault) : Prop :=
  ∃ roots, workspace.scanRoots = .ok roots ∧ disk.Refuses roots fault

theorem scan_of_isRefused (refused : workspace.IsRefused disk fault) :
    workspace.scan disk = .error fault := by
  obtain ⟨roots, isRoots, refuses⟩ := refused
  exact scan_of_refuses isRoots refuses

/-- A scan that finds something tells of nothing else than what it found. -/
theorem survey_of_scan {scan : Scan} (scanned : workspace.scan disk = .ok scan) :
    workspace.survey disk = (scan.events, .ok scan) := by
  obtain ⟨roots, isRoots, allTold, rfl⟩ := scan_eq_ok_iff.mp scanned
  exact survey_of_tells isRoots allTold

theorem survey_of_failed_scan (failed : workspace.scan disk = .error fault) :
    workspace.survey disk = ((workspace.survey disk).1, .error fault) := by
  rw [← failed]
  rfl

end Workspace

end ComponentAtlas
