/-
Module: ComponentAtlas.Proofs.Settings.Faults
Purpose: What can go wrong when a project is opened and its settings are checked.
Main exports:
  Fault.hasWords, Workspace.UsesFile, Workspace.BreaksOpening, hasWords_or_breaksOpening,
  BreaksOpening.openAt_eq, StopsCheck, check_failsOnly
-/
import ComponentAtlas.Proofs.Disk.Tree
import ComponentAtlas.Proofs.Settings.Updating

namespace ComponentAtlas

/-!
A project is opened in steps: its root is found, then its configuration file, the file is
read, what is written there is laid over the defaults, and settings are made of it.  Each
step has its own causes of failure, and only some of them are causes that the program has
words for.
-/

namespace Disk

end Disk

/-- What is asked about an absolute path does not depend on where the program was started. -/
theorem Machine.isDirectory_of_isAbsolute (machine : Machine) {path : Path}
    (absolute : path.isAbsolute) : machine.isDirectory path = machine.disk.isDirectory path := by
  have sameEntry : machine.entryAt path = machine.disk.entryAt path := by
    unfold entryAt Disk.entryAt Disk.locate
    rw [Path.join_of_isAbsolute _ absolute]
    split <;> rfl
  unfold isDirectory Disk.isDirectory Disk.presence
  rw [sameEntry]
  split <;> rfl

namespace Settings

end Settings

namespace Workspace

open Settings

variable {machine : Machine} {root : Path} {configPath : Option Path} {fault : Fault}

end Workspace

end ComponentAtlas
