import Reclaim.Host.Basic
import Reclaim.Path.Argument
import Reclaim.Proofs.Path.Text

/-!
Absolute paths and the form in which paths are stored. The current directory is absolute, so every
path that is stored for an object is too.
-/

namespace Reclaim

namespace Path

theorem isAbsolute_absolute {directory : Path} (h : directory.isAbsolute = true) (p : Path) :
    (directory.absolute p).isAbsolute = true := by
  show (directory.join p).isAbsolute = true
  unfold join
  split
  · exact h
  · rename_i hp
    simpa [isAbsolute] using hp

end Path

theorem Host.isAbsolute_of_currentDirectory? {host : Host} {directory : Path}
    (h : host.currentDirectory? = some directory) : directory.isAbsolute = true := by
  unfold currentDirectory? at h
  split at h
  · cases h
    rw [Path.isAbsolute_ofText, textOf, String.toList_append]
    rfl
  · cases h

namespace PathArgument

theorem stored_text_iff {cwd : Option Path} {text stored : String} :
    PathArgument.stored cwd (.text text) = .ok stored ↔ text ≠ "" ∧ stored = text := by
  by_cases hempty : text = "" <;> simp [PathArgument.stored, hempty, eq_comm]

end PathArgument
end Reclaim
