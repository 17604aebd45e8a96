/-
The files that source mappings point at.

A name inside the workspace is looked up from the workspace's root; only a mapping
without one is looked up by its place in the file system.
-/
import SourceDrift.Finding.Basic
import SourceDrift.Path

set_option autoImplicit false

namespace SourceDrift.SourceMapping

/-- The file that a mapping points at. -/
def file (root : Path) (m : SourceMapping) : Path :=
  if m.relative = "" then Path.ofString m.absolute else root.join (Path.ofString m.relative)

end SourceDrift.SourceMapping
