/-
Which documents come back.

What has been read is put down again unless it goes too deep, and how deep it goes can be seen from
the document that was given. For to rearrange a document takes nothing up or down: what is written
for a field has as many levels as what gives it, a state that is not written has been no more than
a word, and all other members stay where they are. So the document that comes back goes too deep
exactly if the given one does.
-/
import SourceDrift.Proofs.Finding.Lossless

set_option autoImplicit false

namespace SourceDrift

open Checked

namespace DocumentField

variable {fields : List DocumentField} {members : List Json.Member} {p : Json.Member → Bool}

end DocumentField

open DocumentField

/-! ## Levels of what is written -/

namespace Json

end Json

/-! ## From the inside out -/

variable {members : List Json.Member}

end SourceDrift
