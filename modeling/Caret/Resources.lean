import Caret.Dict

/-!
# Resource tables

Localized display texts by key. A table is all that the rest of the library
asks of a localization: a key either has a text or has none.
-/

namespace Caret

/-- **A resource table**: texts by key. -/
abbrev Resources := Dict String

end Caret
