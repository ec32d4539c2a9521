/-!
# Braces

The two braces as texts. A tag opens and closes blocks with them, maps are shown between them, and
messages quote them.

## Main definitions

* `Stencil.openBrace`, `Stencil.closeBrace`.
-/

namespace Stencil

/-- The brace that opens. -/
def openBrace : String := "\x7b"

/-- The brace that closes. -/
def closeBrace : String := "\x7d"

@[simp] theorem toList_openBrace : openBrace.toList = ['{'] := by decide

@[simp] theorem toList_closeBrace : closeBrace.toList = ['}'] := by decide

end Stencil
