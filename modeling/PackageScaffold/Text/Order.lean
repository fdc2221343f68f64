/-!
# Sorted texts

Texts in the order of their code points, with or without repetitions.
-/

namespace PackageScaffold.Text

/-- The texts in the order of their code points. -/
def sort (texts : List String) : List String :=
  texts.mergeSort fun a b => decide (a ≤ b)

/-- The texts in the order of their code points, each once. -/
def sortDistinct (texts : List String) : List String :=
  sort texts.eraseDups

end PackageScaffold.Text
