/-!
# Named values

A type whose values can be listed and have a name each, for settings and reports.
-/
namespace Patchbay

class Named (α : Type) where
  all : List α
  name : α → String

/-- The value with this name. -/
def Named.ofName? {α : Type} [Named α] (s : String) : Option α :=
  all.find? fun a => name a = s

end Patchbay
