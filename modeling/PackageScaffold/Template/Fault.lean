/-!
# What can be wrong with a template
-/

namespace PackageScaffold.Template

/-- Why a template cannot be expanded. -/
inductive Fault where
  /-- A section is opened and not closed before its surroundings end. -/
  | unclosed (name : String)
  /-- A closing marker has no open section of its name. -/
  | unopened (marker : String)
  /-- A variable has no value that can be written as text. -/
  | unresolved (name : String)
  /-- The catalogue has no template of the name. -/
  | unknown (template : String)
  /-- A fault of the named template. -/
  | within (template : String) (fault : Fault)
  deriving DecidableEq, Repr

/-- The fault in words. -/
def Fault.message : Fault → String
  | .unclosed name => "Section '" ++ name ++ "' is never closed"
  | .unopened marker => "Closing marker " ++ marker ++ " has no opening marker"
  | .unresolved name => "Unresolved template variable '" ++ name ++ "'"
  | .unknown template => "Unknown template: " ++ template
  | .within template fault => template ++ ": " ++ fault.message

end PackageScaffold.Template
