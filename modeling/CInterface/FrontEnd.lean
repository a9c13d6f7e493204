import CInterface.Description.Reader
import CInterface.Registry

/-!
# Front ends

What reads modules. There is one front end, for interface descriptions in JSON.
-/

namespace CInterface

inductive FrontEnd where
  | json
  deriving DecidableEq, Repr

namespace FrontEnd

def name : FrontEnd → String
  | .json => "json"

def load : FrontEnd → (text filename : String) → Except Description.LoadError Source.Module
  | .json => Description.load

def registry : Registry FrontEnd := .ofEntries [⟨name .json, .json, none, none⟩]

/-- The front end of a name, or the default one. -/
def select (name : Option String) : Except RegistryError FrontEnd :=
  (registry.get name).map (·.item)

end FrontEnd

end CInterface
