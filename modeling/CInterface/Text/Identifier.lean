/-!
# Identifiers

A C identifier is a letter or an underscore followed by letters, digits and underscores, all of them ASCII.
-/

namespace CInterface.Text

def isIdentifierStart (c : Char) : Bool := c.isAlpha || c == '_'

def isIdentifierPart (c : Char) : Bool := c.isAlphanum || c == '_'

/-- The texts that are C identifiers. -/
def isIdentifier (s : String) : Bool :=
  match s.toList with
  | [] => false
  | c :: cs => isIdentifierStart c && cs.all isIdentifierPart

/-- An identifier, or one identifier and the line feed that ends its line. -/
def isIdentifierLine (s : String) : Bool :=
  isIdentifier s ||
    (s.toList.getLast? == some '\n' && isIdentifier (String.ofList s.toList.dropLast))

/-- A text with each character that cannot stand in an identifier replaced by an underscore. -/
def sanitized (s : String) : String :=
  String.ofList (s.toList.map fun c => if isIdentifierPart c then c else '_')

theorem isIdentifierPart_of_start {c : Char} (h : isIdentifierStart c = true) :
    isIdentifierPart c = true := by
  simp only [isIdentifierStart, isIdentifierPart, Char.isAlphanum, Bool.or_eq_true] at h ⊢
  exact h.imp_left .inl

end CInterface.Text
