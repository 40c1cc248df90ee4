/-!
# Gates

Work can be held up at a gate. A gate has a name, is shut at first, and stays open once it is
opened.
-/

namespace Evergreen

/-- The gates that are open. -/
structure Gates where
  names : List String := []
  all : Bool := false
  deriving DecidableEq, Repr

namespace Gates

def opened (g : Gates) (name : String) : Gates := { g with names := name :: g.names }

def allOpened (g : Gates) : Gates := { g with all := true }

/-- Whether work that waits at a gate, or at none, may go on. -/
def pass (g : Gates) (at? : Option String) : Bool :=
  g.all || at?.all g.names.contains

end Gates

end Evergreen
