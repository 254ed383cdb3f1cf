namespace CatalogSync

/-- A call answers, reports an error, or breaks down without reporting anything. -/
inductive Outcome (ε α : Type) where
  | ok (value : α)
  | error (reason : ε)
  | panicked
  deriving DecidableEq, Repr

namespace Outcome

variable {ε α β : Type}

def ofExcept : Except ε α → Outcome ε α
  | .ok value => ok value
  | .error reason => error reason

end Outcome

end CatalogSync
