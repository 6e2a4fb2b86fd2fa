/-!
# Severities

How much a violation weighs. The order is `info < warning < error`.
-/

namespace ArchLint

inductive Severity where
  | info
  | warning
  | error
  deriving DecidableEq, Repr, Inhabited

namespace Severity

def all : List Severity :=
  [info, warning, error]

def name : Severity → String
  | info => "info"
  | warning => "warning"
  | error => "error"

def ofName? (text : String) : Option Severity :=
  all.find? (·.name = text)

theorem ofName?_name (s : Severity) : ofName? s.name = some s := by
  cases s <;> decide

def rank : Severity → Nat
  | info => 0
  | warning => 1
  | error => 2

instance : LE Severity := ⟨fun a b => a.rank ≤ b.rank⟩

instance (a b : Severity) : Decidable (a ≤ b) :=
  inferInstanceAs (Decidable (a.rank ≤ b.rank))

end Severity

end ArchLint
