import Propositional.Table.Row

/-!
# Configuration

Settings by name.

* `Configuration.default` — the settings of the program.
-/

namespace Propositional

structure Configuration where
  settings : List (String × Value)

namespace Configuration

def default : Configuration :=
  ⟨[("program_name", .text "truth-table"), ("max_variables", .int defaultLimit)]⟩

/-- The setting with the given name. -/
def get? (c : Configuration) (name : String) : Option Value := c.settings.lookup name

/-- The written form. -/
def display (c : Configuration) : String := (Value.object c.settings).literal

end Configuration

end Propositional
