/-!
# Secrets

A destination key is kept in a type of its own, so that only code which asks
for it with `reveal` can put it into a text.  Everything else that shows a
secret shows `Secret.redacted`.
-/

namespace BackupPlan

/-- A text that is shown only where it is asked for by name. -/
structure Secret where
  /-- The secret itself. -/
  reveal : String
  deriving DecidableEq, Inhabited

namespace Secret

/-- What stands in place of a secret. -/
def redacted : String := "###REDACTED_SECRET###"

/-- The secret with its text wiped out. -/
def wiped (_ : Secret) : Secret := ⟨""⟩

/-- An optional secret as a message shows it. -/
def quotedOption : Option Secret → String
  | none => "None"
  | some _ => "Some(" ++ redacted ++ ")"

end Secret

end BackupPlan
