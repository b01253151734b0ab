/-!
# Tri-state settings

A job may leave a setting out, switch it off, or give it a value.  The three
are kept apart until they are resolved against a fallback, so that switching a
setting off is never mistaken for leaving it out.
-/

namespace BackupPlan

/-- A setting of a job. -/
inductive Setting (α : Type) where
  /-- Left out: the fallback applies. -/
  | unset
  /-- Switched off: nothing applies. -/
  | disabled
  /-- Given. -/
  | value (a : α)
  deriving DecidableEq, Inhabited

namespace Setting

variable {α : Type}

/-- Whether the setting is left out. -/
def isUnset : Setting α → Bool
  | unset => true
  | _ => false

/-- The value that a setting settles on: its own, none if it is switched off,
the fallback if it is left out. -/
def resolve (fallback : Option α) : Setting α → Option α
  | unset => fallback
  | disabled => none
  | value a => some a

/-- The setting that settles on a given value whatever the fallback is. -/
def ofResolved : Option α → Setting α
  | none => disabled
  | some a => value a

@[simp] theorem resolve_ofResolved (fallback a : Option α) :
    (ofResolved a).resolve fallback = a := by
  cases a <;> rfl

end Setting

end BackupPlan
