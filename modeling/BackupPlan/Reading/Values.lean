import BackupPlan.Reading.Datum
import BackupPlan.Secret
import BackupPlan.Setting
import BackupPlan.UnixPath.Basic

/-!
# Reading single values

Texts, paths, lists, values that may be left out, settings, and lists of which
a single item may stand for the whole.
-/

namespace BackupPlan.Reading

variable {ν α : Type} [Datum ν]

/-- Reads a text. -/
def text (value : ν) : Read String :=
  Datum.text "a string" value

/-- Reads a secret. -/
def secret (value : ν) : Read Secret :=
  (text value).map Secret.mk

/-- Reads a path. -/
def path (value : ν) : Read UnixPath :=
  (Datum.text "path string" value).map UnixPath.ofText

/-- Reads a choice. -/
def choice (choices : Choices α) (value : ν) : Read α :=
  Datum.choice choices value

/-- Reads a value that may be left out. -/
def optional (inner : ν → Read α) (value : ν) : Read (Option α) := do
  match ← Datum.optional value with
  | none => pure none
  | some value => some <$> inner value

/-- Reads a list. -/
def list (inner : ν → Read α) (value : ν) : Read (List α) :=
  Read.mapFault (Datum.settle value) do
    let found ← Datum.items "a sequence" value
    let items ← found.items.mapM inner
    found.ending
    pure items

/-- Reads a list, or a single item that stands for a list of one. -/
def oneOrMany (inner : Open → Read α) (value : ν) : Read (List α) := do
  let content ← Datum.content true value
  match inner content with
  | .ok one => pure [one]
  | .error one =>
    match list inner content with
    | .ok many => pure many
    | .error many => fail (.neitherOneNorMany one.problem many.problem)

/-- Reads what a setting holds if it is neither left out nor `true`. -/
def settingValue (inner : Open → Read α) : Open → Read (Setting α)
  | .truth false => pure .disabled
  | .truth true => fail .trueSetting
  | content =>
    match inner content with
    | .ok a => pure (.value a)
    | .error _ => fail .noSetting

/-- Reads a setting: nothing leaves it out, `false` switches it off. -/
def setting (inner : Open → Read α) (value : ν) : Read (Setting α) := do
  match ← Datum.optional value with
  | none => pure .unset
  | some value => settingValue inner (← Datum.content false value)

end BackupPlan.Reading
