import BackupPlan.Check.Issue
import BackupPlan.FileName
import BackupPlan.Text.Quoted
import BackupPlan.UnixPath.Basic

/-!
# The rules for single values

Each rule looks at one value and answers with the issue it finds, if any.
Values that end up bare in a command line (intervals, the key server) are held
to an alphabet that no shell gives a meaning to.
-/

namespace BackupPlan.Check

/-- Whether a name can stand as a file name and as one word. -/
def isTitle (name : String) : Bool :=
  name ≠ "" && FileName.isSafe name && !name.toList.any Text.isBlank

/-- The name that is suggested in place of one that no file can have. -/
def suggestedTitle (name : String) : String :=
  String.ofList ((FileName.sanitize name).toList.map fun c => if Text.isBlank c then '_' else c)

/-- A title must be a file name without blanks. -/
def title (name : String) : Option Issue :=
  if isTitle name then none
  else if name = "" then some { code := "InvalidTitle", message := some "title is empty" }
  else some {
    code := "InvalidTitle"
    message := some ("title " ++ Text.quoted name ++ " is not a valid file name, try " ++
      Text.quoted (suggestedTitle name)) }

/-- The units of an interval: seconds up to years. -/
def isUnit (c : Char) : Bool :=
  c == 's' || c == 'm' || c == 'h' || c == 'D' || c == 'W' || c == 'M' || c == 'Y'

/-- Whether a text consists of groups of digits, each closed by a unit; told how many
digits stand in the open group and how many groups were closed before. -/
def isGroups (digits groups : Nat) : List Char → Bool
  | [] => digits = 0 && 0 < groups
  | c :: rest =>
    if c.isDigit then isGroups (digits + 1) groups rest
    else if 0 < digits && isUnit c then isGroups 0 (groups + 1) rest
    else false

/-- Whether a text is an interval: `now`, or one or more numbers with units. -/
def isInterval (text : String) : Bool :=
  text == "now" || isGroups 0 0 text.toList

/-- An age must be an interval. -/
def interval (text : String) : Option Issue :=
  if isInterval text then none
  else some {
    code := "InvalidInterval"
    message := some ("invalid duplicity interval: " ++ Text.quoted text) }

/-- Whether a character may stand in the address of a key server. -/
def isServerChar (c : Char) : Bool :=
  c.isAlphanum || c == '.' || c == '-' || c == ':' || c == '/'

/-- A key server must be an address. -/
def keyserver (address : String) : Option Issue :=
  if address ≠ "" && address.toList.all isServerChar then none
  else some {
    code := "InvalidKeyserver"
    message := some ("invalid keyserver: " ++ Text.quoted address) }

/-- A path must start at the root. -/
def absolute (path : UnixPath) : Option Issue :=
  if path.isAbsolute then none
  else some {
    code := "RelativePath"
    message := some (path.quoted ++ " is not an absolute path") }

/-- Every path must start at the root; the first that does not is reported. -/
def allAbsolute (paths : List UnixPath) : Option Issue :=
  paths.findSome? absolute

/-- A hexadecimal digit of either case. -/
def isHexDigit (c : Char) : Bool :=
  c.isDigit || ('a' ≤ c && c ≤ 'f') || ('A' ≤ c && c ≤ 'F')

/-- Whether a text is the short, the long or the full name of a public key. -/
def isKeyId (id : String) : Bool :=
  (id.utf8ByteSize = 8 || id.utf8ByteSize = 16 || id.utf8ByteSize = 40) && id.toList.all isHexDigit

/-- Every public key must be named by its id; the first that is not is reported. -/
def keyIds (ids : List String) : Option Issue :=
  (ids.find? fun id => !isKeyId id).map fun id => {
    code := "InvalidKeyId"
    message := some (Text.quoted id ++ " is not a 8, 16 or 40 digit hex key id") }

end BackupPlan.Check
