/-!
# JSON values

The values of JSON, with the members of an object in the order in which they
are written.
-/

namespace BackupPlan

/-- A JSON value. -/
inductive Json where
  | null
  | bool (b : Bool)
  | integer (n : Int)
  | real (x : Float)
  | text (s : String)
  | list (items : List Json)
  | object (members : List (String × Json))
  deriving Inhabited

namespace Json

/-- The value of the first member of a name. -/
def member? (json : Json) (name : String) : Option Json :=
  match json with
  | object members => members.lookup name
  | _ => none

/-- Puts a member into members that are in ascending order of names; a member
of the same name is replaced. -/
def putMember (name : String) (value : Json) : List (String × Json) → List (String × Json)
  | [] => [(name, value)]
  | (n, v) :: rest =>
    if name < n then (name, value) :: (n, v) :: rest
    else if name = n then (name, value) :: rest
    else (n, v) :: putMember name value rest

mutual

/-- The value with the members of every object in ascending order of names; of
members of one name the last is kept. -/
def sorted : Json → Json
  | list items => list (sortedItems items)
  | object members => object (sortedMembers members [])
  | json => json

/-- Sorts the objects of every value of a list. -/
def sortedItems : List Json → List Json
  | [] => []
  | item :: rest => sorted item :: sortedItems rest

/-- Puts the members one after another into members that are sorted. -/
def sortedMembers : List (String × Json) → List (String × Json) → List (String × Json)
  | [], done => done
  | (name, value) :: rest, done => sortedMembers rest (putMember name (sorted value) done)

end

end Json

end BackupPlan
