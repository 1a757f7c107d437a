import RecordFilter.Value.Basic

/-!
# Records

A record is a table of properties.  In JSON it is an object of properties, or an
object with such an object under the name `properties`.
-/

namespace RecordFilter

/-- The properties of a record. -/
abbrev Record := Table Value

namespace Record

/-- The property of a record; one that is missing is `null`. -/
def property (r : Record) (name : String) : Value := (r.get? name).getD .null

/-- The members of an object as properties. -/
def ofMembers (members : List (String × Json)) : Record := (Table.ofList members).map Value.ofJson

/-- The record of a JSON value; what is not of either form has no properties. -/
def ofJson (j : Json) : Record :=
  match j with
  | .object members =>
    match Entries.get? "properties" members with
    | some (.object properties) => ofMembers properties
    | some _ => Table.empty
    | none => ofMembers members
  | _ => Table.empty

end Record

end RecordFilter
