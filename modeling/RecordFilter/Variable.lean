import RecordFilter.Value.Coercion

/-!
# Session variables

The raw text of a variable is a name, or a name and a default set apart by the
first colon.  Blanks around the name do not count.
-/

namespace RecordFilter

/-- The values of session variables. -/
abbrev Variables := Table Value

/-- A name, and the text of its default. -/
structure VariableRef where
  name : String
  fallback : Option String

namespace VariableRef

def ofRaw (raw : String) : VariableRef :=
  match splitAtChar ':' raw with
  | some (name, fallback) => ⟨trim name, some fallback⟩
  | none => ⟨trim raw, none⟩

/-- The value that is set, else the default, else `null`. -/
def resolve (r : VariableRef) (session : Variables) : Value :=
  match session.get? r.name with
  | some v => v
  | none =>
    match r.fallback with
    | some text => Value.ofText text
    | none => .null

end VariableRef

/-- The value of a variable, given its raw text. -/
def resolveVariable (raw : String) (session : Variables) : Value :=
  (VariableRef.ofRaw raw).resolve session

end RecordFilter
