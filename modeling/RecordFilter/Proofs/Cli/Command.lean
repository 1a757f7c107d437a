import RecordFilter.Cli.Command
import RecordFilter.Proofs.Description
import Mathlib.Data.List.Permutation

/-!
# Expressions of the command

The command that converts a description writes the tree that strict conversion builds, whatever its
names are.  Its expression can be read back as this tree where the description is writable, and
nowhere else.
-/

namespace RecordFilter

namespace Command

open Description

theorem inputJson_eq_ok_iff {text : String} {j : Json} :
    inputJson (some text) = .ok j ↔ Json.parse? Json.documentDepth text = some j := by
  cases h : Json.parse? Json.documentDepth text <;> simp [inputJson, h]

/-- The command reads a description, converts it and writes its tree. -/
theorem convert_eq_ok_iff {text expression : String} :
    convert (some text) .strict = .ok expression ↔
      ∃ j p, Json.parse? Json.documentDepth text = some j ∧ Description.convert .strict j = .ok p ∧
        expression = p.text := by
  simp only [convert, bind_eq_ok, inputJson_eq_ok_iff, mapError_eq_ok]
  constructor
  · rintro ⟨j, hj, p, hp, h⟩
    cases h
    exact ⟨j, p, hj, hp, rfl⟩
  · rintro ⟨j, p, hj, hp, rfl⟩
    exact ⟨j, hj, p, hp, rfl⟩

/-- **Which expressions of the command can be read back.**  An expression that the command makes of a
JSON text is the text of the tree that strict conversion builds, and it is read as this tree exactly
when the description can be written. -/
theorem parse_convert_iff_writable {text expression : String}
    (h : convert (some text) .strict = .ok expression) :
    ∃ j p, Json.parse? Json.documentDepth text = some j ∧ Description.convert .strict j = .ok p ∧
      expression = p.text ∧ (Predicate.parse expression = .ok p ↔ Writable j) := by
  obtain ⟨j, p, hj, hp, rfl⟩ := convert_eq_ok_iff.1 h
  exact ⟨j, p, hj, hp, rfl, parse_text_iff_writable (Json.fits_of_parse? hj) hp⟩

/-- `{"type":"comparison","operator":"=","operands":[{"field":"a] = 1 | [b"},2]}` -/
def bracketText : String :=
  "\x7b\"type\":\"comparison\",\"operator\":\"=\",\"operands\":[\x7b\"field\":\"a] = 1 | [b\"\x7d,2]\x7d"

def bracketDescription : Json :=
  described "comparison" "=" [fieldNamed "a] = 1 | [b", .integer 2]

def bracketTree : Predicate := .compare .equal (.field "a] = 1 | [b") (.integer 2)

theorem parse?_bracketText :
    Json.parse? Json.documentDepth bracketText = some bracketDescription := by
  cbv

theorem convert_bracketDescription :
    Description.convert .strict bracketDescription = .ok bracketTree := by
  refine convert_strict_eq_ok_iff.2 ⟨rfl, ?_⟩
  rw [Predicate.height_eq_levels]
  decide

theorem not_writable_bracketDescription : ¬Writable bracketDescription := by
  rw [writable_iff_of_convertNested (convert_strict_eq_ok_iff.1 convert_bracketDescription).1,
    bracketTree, Predicate.expressible_compare_iff]
  rintro ⟨⟨-, hname⟩, -⟩
  exact hname (by decide)

/-- The name of a field is written as it is, and what it says is read as something else. -/
theorem parse_convert_bracketText_ne :
    convert (some bracketText) .strict = .ok "[a] = 1 | [b] = 2" ∧
      Description.convert .strict bracketDescription = .ok bracketTree ∧
      Predicate.parse "[a] = 1 | [b] = 2" ≠ .ok bracketTree := by
  have htext : bracketTree.text = "[a] = 1 | [b] = 2" := by decide
  have hconvert : convert (some bracketText) .strict = .ok "[a] = 1 | [b] = 2" :=
    convert_eq_ok_iff.2
      ⟨bracketDescription, bracketTree, parse?_bracketText, convert_bracketDescription, htext.symm⟩
  obtain ⟨j, p, hj, hp, -, hiff⟩ := parse_convert_iff_writable hconvert
  cases hj.symm.trans parse?_bracketText
  cases hp.symm.trans convert_bracketDescription
  exact ⟨hconvert, convert_bracketDescription, mt hiff.1 not_writable_bracketDescription⟩

end Command

end RecordFilter
