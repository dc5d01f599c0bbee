import InfraHub.Drf.Import

/-!
# Drf — Titles

The titles of the columns of a file: `get_column_titles` writes `label(name)`, and
`convert_to_field_names` reads the name, whatever the label is (`titles_read_back`).

A title without parentheses is looked up among the labels and the names of the fields, in lower case.
-/

namespace InfraHub.Import
open InfraHub.Lib (Str str Dict)

/-- The labels and the names of the fields that can be imported. -/
def fields_map (serializer_fields : List Column) : Dict Str Str :=
  let fields := serializer_fields.filter fun v => ¬ (v.read_only ∧ v.field_name ∉ pk_names)
  fields.foldl (fun d v => (d.set v.label v.field_name).set v.field_name v.field_name) Dict.empty

section
variable (lower : Str → Str) (serializer_fields : List Column)

def lowercase_fields_map : Dict Str Str :=
  Dict.ofList ((fields_map serializer_fields).items.map fun item => (lower item.1, item.2))

/-- `lower` is `str.lower`. -/
def convert_to_field_names (column_titles : List Str) : List Str :=
  column_titles.map <| to_field_name fun column_title =>
    ((lowercase_fields_map lower serializer_fields).get (lower column_title)).getD []

theorem names_of_titles {fields : List Column}
    (h : ∀ c ∈ fields, '('.toNat ∉ c.field_name ∧ c.field_name.getLast? ≠ some ')'.toNat) :
    convert_to_field_names lower serializer_fields (get_column_titles fields) =
      fields.map Column.field_name := by
  rw [convert_to_field_names, get_column_titles, List.map_map]
  exact List.map_congr_left fun c hc => to_field_name_title (h c hc).1 (h c hc).2

/-- **The titles are read as the names**, of any fields of a serializer whose names have no
parentheses. -/
theorem titles_read_back (fields : List Column)
    (h : ∀ c ∈ fields, '('.toNat ∉ c.field_name ∧ ')'.toNat ∉ c.field_name) :
    convert_to_field_names lower serializer_fields (get_column_titles fields) =
      fields.map Column.field_name := by
  refine names_of_titles lower serializer_fields fun c hc => ⟨(h c hc).1, fun hlast => ?_⟩
  exact (h c hc).2 (List.mem_of_getLast? hlast)

end

/-- Labels with parentheses and stars, one of them the name of the other field. -/
def odd_fields : List Column :=
  [⟨str "name", str "**)(size", true, false, false, .CharField false⟩,
    ⟨str "size", str "name", false, false, false, .CharField false⟩,
    ⟨str "unit", str "name", true, true, false, .CharField true⟩]

theorem odd_titles_read_back :
    (∀ c ∈ odd_fields, '('.toNat ∉ c.field_name ∧ ')'.toNat ∉ c.field_name) ∧
    convert_to_field_names id odd_fields (get_column_titles odd_fields) =
      odd_fields.map Column.field_name :=
  have hplain : ∀ c ∈ odd_fields, '('.toNat ∉ c.field_name ∧ ')'.toNat ∉ c.field_name := by decide
  ⟨hplain, titles_read_back id odd_fields odd_fields hplain⟩

end InfraHub.Import
