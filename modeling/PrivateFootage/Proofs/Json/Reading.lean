import Mathlib
import PrivateFootage.Json.Reading
import PrivateFootage.Proofs.Json.Number
import PrivateFootage.Proofs.Json.RoundTrip

/-!
# Texts, counts, lists and records in and out of JSON

A text is read back from its value, so is a count below the limit, and a list item by item, unless one of
them is not. A record whose members have different names is read back field by field.
-/

namespace PrivateFootage.Json

/-- A text is read back from its value. -/
@[simp] theorem text?_ofText (text : String) : (ofText text).text? = some text := by
  rw [ofText, text?, unescape?_escape, Option.map_some, String.ofList_toList]

/-- The value of a text is well-formed. -/
theorem wellFormed_ofText (text : String) : WellFormed (ofText text) :=
  .string (isStringLiteral_escape text.toList)

/-- A count below the limit is read back from its value. -/
theorem count?_ofCount {limit value : ℕ} (hvalue : value < limit) :
    (ofCount value).count? limit = some value := by
  rw [ofCount, count?, if_pos (Decimal.all_isDigit_digitChars value)]
  dsimp only
  rw [Decimal.readDigits_digitChars, if_pos hvalue]

/-- The value of a count is well-formed. -/
theorem wellFormed_ofCount (value : ℕ) : WellFormed (ofCount value) :=
  .number (isNumber_digitChars value)

/-- Items that are all read are read one by one. -/
theorem mapM_map_eq_some {β γ δ : Type} {write : β → γ} {read : γ → Option δ} {result : β → δ}
    {values : List β} (hread : ∀ value ∈ values, read (write value) = some (result value)) :
    (values.map write).mapM read = some (values.map result) := by
  induction values with
  | nil => rfl
  | cons value values ih =>
    obtain ⟨hvalue, hvalues⟩ := List.forall_mem_cons.mp hread
    rw [List.map_cons, List.mapM_cons, hvalue, ih hvalues]
    rfl

/-- Values that are all read back make a list that is read back. -/
theorem list?_map {β : Type} {write : β → Json} {read : Json → Option β} {values : List β}
    (hread : ∀ value ∈ values, read (write value) = some value) :
    list? read (.array (values.map write)) = some values := by
  rw [list?, items?, Option.bind_eq_bind, Option.bind_some, mapM_map_eq_some hread, List.map_id']

/-- A value that is not read makes a list that is not read. -/
theorem list?_map_eq_none {β γ : Type} {write : β → Json} {read : Json → Option γ} {values : List β}
    {value : β} (hvalue : value ∈ values) (hread : read (write value) = none) :
    list? read (.array (values.map write)) = none := by
  rw [list?, items?, Option.bind_eq_bind, Option.bind_some]
  induction values with
  | nil => cases hvalue
  | cons head values ih =>
    rw [List.map_cons, List.mapM_cons]
    rcases List.mem_cons.mp hvalue with rfl | hvalue
    · rw [hread]
      rfl
    · rw [ih hvalue]
      cases read (write head) with
      | none => rfl
      | some result => rfl

/-- The members of a record are read back with their names. -/
theorem members?_ofMembers (members : List (String × Json)) :
    (ofMembers members).members? = some members := by
  rw [ofMembers, members?]
  induction members with
  | nil => rfl
  | cons member members ih =>
    obtain ⟨name, value⟩ := member
    rw [List.map_cons, List.mapM_cons, ih]
    simp [unescape?_escape]

/-- A record of well-formed values is well-formed. -/
theorem wellFormed_ofMembers {members : List (String × Json)}
    (hvalues : ∀ member ∈ members, WellFormed member.2) : WellFormed (ofMembers members) := by
  apply WellFormed.object
  · intro member hmember
    obtain ⟨written, -, rfl⟩ := List.mem_map.mp hmember
    exact isStringLiteral_escape _
  · intro member hmember
    obtain ⟨written, hwritten, rfl⟩ := List.mem_map.mp hmember
    exact hvalues written hwritten

/-- Among members with different names, a name picks out its own. -/
theorem filter_name {members : List (String × Json)} (hnames : (members.map Prod.fst).Nodup)
    {member : String × Json} (hmember : member ∈ members) :
    (members.filter fun other => other.1 = member.1) = [member] := by
  induction members with
  | nil => cases hmember
  | cons head members ih =>
    rw [List.map_cons, List.nodup_cons] at hnames
    rcases List.mem_cons.mp hmember with rfl | hmember
    · have hothers : (members.filter fun other => other.1 = member.1) = [] := by
        rw [List.filter_eq_nil_iff]
        intro other hother hsame
        rw [decide_eq_true_eq] at hsame
        exact hnames.1 (hsame ▸ List.mem_map_of_mem hother)
      rw [List.filter_cons_of_pos (by simp), hothers]
    · have hdiffers : head.1 ≠ member.1 := by
        intro hsame
        exact hnames.1 (hsame ▸ List.mem_map_of_mem hmember)
      rw [List.filter_cons_of_neg (by simpa using hdiffers), ih hnames.2 hmember]

/-- The fields of a record with different names are read back in order. -/
theorem fields?_ofMembers (members : List (String × Json)) (hnames : (members.map Prod.fst).Nodup) :
    (ofMembers members).fields? (members.map Prod.fst) = some (members.map fun member => some member.2) := by
  have hread := members?_ofMembers members
  rw [ofMembers] at hread ⊢
  rw [fields?, hread, Option.bind_eq_bind, Option.bind_some]
  refine mapM_map_eq_some fun member hmember => ?_
  rw [filter_name hnames hmember]

end PrivateFootage.Json
