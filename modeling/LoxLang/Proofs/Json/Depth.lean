import LoxLang.Json.Reader

/-! How deep JSON values nest, and that a text is read only as far as the limit allows. -/

namespace LoxLang

/-- What comes of two computations in turn comes of a result of the first. -/
theorem exists_of_bind_eq_ok {ε α β : Type} {first : Except ε α} {next : α → Except ε β}
    {result : β} (same : first >>= next = .ok result) :
    ∃ value, first = .ok value ∧ next value = .ok result := by
  cases first with
  | error cause => cases same
  | ok value => exact ⟨value, rfl, same⟩

/-- What is made of a result is made of a value. -/
theorem exists_of_map_eq_ok {ε α β : Type} {first : Except ε α} {next : α → β} {result : β}
    (same : first.map next = .ok result) : ∃ value, first = .ok value ∧ next value = result := by
  cases first with
  | error cause => cases same
  | ok value => exact ⟨value, rfl, Except.ok.inj same⟩

namespace Json

mutual

/-- How deep a value nests: each array and each object is one level. -/
def depth : Json → Nat
  | null | bool _ | int _ | number _ | string _ | garbled _ => 0
  | array items => depths items + 1
  | object fields => fieldDepths fields + 1

/-- How deep the deepest of several values nests. -/
def depths : List Json → Nat
  | [] => 0
  | first :: rest => max (depth first) (depths rest)

/-- How deep the deepest field of an object nests. -/
def fieldDepths : List (Text × Json) → Nat
  | [] => 0
  | (_, value) :: rest => max (depth value) (fieldDepths rest)

end

/-- A field that gets a value makes its object as deep as that value at the most. -/
theorem fieldDepths_setField_le (name : Text) (value : Json) (fields : List (Text × Json)) :
    fieldDepths (setField name value fields) ≤ max value.depth (fieldDepths fields) := by
  induction fields with
  | nil => simp [setField, fieldDepths]
  | cons field rest ih =>
    rcases field with ⟨other, old⟩
    rw [setField]
    split
    · -- The old value of the field is gone, and the others stay.
      simp only [fieldDepths]
      omega
    · simp only [fieldDepths]
      omega

/-- A value that holds no others is not nested. -/
theorem depth_of_readScalar {cs rest : List Char} {value : Json}
    (read : readScalar cs = .ok (value, rest)) :
    value.depth = 0 := by
  -- A number is whole or not, and both are flat.
  have unsigned {negative : Bool} {cs : List Char}
      (read : readUnsigned negative cs = .ok (value, rest)) :
      value.depth = 0 := by
    grind [readUnsigned, depth]
  unfold readScalar at read
  split at read
  next found same =>
    obtain ⟨⟨word, constant⟩, member, matched⟩ := List.exists_of_findSome?_eq_some same
    -- All of the words stand for flat values.
    have flat : ∀ entry ∈ constants, entry.2.depth = 0 := by simp [constants, depth]
    obtain ⟨after, _, rfl⟩ := Option.map_eq_some_iff.mp matched
    cases read
    exact flat _ member
  · split at read
    · obtain ⟨⟨text, after⟩, _, same⟩ := exists_of_map_eq_ok read
      cases same
      cases text <;> rw [ofText, depth]
    · exact unsigned read
    · exact unsigned read

section

variable {readItem : List Char → Reading Json} {bound : Nat}
  (each : ∀ {cs rest value}, readItem cs = .ok (value, rest) → value.depth ≤ bound)

include each

/-- The items of an array are as deep as one item can be. -/
theorem depths_of_readItems {clock cs rest : List Char} {items : List Json}
    (read : readItems readItem clock cs = .ok (items, rest)) : depths items ≤ bound := by
  induction clock generalizing cs items rest with
  | nil => cases read
  | cons tick clock ih =>
    rw [readItems] at read
    obtain ⟨⟨item, afterItem⟩, found, read⟩ := exists_of_bind_eq_ok read
    have first := each found
    dsimp only at read
    split at read
    · -- The closing bracket stands behind the last item.
      cases read
      simpa [depths] using first
    · obtain ⟨⟨others, after⟩, more, read⟩ := exists_of_bind_eq_ok read
      have later := ih more
      cases read
      simp only [depths]
      omega
    · cases read

/-- The fields of an object are as deep as one value can be. -/
theorem fieldDepths_of_readFields {clock cs rest : List Char} {before fields : List (Text × Json)}
    (shallow : fieldDepths before ≤ bound)
    (read : readFields readItem clock before cs = .ok (fields, rest)) :
    fieldDepths fields ≤ bound := by
  induction clock generalizing cs before fields rest with
  | nil => cases read
  | cons tick clock ih =>
    -- Every field opens with a quote.
    by_cases opens : ∃ more, cs = '"' :: more
    · obtain ⟨more, rfl⟩ := opens
      rw [readFields] at read
      obtain ⟨⟨name, afterName⟩, _, read⟩ := exists_of_bind_eq_ok read
      dsimp only at read
      split at read
      · obtain ⟨⟨value, afterValue⟩, found, read⟩ := exists_of_bind_eq_ok read
        have first := each found
        -- The new field joins those read so far, and takes the place of one of the same name.
        have joined :=
          Nat.le_trans (fieldDepths_setField_le name value before) (Nat.max_le.mpr ⟨first, shallow⟩)
        dsimp only at read
        split at read
        · cases read
          exact joined
        · exact ih joined read
        · cases read
      · cases read
    · rw [readFields] at read
      · cases read
      · simp
      · exact fun _ _ more _ same => opens ⟨more, same⟩

end

/-- A value is read only if it nests within the room there is. -/
theorem depth_of_readValue {room : Nat} {cs rest : List Char} {value : Json}
    (read : readValue room cs = .ok (value, rest)) : value.depth ≤ room := by
  -- What an array or an object holds is read with less room, so the induction is on the room.
  induction room generalizing cs rest value with
  | zero =>
    -- Without room neither an array nor an object is opened.
    unfold readValue at read
    split at read
    · cases read
    · cases read
    · contradiction
    · contradiction
    · exact Nat.le_of_eq (depth_of_readScalar read)
  | succ room ih =>
    unfold readValue at read
    split at read
    · contradiction
    · contradiction
    · rename_i same
      cases same
      split at read
      · cases read
        simp [depth, depths]
      · obtain ⟨⟨items, after⟩, found, same⟩ := exists_of_map_eq_ok read
        cases same
        rw [depth]
        exact Nat.succ_le_succ (depths_of_readItems ih found)
    · rename_i same
      cases same
      split at read
      · cases read
        simp [depth, fieldDepths]
      · obtain ⟨⟨fields, after⟩, found, same⟩ := exists_of_map_eq_ok read
        cases same
        rw [depth]
        exact Nat.succ_le_succ (fieldDepths_of_readFields ih (by simp [fieldDepths]) found)
    · exact Nat.le_trans (Nat.le_of_eq (depth_of_readScalar read)) (Nat.zero_le _)

/-- A text is read only if its value nests within the limit. -/
theorem depth_of_read [Host] {text : String} {value : Json} (read : Json.read text = .ok value) :
    value.depth ≤ nestingLimit := by
  obtain ⟨⟨found, rest⟩, first, last⟩ := exists_of_bind_eq_ok read
  dsimp only at last
  split at last
  · cases last
    exact depth_of_readValue first
  · cases last

end Json

end LoxLang
