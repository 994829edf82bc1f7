import BillOfMaterials.Json

/-! # Parts of JSON values

    What stands under a name in an object, and in the items of a list.

    * `member?`, `items?` and `text?` take one part; `under?`, `list?` and `texts?` read
      parts further.
    * `mapM_map_of_some` and `lookup_map_of_mem` find parts in what was written item
      by item.
    * `HasDistinctNames` are the values in which a look-up passes nothing over. -/

namespace BillOfMaterials.Json

def member? (name : String) : Json → Option Json
  | .object members => members.lookup name
  | _ => none

def items? : Json → Option (List Json)
  | .list items => some items
  | _ => none

def text? : Json → Option String
  | .text value => some value
  | _ => none

/-- A text, or `null` in place of one. -/
def optionalText? : Json → Option (Option String)
  | .null => some none
  | .text value => some (some value)
  | _ => none

/-- The names in an object, in order and as often as they stand there. -/
def names? : Json → Option (List String)
  | .object members => some (members.map Prod.fst)
  | _ => none

/-- The texts under a name in the items of a list. -/
def texts? (list name : String) (json : Json) : Option (List String) := do
  let items ← (json.member? list).bind items?
  items.mapM fun item => (item.member? name).bind text?

section

variable {α β : Type}

/-- What is read under a name. -/
def under? (name : String) (read? : Json → Option α) (json : Json) : Option α :=
  (json.member? name).bind read?

/-- What is read of the items of a list. -/
def list? (read? : Json → Option α) (json : Json) : Option (List α) :=
  json.items?.bind (·.mapM read?)

/-- What is read of every value is read of a row of values. -/
theorem mapM_map_of_some {item : α → Json} {read? : Json → Option β} {view : α → β}
    (h : ∀ value, read? (item value) = some (view value)) (values : List α) :
    (values.map item).mapM read? = some (values.map view) := by
  induction values with
  | nil => rfl
  | cons value values ih =>
    rw [List.map_cons, List.mapM_cons, ih, h]
    rfl

theorem list?_written (item : α → Json) {read? : Json → Option α}
    (h : ∀ value, read? (item value) = some value) (values : List α) :
    list? read? (.list (values.map item)) = some values := by
  have hread := @mapM_map_of_some α α item read? id h values
  rw [List.map_id] at hread
  exact hread

theorem texts?_eq_some (item : α → Json) {json : Json} {list name : String} {values : List α}
    {text : α → String} (hlist : json.member? list = some (.list (values.map item)))
    (hitem : ∀ value, (item value).member? name = some (.text (text value))) :
    json.texts? list name = some (values.map text) := by
  have hread : ∀ value, ((item value).member? name).bind text? = some (text value) := by
    intro value
    rw [hitem]
    rfl
  rw [texts?, hlist]
  exact mapM_map_of_some hread values

/-- Where names are distinct, every value is found under its name. -/
theorem lookup_map_of_mem {name : α → String} {view : α → β} {values : List α}
    (distinct : (values.map name).Nodup) {value : α} (h : value ∈ values) :
    (values.map fun value => (name value, view value)).lookup (name value) = some (view value) := by
  obtain ⟨before, after, rfl⟩ := List.append_of_mem h
  rw [List.map_append, List.map_cons, List.nodup_append] at distinct
  rw [List.lookup_eq_some_iff]
  refine ⟨before.map fun value => (name value, view value),
    after.map fun value => (name value, view value), by simp, ?_⟩
  intro pair hpair
  obtain ⟨other, hother, rfl⟩ := List.mem_map.1 hpair
  have hne := distinct.2.2 (name other) (List.mem_map_of_mem hother) (name value) (by simp)
  simpa using hne.symm

end

/-- No object in the value, at any depth, has two members of one name. -/
inductive HasDistinctNames : Json → Prop where
  | null : HasDistinctNames .null
  | bool (value : Bool) : HasDistinctNames (.bool value)
  | text (value : String) : HasDistinctNames (.text value)
  | list {items : List Json} : (∀ item ∈ items, HasDistinctNames item) →
      HasDistinctNames (.list items)
  | object {members : List (String × Json)} : (members.map Prod.fst).Nodup →
      (∀ member ∈ members, HasDistinctNames member.2) → HasDistinctNames (.object members)

end BillOfMaterials.Json
