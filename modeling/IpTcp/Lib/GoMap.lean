import Mathlib.Data.List.AList
import Mathlib.Data.List.Dedup

/-! Go's maps: association lists with one entry for a key. The order in which `range` goes
through a map is not specified, so it is an argument, given by the keys that come first. -/

set_option autoImplicit false

namespace IpTcp.Lib

abbrev GoMap (Key Value : Type) := AList fun _ : Key => Value

namespace GoMap

variable {Key Value : Type} [DecidableEq Key]

def get (entries : GoMap Key Value) (key : Key) : Option Value := entries.lookup key

theorem get_empty (key : Key) : get (∅ : GoMap Key Value) key = none := AList.lookup_empty key

theorem get_insert (entries : GoMap Key Value) (key other : Key) (value : Value) :
    get (entries.insert key value) other = if other = key then some value else get entries other := by
  split
  · rename_i same
    rw [same]
    exact AList.lookup_insert entries
  · rename_i different
    exact AList.lookup_insert_ne different

theorem get_erase (entries : GoMap Key Value) (key other : Key) :
    get (entries.erase key) other = if other = key then none else get entries other := by
  split
  · rename_i same
    rw [same]
    exact AList.lookup_erase key entries
  · rename_i different
    exact AList.lookup_erase_ne different

theorem mem_keys_iff (entries : GoMap Key Value) (key : Key) :
    key ∈ entries.keys ↔ ∃ value, get entries key = some value := by
  rw [← AList.mem_keys, ← AList.lookup_isSome, Option.isSome_iff_exists]
  rfl

def keysInOrder (entries : GoMap Key Value) (order : List Key) : List Key :=
  order.dedup ++ entries.keys.filter fun key => key ∉ order

def range (entries : GoMap Key Value) (order : List Key) : List (Key × Value) :=
  (entries.keysInOrder order).filterMap fun key => (get entries key).map fun value => (key, value)

theorem mem_range (entries : GoMap Key Value) (order : List Key) (key : Key) (value : Value) :
    (key, value) ∈ range entries order ↔ get entries key = some value := by
  simp only [range, List.mem_filterMap, Option.map_eq_some_iff, Prod.mk.injEq]
  constructor
  · rintro ⟨_, _, _, found, rfl, rfl⟩
    exact found
  · intro found
    refine ⟨key, ?_, value, found, rfl, rfl⟩
    rw [keysInOrder, List.mem_append, List.mem_dedup, List.mem_filter]
    by_cases listed : key ∈ order
    · exact Or.inl listed
    · exact Or.inr ⟨(entries.mem_keys_iff key).mpr ⟨value, found⟩, by simpa using listed⟩

section
variable (entries : GoMap Key Value) (holds : Key → Value → Prop) [∀ key value, Decidable (holds key value)]

instance : Decidable (∀ key value, get entries key = some value → holds key value) :=
  decidable_of_iff (∀ pair ∈ range entries [], holds pair.1 pair.2) (by simp [Prod.forall, mem_range])

instance : Decidable (∃ key value, get entries key = some value ∧ holds key value) :=
  decidable_of_iff (∃ pair ∈ range entries [], holds pair.1 pair.2) (by simp [Prod.exists, mem_range])

end

theorem keysInOrder_nodup (entries : GoMap Key Value) (order : List Key) :
    (entries.keysInOrder order).Nodup := by
  refine List.nodup_append.mpr ⟨List.nodup_dedup order, entries.keys_nodup.filter _, ?_⟩
  rintro key listed other rest rfl
  have absent := (List.mem_filter.mp rest).2
  simp [List.mem_dedup.mp listed] at absent

theorem range_keys_nodup (entries : GoMap Key Value) (order : List Key) :
    ((entries.range order).map Prod.fst).Nodup := by
  have nodup := entries.keysInOrder_nodup order
  unfold range
  generalize entries.keysInOrder order = keys at nodup
  induction keys with
  | nil => simp
  | cons key rest ih =>
      obtain ⟨fresh, nodup⟩ := List.nodup_cons.mp nodup
      rw [List.filterMap_cons]
      cases found : get entries key with
      | none => exact ih nodup
      | some value =>
          refine List.nodup_cons.mpr ⟨?_, ih nodup⟩
          intro again
          simp only [List.mem_map, List.mem_filterMap, Option.map_eq_some_iff] at again
          obtain ⟨_, ⟨_, listed, _, _, rfl⟩, rfl⟩ := again
          exact fresh listed

theorem range_length (entries : GoMap Key Value) (order : List Key) :
    (entries.range order).length = entries.keys.length := by
  have same : ((entries.range order).map Prod.fst).Perm entries.keys := by
    refine (List.perm_ext_iff_of_nodup (entries.range_keys_nodup order) entries.keys_nodup).mpr ?_
    intro key
    rw [mem_keys_iff]
    simp [mem_range]
  rw [← same.length_eq, List.length_map]

end GoMap

end IpTcp.Lib
