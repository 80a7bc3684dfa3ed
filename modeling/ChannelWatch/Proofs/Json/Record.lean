import ChannelWatch.Json.Record
import ChannelWatch.Proofs.Places
import Mathlib.Data.List.Forall2
import Mathlib.Data.List.Nodup

/-!
# Records that carry values

An object carries some keys if each of them stands once among its members, with a value that says what is asked of the key, or does
not stand there and may be left out (`Json.Carries`). Where a key stands and what else the object has is free. The fields of a record
are read from every object that carries them (`fields?_of_carries`).
-/

namespace ChannelWatch.Json

/-- The members of a record have texts for keys. -/
theorem namedMembers?_record (members : List (String × Json)) :
    namedMembers? (members.map fun m => (some m.1, m.2)) = some members := by
  induction members with
  | nil => rfl
  | cons m members ih => simp [namedMembers?, ih]

theorem fields?_record (keys : List String) (members : List (String × Json)) :
    (record members).fields? keys = keys.mapM (member? members) := by
  simp only [record, fields?, namedMembers?_record]

/-! ## Carrying keys -/

/-- A key of a record: what its value has to say, and when it may be left out. -/
structure Key where
  name : String
  Says : Json → Prop
  Optional : Prop

/-- A key stands once among the members of an object, with a value. -/
def StandsOnce (members : List (String × Json)) (name : String) (v : Json) : Prop :=
  ∃ before after, members = before ++ (name, v) :: after ∧ (∀ m ∈ before, m.1 ≠ name) ∧ ∀ m ∈ after, m.1 ≠ name

/-- A key does not stand among the members of an object. -/
def IsMissing (members : List (String × Json)) (name : String) : Prop :=
  ∀ m ∈ members, m.1 ≠ name

instance (members : List (String × Json)) (name : String) : Decidable (IsMissing members name) :=
  inferInstanceAs (Decidable (∀ m ∈ members, m.1 ≠ name))

/-- The value is an object that carries some keys, wherever they stand in it and whatever else it has. -/
def Carries (j : Json) (keys : List Key) : Prop :=
  ∃ members, j = record members ∧
    ∀ key ∈ keys, (∃ v, key.Says v ∧ StandsOnce members key.name v) ∨ key.Optional ∧ IsMissing members key.name

/-- What is read for a key is right: a value that says what is asked, or nothing where it may be left out. -/
def Key.IsGiven (key : Key) : Option Json → Prop
  | some v => key.Says v
  | none => key.Optional

/-- The value of a key that stands once is found. -/
theorem member?_of_standsOnce {members : List (String × Json)} {name : String} {v : Json} (h : StandsOnce members name v) :
    member? members name = some (some v) := by
  obtain ⟨before, after, rfl, hbefore, hafter⟩ := h
  have hfilter : (before ++ (name, v) :: after).filter (·.1 = name) = [(name, v)] := by
    have hnone : ∀ {others : List (String × Json)}, (∀ m ∈ others, m.1 ≠ name) → others.filter (·.1 = name) = [] := fun h =>
      List.filter_eq_nil_iff.mpr fun m hm => by simpa using h m hm
    rw [List.filter_append, hnone hbefore, List.filter_cons, if_pos (decide_eq_true rfl), hnone hafter]
    rfl
  rw [member?, hfilter]

theorem member?_of_isMissing {members : List (String × Json)} {name : String} (h : IsMissing members name) :
    member? members name = some none := by
  rw [member?, List.filter_eq_nil_iff.mpr fun m hm => by simpa using h m hm]

/-- The fields of a record are read back from all of its members. -/
theorem fields?_record_keys {members : List (String × Json)} {keys : List String} (hkeys : members.map Prod.fst = keys)
    (h : keys.Nodup) : (record members).fields? keys = some (members.map fun m => some m.2) := by
  subst hkeys
  have hmember : ∀ m ∈ members, member? members m.1 = some (some m.2) := by
    intro m hm
    obtain ⟨before, after, rfl⟩ := List.append_of_mem hm
    rw [List.map_append, List.map_cons, List.nodup_middle, List.nodup_cons, List.mem_append, not_or] at h
    exact member?_of_standsOnce ⟨before, after, rfl, fun o ho heq => h.1.1 (heq ▸ List.mem_map_of_mem ho),
      fun o ho heq => h.1.2 (heq ▸ List.mem_map_of_mem ho)⟩
  rw [fields?_record, mapM_eq_some_iff, List.map_map, List.map_map]
  exact List.map_congr_left hmember

/-- The fields of a record are read from an object that carries its keys. -/
theorem fields?_of_carries {j : Json} {keys : List Key} (h : j.Carries keys) :
    ∃ given, j.fields? (keys.map Key.name) = some given ∧ List.Forall₂ Key.IsGiven keys given := by
  obtain ⟨members, rfl, hmembers⟩ := h
  rw [fields?_record]
  induction keys with
  | nil => exact ⟨[], rfl, .nil⟩
  | cons key keys ih =>
    obtain ⟨given, hgiven, hkeys⟩ := ih fun k hk => hmembers k (List.mem_cons_of_mem key hk)
    obtain ⟨value, hvalue, hkey⟩ : ∃ value, member? members key.name = some value ∧ key.IsGiven value := by
      rcases hmembers key List.mem_cons_self with ⟨v, hsaid, honce⟩ | ⟨hoptional, hmissing⟩
      · exact ⟨some v, member?_of_standsOnce honce, hsaid⟩
      · exact ⟨none, member?_of_isMissing hmissing, hoptional⟩
    refine ⟨value :: given, ?_, .cons hkey hkeys⟩
    rw [List.map_cons, List.mapM_cons, hvalue, hgiven]
    rfl

/-- A field is read as the value that its key says, or as its default where the default may be left out. -/
theorem field?_of_isGiven {α : Type} {key : Key} {given : Option Json} (h : key.IsGiven given) {decode : Json → Option α}
    {default x : α} (hsaid : ∀ v, key.Says v → decode v = some x) (hoptional : key.Optional → x = default) :
    field? decode default given = some x := by
  cases given with
  | some v => exact hsaid v h
  | none => exact congrArg some (hoptional h).symm

end ChannelWatch.Json
