import TypedSql.HostType.Basic
import TypedSql.Text.AsciiCase

/-!
# Looking up record members

A member is found by its exact name, or else as the first one whose name agrees up to ASCII case.
-/

namespace TypedSql

/-- The first item with exactly this name, or else the first whose name agrees up to case. -/
def findNamed {α : Type} (nameOf : α → String) (name : String) (items : List α) : Option α :=
  match items.find? fun item => nameOf item == name with
  | some item => some item
  | none => items.find? fun item => Text.sameName (nameOf item) name

/-- What is found is one of the items. -/
theorem findNamed_mem {α : Type} {nameOf : α → String} {name : String} {items : List α} {item : α}
    (h : findNamed nameOf name items = some item) : item ∈ items := by
  unfold findNamed at h
  split at h
  · next found hf =>
    simp only [Option.some.injEq] at h
    exact h ▸ List.mem_of_find?_eq_some hf
  · exact List.mem_of_find?_eq_some h

namespace RecordOf

variable {τ : Type}

/-- The member meant by a name. -/
def member? (r : RecordOf τ) (name : String) : Option (MemberOf τ) :=
  findNamed (·.name) name r.members

/-- The members that can be both read and written. -/
def mappedMembers (r : RecordOf τ) : List (MemberOf τ) :=
  r.members.filter fun m => m.readable && m.writable

end RecordOf

/-- The type of a record's member is smaller than the record. -/
theorem HostType.size_member_lt {r : RecordType} {name : String} {m : Member}
    (h : r.member? name = some m) : m.type.size < (HostType.record r).size := by
  obtain ⟨n, c, members⟩ := r
  rw [HostType.size]
  exact Nat.lt_succ_of_le (HostType.size_le_sizeMembers (findNamed_mem h))

end TypedSql
