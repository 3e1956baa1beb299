import TypedSql.Proofs.Catalog.Lookup
import TypedSql.Proofs.Mapping.Matching

/-!
# Values read back from their documents

A value of a type made of scalars, options, lists and records is written as a JSON document and
read back in the shape of its type. Integers come back at their own width, floats as they are, and
records with the same entries. The one condition is on records that have members whose names differ
only in the case of ASCII letters: a member takes the first key that agrees, so such members have
to stand in key order.
-/

namespace TypedSql

open Result

-- Powers are those of the core library, whatever else is imported.
attribute [local instance (high)] instPowNat

/-! ## Integers -/

/-- A signed integer is kept by the number made of it. -/
theorem JsonNumber.toInt64?_ofInt64 (n : Int64) : (JsonNumber.ofInt64 n).toInt64? = some n := by
  unfold JsonNumber.ofInt64
  split
  next => rfl
  next hnonneg =>
    have hzero : (0 : Int64) ≤ n := Int64.not_lt.mp hnonneg
    have hle : n.toUInt64.toNat ≤ Int64.maxValue.toInt := by
      rw [Int64.toNat_toUInt64_of_le hzero, Int64.toNatClampNeg, Int64.toInt_maxValue]
      have := n.toInt_lt
      omega
    simp [toInt64?, hle]

namespace HostType

/-! ## Types -/

/-- The scalar types whose values a document keeps. -/
def jsonScalars : List ScalarType :=
  [.bool, .string, .i8, .i16, .i32, .i64, .u8, .u16, .u32, .u64, .f64]

/-- The types whose values a document keeps: some scalar types, and options, lists and records of
such types, where the members of a record have distinct names. -/
inductive JsonShaped : HostType → Prop
  | scalar {s : ScalarType} (hs : s ∈ jsonScalars) : JsonShaped (.scalar s)
  | option {inner : HostType} (h : JsonShaped inner) : JsonShaped (.option inner)
  | list {l : ListType} (h : JsonShaped l.element) : JsonShaped (.list l)
  | record {r : RecordType} (hnames : (r.members.map (·.name)).Nodup)
      (h : ∀ m ∈ r.members, JsonShaped m.type) : JsonShaped (.record r)

/-- In every record of a type, members whose names agree up to ASCII case stand in the order of
their names. -/
inductive InKeyOrder : HostType → Prop
  | scalar {s : ScalarType} : InKeyOrder (.scalar s)
  | option {inner : HostType} (h : InKeyOrder inner) : InKeyOrder (.option inner)
  | list {l : ListType} (h : InKeyOrder l.element) : InKeyOrder (.list l)
  | record {r : RecordType} (hmembers : Json.InKeyOrder r.members)
      (h : ∀ m ∈ r.members, InKeyOrder m.type) : InKeyOrder (.record r)

/-- The document of a value is read back as the same value. -/
def RoundTrips (t : HostType) (v : Value) : Prop :=
  ∃ j w, v.toDocument = .ok j ∧ j.toValue t = .ok w ∧ v.same w = true

variable {t : HostType} {v : Value}

/-- Null is read back as null. -/
theorem JsonShaped.toValue_null (ht : t.JsonShaped) : Json.toValue t .null = .ok .null := by
  induction ht with
  | option _ ih => rwa [Json.toValue]
  | _ => rfl

/-! ## Scalars -/

/-- An integer is written as a number that gives it back at its width. -/
theorem exists_integerAs? {s : ScalarType} (hs : (HostType.scalar s).isInteger = true)
    (hv : v.scalarType? = some s) :
    ∃ n, v.toDocument = .ok (.number n) ∧ Json.integerAs? n (.scalar s) = some v := by
  cases v <;> cases hv
  case i8 n | i16 n | i32 n =>
    have := n.le_toInt
    have := n.toInt_lt
    refine ⟨_, rfl, ?_⟩
    simp [Json.integerAs?, Json.signedWithin, JsonNumber.toInt64?_ofInt64]
    omega
  case i64 n => exact ⟨_, rfl, by simp [Json.integerAs?, JsonNumber.toInt64?_ofInt64]⟩
  case u8 n | u16 n | u32 n =>
    have := n.toNat_lt
    refine ⟨_, rfl, ?_⟩
    simp [Json.integerAs?, Json.unsignedWithin, JsonNumber.toUInt64?]
    omega
  case u64 n => exact ⟨_, rfl, by simp [Json.integerAs?, JsonNumber.toUInt64?]⟩
  all_goals cases hs

/-- A scalar that a document keeps is read back as it is. -/
theorem toValue_scalar {s : ScalarType} (hs : s ∈ jsonScalars) {j : Json}
    (hv : v.scalarType? = some s) (hj : v.toDocument = .ok j) :
    j.toValue (.scalar s) = .ok v := by
  by_cases hinteger : (HostType.scalar s).isInteger = true
  · obtain ⟨n, hn, hread⟩ := exists_integerAs? hinteger hv
    obtain rfl : Json.number n = j := by simpa [hn] using hj
    have hfloat : (HostType.scalar s).isFloat = false := by
      cases s <;> first | rfl | cases hinteger
    simp [Json.toValue, hfloat, hinteger, hread]
  · cases v with
    | f64 x =>
      cases hv
      rw [Value.toDocument, Value.floatDocument] at hj
      split at hj
      next =>
        cases hj
        rfl
      next => cases hj
    | bool | string =>
      cases hv
      cases hj
      rfl
    | i8 | i16 | i32 | i64 | u8 | u16 | u32 | u64 =>
      cases hv
      exact absurd rfl hinteger
    | null | enum | list | multi | record => cases hv
    | _ =>
      cases hv
      exact absurd hs (by decide)

/-- A scalar that a document keeps is the same as itself if it is finite. -/
theorem same_scalar {s : ScalarType} (hs : s ∈ jsonScalars) (hv : v.scalarType? = some s)
    (hfinite : v.Finite) : v.same v = true := by
  cases v <;> cases hv
  case f64 x =>
    have hnan : ¬x.isNaN = true := fun h => Numeral.Binary64.not_isFinite_of_isNaN h hfinite
    simp [Value.same, Numeral.Binary64.ieeeEq, hnan]
  case f32 | decimal | bigDecimal | zoned | json => exact absurd hs (by decide)
  all_goals exact beq_self_eq_true _

/-! ## Lists and records -/

/-- Items are read back one by one. -/
theorem exists_itemsRead {items : List Value} {js : List Json}
    (hjs : items.mapM Value.toDocument = .ok js)
    (h : ∀ item ∈ items, ∀ j, item.toDocument = .ok j →
      ∃ w, j.toValue t = .ok w ∧ item.same w = true) :
    ∃ ws, js.mapM (Json.toValue t) = .ok ws ∧ Value.sameItems items ws = true := by
  induction items generalizing js with
  | nil =>
    cases hjs
    exact ⟨[], rfl, rfl⟩
  | cons first rest ih =>
    rw [List.mapM_cons] at hjs
    obtain ⟨j, hj, hrest⟩ := bind_eq_ok.mp hjs
    obtain ⟨others, hothers, heq⟩ := bind_eq_ok.mp hrest
    cases heq
    rw [List.forall_mem_cons] at h
    obtain ⟨w, hw, hsame⟩ := h.1 j hj
    obtain ⟨ws, hws, hsames⟩ := ih hothers h.2
    refine ⟨w :: ws, ?_, ?_⟩
    · rw [List.mapM_cons, hw, hws]
      rfl
    · rw [Value.sameItems, hsame, hsames]
      rfl

/-- A record whose members take their own keys is read back when its values are. -/
theorem exists_recordRead {r : RecordType} {entries : Record} {members : List (String × Json)}
    (hnames : (r.members.map (·.name)).Nodup) (horder : Json.InKeyOrder r.members)
    (hperm : entries.names.Perm (r.members.map (·.name))) (hdistinct : entries.Distinct)
    (hmembers : Value.entryDocuments [] entries.toList = .ok members)
    (h : ∀ m ∈ r.members, ∀ v, (m.name, v) ∈ entries.toList → ∀ j, v.toDocument = .ok j →
      ∃ w, j.toValue m.type = .ok w ∧ v.same w = true) :
    ∃ s, Json.toEntries r.members members .empty = .ok s ∧
      (Value.record entries).same (.record s) = true := by
  obtain ⟨hsorted, hkeys, hvalues⟩ := Value.keySorted_of_entryDocuments .nil hdistinct hmembers
  have htaken : Json.keysTaken r.members (members.map Prod.fst) =
      r.members.map fun m => (m, m.name) :=
    Json.keysTaken_eq (List.pairwise_map.mpr hsorted) (hkeys.trans hperm) horder
  have hsource {name : String} {j : Json} (hj : (name, j) ∈ members) :
      ∃ v, (name, v) ∈ entries.toList ∧ v.toDocument = .ok j :=
    (hvalues name j hj).resolve_left List.not_mem_nil
  obtain ⟨s, hs⟩ : Succeeds (Json.toEntries r.members members .empty) := by
    refine Json.succeeds_toEntries fun x hx j hj => ?_
    rw [htaken] at hx
    obtain ⟨m, hm, rfl⟩ := List.mem_map.mp hx
    obtain ⟨v, hv, hdocument⟩ := hsource hj
    obtain ⟨w, hw, -⟩ := h m hm v hv j hdocument
    exact ⟨w, hw⟩
  obtain ⟨added, hadded, hread⟩ := Json.forall₂_of_toEntries (by exact hnames) hs
  rw [htaken, List.forall₂_map_left_iff] at hread
  have hadded' : s.toList = added := hadded
  -- the entries that are read have the names of the members, in their order
  have hsnames : s.names = r.members.map (·.name) := by
    rw [Entries.names, hadded', ← List.forall₂_eq_eq_eq, List.forall₂_map_left_iff,
      List.forall₂_map_right_iff]
    exact hread.flip.imp fun _ _ hentry => hentry.1
  have hsdistinct : s.Distinct := by
    rw [Entries.Distinct, hsnames]
    exact hnames
  refine ⟨s, hs, ?_⟩
  rw [Value.same, Bool.and_eq_true]
  constructor
  · have hlength : entries.names.length = s.names.length := by rw [hsnames, hperm.length_eq]
    simpa [Entries.names, Entries.size] using hlength
  · refine Value.sameEntries_iff.mpr fun entry hentry => ?_
    obtain ⟨m, hm, hname⟩ := List.mem_map.mp (hperm.mem_iff.mp (List.mem_map_of_mem hentry))
    obtain ⟨read, hmem, hreadname, j, hj, hvalue⟩ := exists_mem_of_forall₂ hread hm
    obtain ⟨v, hv, hdocument⟩ := hsource hj
    obtain ⟨w, hw, hsame⟩ := h m hm v hv j hdocument
    obtain rfl : w = read.2 := by simpa [hw] using hvalue
    obtain rfl : v = entry.2 := by
      have hget := Entries.get?_of_mem hdistinct (show (entry.1, entry.2) ∈ _ from hentry)
      rw [← hname, Entries.get?_of_mem hdistinct hv] at hget
      exact Option.some.inj hget
    have hsmem : (entry.1, read.2) ∈ s.toList := by
      rw [← hname, ← show read.1 = m.name from hreadname, hadded']
      exact hmem
    exact ⟨read.2, Entries.get?_of_mem hsdistinct hsmem, hsame⟩

/-- The entries of a conforming record have the names of its members. -/
theorem Conforms.names_perm {r : RecordType} {entries : Record}
    (h : Conforms (.record r) (.record entries)) (hnodup : (r.members.map (·.name)).Nodup) :
    entries.names.Perm (r.members.map (·.name)) := by
  cases h with
  | record hdistinct hmembers hnames _ =>
    refine (List.perm_ext_iff_of_nodup hdistinct hnodup).mpr fun name => ⟨fun hname => ?_, ?_⟩
    · obtain ⟨m, hm, rfl⟩ := hnames name hname
      exact List.mem_map_of_mem hm
    · intro hname
      obtain ⟨m, hm, rfl⟩ := List.mem_map.mp hname
      obtain ⟨v, hv⟩ := Option.isSome_iff_exists.mp (hmembers m hm)
      exact List.mem_map_of_mem (Entries.mem_of_get? hv)

/-! ## Types in key order -/

/-- The document of a value is read back as the same value, at a type in key order. -/
theorem exists_toValue (ht : t.JsonShaped) (horder : t.InKeyOrder) {j : Json}
    (hv : t.Conforms v) (hfinite : v.Finite) (hj : v.toDocument = .ok j) :
    ∃ w, j.toValue t = .ok w ∧ v.same w = true := by
  induction ht generalizing v j with
  | @scalar s hs =>
    cases hv with
    | null =>
      cases hj
      exact ⟨.null, (JsonShaped.scalar hs).toValue_null, rfl⟩
    | scalar hv => exact ⟨v, toValue_scalar hs hv hj, same_scalar hs hv hfinite⟩
  | option _ ih =>
    cases horder with
    | option horder =>
      rw [Json.toValue]
      exact ih horder hv.of_option hfinite hj
  | @list l helement ih =>
    cases horder with
    | list horder =>
      rcases hv.list_cases with rfl | ⟨items, rfl⟩
      · cases hj
        exact ⟨.null, rfl, rfl⟩
      · rw [Value.toDocument, Value.itemDocuments_eq] at hj
        obtain ⟨js, hjs, rfl⟩ := map_eq_ok.mp hj
        rw [Value.Finite, Value.finiteItems_iff] at hfinite
        obtain ⟨ws, hws, hsame⟩ := exists_itemsRead hjs fun item hitem j hj =>
          ih horder (hv.items item hitem) (hfinite item hitem) hj
        exact ⟨.list ws, map_eq_ok.mpr ⟨ws, hws, rfl⟩, hsame⟩
  | @record r hnodup _ ih =>
    cases horder with
    | record hmembers horder =>
      rcases hv.record_cases with rfl | ⟨entries, rfl⟩
      · cases hj
        exact ⟨.null, rfl, rfl⟩
      · rw [Value.toDocument] at hj
        obtain ⟨members, hdocument, rfl⟩ := map_eq_ok.mp hj
        rw [Value.Finite, Value.finiteEntries_iff] at hfinite
        have hperm := hv.names_perm hnodup
        cases hv with
        | record hdistinct _ _ hconforms =>
          obtain ⟨s, hs, hsame⟩ := exists_recordRead hnodup hmembers hperm hdistinct hdocument
            fun m hm v hv j hj => ih m hm (horder m hm)
              (hconforms m hm v (Entries.get?_of_mem hdistinct hv)) (hfinite _ hv) hj
          exact ⟨.record s, map_eq_ok.mpr ⟨s, hs, rfl⟩, hsame⟩

end HostType

/-! ## Types out of key order -/

/-- A record with a value under one name and null under the others. -/
def RecordOf.single (r : RecordType) (name : String) (v : Value) : Record :=
  ⟨r.members.map fun m => (m.name, if m.name = name then v else .null)⟩

namespace HostType

variable {t : HostType} {v : Value} {r : RecordType} {name : String}

/-- A record with one value has the names of the members. -/
theorem names_single (r : RecordType) (name : String) (v : Value) :
    (r.single name v).names = r.members.map (·.name) := by
  simp [RecordOf.single, Entries.names]

/-- A record with one value conforms when the value does. -/
theorem conforms_single (hnodup : (r.members.map (·.name)).Nodup)
    (hv : ∀ m ∈ r.members, m.name = name → m.type.Conforms v) :
    Conforms (.record r) (.record (r.single name v)) := by
  have hdistinct : (r.single name v).Distinct := by rwa [Entries.Distinct, names_single]
  have hget {m : Member} (hm : m ∈ r.members) :
      (r.single name v).get? m.name = some (if m.name = name then v else .null) :=
    Entries.get?_of_mem hdistinct (List.mem_map.mpr ⟨m, hm, rfl⟩)
  refine .record hdistinct (fun m hm => by simp [hget hm]) (fun n hn => ?_) fun m hm w hw => ?_
  · rw [names_single] at hn
    exact List.mem_map.mp hn
  · rw [hget hm] at hw
    obtain rfl := Option.some.inj hw
    split
    next hname => exact hv m hm hname
    next => exact .null

/-- A record with one value is finite when the value is. -/
theorem finite_single (hv : v.Finite) : (Value.record (r.single name v)).Finite := by
  rw [Value.Finite, RecordOf.single, Value.finiteEntries_iff]
  intro entry hentry
  obtain ⟨m, -, rfl⟩ := List.mem_map.mp hentry
  dsimp only
  split
  · exact hv
  · trivial

/-- Every type has a value that is not null. -/
theorem JsonShaped.exists_value (ht : t.JsonShaped) :
    ∃ v, t.Conforms v ∧ v.Finite ∧ v ≠ .null := by
  induction ht with
  | @scalar s hs =>
    cases s with
    | bool => exact ⟨.bool true, .scalar rfl, trivial, Value.noConfusion⟩
    | string => exact ⟨.string "", .scalar rfl, trivial, Value.noConfusion⟩
    | i8 => exact ⟨.i8 0, .scalar rfl, trivial, Value.noConfusion⟩
    | i16 => exact ⟨.i16 0, .scalar rfl, trivial, Value.noConfusion⟩
    | i32 => exact ⟨.i32 0, .scalar rfl, trivial, Value.noConfusion⟩
    | i64 => exact ⟨.i64 0, .scalar rfl, trivial, Value.noConfusion⟩
    | u8 => exact ⟨.u8 0, .scalar rfl, trivial, Value.noConfusion⟩
    | u16 => exact ⟨.u16 0, .scalar rfl, trivial, Value.noConfusion⟩
    | u32 => exact ⟨.u32 0, .scalar rfl, trivial, Value.noConfusion⟩
    | u64 => exact ⟨.u64 0, .scalar rfl, trivial, Value.noConfusion⟩
    | f64 => exact ⟨.f64 ⟨0⟩, .scalar rfl, rfl, Value.noConfusion⟩
    | _ => exact absurd hs (by decide)
  | option _ ih =>
    obtain ⟨v, hv, hfinite, hne⟩ := ih
    exact ⟨v, .option hv, hfinite, hne⟩
  | @list l =>
    refine ⟨.list [], ?_, trivial, Value.noConfusion⟩
    by_cases hbytes : l = ⟨.scalar .u8, .array⟩
    · subst hbytes
      exact .bytes fun _ h => absurd h List.not_mem_nil
    · exact .list hbytes fun _ h => absurd h List.not_mem_nil
  | @record r hnodup =>
    exact ⟨.record (r.single "" .null), conforms_single hnodup fun _ _ _ => .null,
      finite_single trivial, Value.noConfusion⟩

/-- Only null is the same as null. -/
theorem eq_null_of_same (h : v.same .null = true) : v = .null := by
  cases v <;> first | rfl | cases h

/-- A record with one value that is not null is read back only if its member takes its own key. -/
theorem RoundTrips.of_single {m : Member} {members : List (String × Json)}
    (hnodup : (r.members.map (·.name)).Nodup) (hm : m ∈ r.members) (hshaped : m.type.JsonShaped)
    (hsorted : Json.KeySorted members)
    (hkeys : (members.map Prod.fst).Perm (r.members.map (·.name))) (hne : v ≠ .null)
    (h : RoundTrips (.record r) (.record (r.single m.name v))) :
    (m, m.name) ∈ Json.keysTaken r.members (members.map Prod.fst) ∧ m.type.RoundTrips v := by
  obtain ⟨j, w, hj, hw, hsame⟩ := h
  rw [Value.toDocument] at hj
  obtain ⟨written, hwritten, rfl⟩ := map_eq_ok.mp hj
  obtain ⟨s, hs, rfl⟩ := map_eq_ok.mp hw
  have hnames := names_single r m.name v
  have hdistinct : (r.single m.name v).Distinct := by rwa [Entries.Distinct, hnames]
  obtain ⟨hwsorted, hwkeys, hwvalues⟩ := Value.keySorted_of_entryDocuments .nil hdistinct hwritten
  have hperm : (members.map Prod.fst).Perm (written.map Prod.fst) :=
    hkeys.trans (hnames ▸ hwkeys : (written.map Prod.fst).Perm (r.members.map (·.name))).symm
  rw [hsorted.keys_eq hwsorted hperm]
  have hmem : (m.name, v) ∈ (r.single m.name v).toList :=
    List.mem_map.mpr ⟨m, hm, by rw [if_pos rfl]⟩
  rw [Value.same, Bool.and_eq_true] at hsame
  obtain ⟨read, hget, hread⟩ := Value.sameEntries_iff.mp hsame.2 _ hmem
  obtain ⟨added, hadded, htaken⟩ := Json.forall₂_of_toEntries (by exact hnodup) hs
  obtain ⟨⟨member, key⟩, hx, hname, j, hj, hvalue⟩ :=
    exists_mem_of_forall₂ htaken.flip (hadded ▸ Entries.mem_of_get? hget)
  obtain rfl : m = member :=
    List.inj_on_of_nodup_map hnodup hm (Json.of_mem_keysTaken hx).1 hname
  obtain ⟨u, hu, hdocument⟩ := (hwvalues key j hj).resolve_left List.not_mem_nil
  obtain ⟨other, hother, hentry⟩ := List.mem_map.mp hu
  obtain ⟨rfl, rfl⟩ := Prod.mk.inj hentry
  split at hdocument
  next hown => exact ⟨hown ▸ hx, j, read, hdocument, hvalue, hread⟩
  next =>
    -- under another key stands null
    cases hdocument
    obtain rfl : Value.null = read := by simpa [hshaped.toValue_null] using hvalue
    exact absurd (eq_null_of_same hread) hne

/-- A type whose values are all read back from their documents is in key order. -/
theorem inKeyOrder_of_roundTrips (ht : t.JsonShaped)
    (h : ∀ v, t.Conforms v → v.Finite → t.RoundTrips v) : t.InKeyOrder := by
  induction ht with
  | scalar => exact .scalar
  | option _ ih =>
    refine .option (ih fun v hv hfinite => ?_)
    obtain ⟨j, w, hj, hw, hsame⟩ := h v (.option hv) hfinite
    rw [Json.toValue] at hw
    exact ⟨j, w, hj, hw, hsame⟩
  | @list l _ ih =>
    refine .list ?_
    by_cases hbytes : l = ⟨.scalar .u8, .array⟩
    · subst hbytes
      exact .scalar
    · refine ih fun v hv hfinite => ?_
      obtain ⟨j, w, hj, hw, hsame⟩ :=
        h (.list [v]) (.list hbytes (by simpa using hv)) ⟨hfinite, trivial⟩
      rw [Value.toDocument, Value.itemDocuments_eq] at hj
      obtain ⟨js, hjs, rfl⟩ := map_eq_ok.mp hj
      obtain ⟨ws, hws, rfl⟩ := map_eq_ok.mp hw
      rw [List.mapM_cons] at hjs
      obtain ⟨j, hitem, hnil⟩ := bind_eq_ok.mp hjs
      cases hnil
      rw [List.mapM_cons] at hws
      obtain ⟨w, hread, hnil⟩ := bind_eq_ok.mp hws
      cases hnil
      rw [Value.same, Value.sameItems, Bool.and_eq_true] at hsame
      exact ⟨j, w, hitem, hread, hsame.1⟩
  | @record r hnodup hmembers ih =>
    have hroundTrips {m : Member} (hm : m ∈ r.members) {v : Value} (hv : m.type.Conforms v)
        (hfinite : v.Finite) : RoundTrips (.record r) (.record (r.single m.name v)) := by
      refine h _ (conforms_single hnodup fun m' hm' hname => ?_) (finite_single hfinite)
      rwa [List.inj_on_of_nodup_map hnodup hm' hm hname]
    -- the document of any record of the type shows the keys
    obtain ⟨j, hj⟩ := Value.succeeds_toDocument
      (conforms_single (r := r) (v := .null) hnodup fun _ _ (_ : _ = "") => .null)
      (finite_single trivial)
    obtain ⟨members, hdocument, -⟩ := map_eq_ok.mp hj
    have hnames := names_single r "" .null
    have hdistinct : (r.single "" .null).Distinct := by rwa [Entries.Distinct, hnames]
    obtain ⟨hsorted, hkeys, -⟩ := Value.keySorted_of_entryDocuments .nil hdistinct hdocument
    have hperm : (members.map Prod.fst).Perm (r.members.map (·.name)) := hnames ▸ hkeys
    refine .record ?_ fun m hm => ih m hm fun v hv hfinite => ?_
    · refine Json.inKeyOrder_of_keysTaken (List.pairwise_map.mpr hsorted) hnodup fun m hm => ?_
      obtain ⟨v, hv, hfinite, hne⟩ := (hmembers m hm).exists_value
      exact ((hroundTrips hm hv hfinite).of_single hnodup hm (hmembers m hm) hsorted hperm hne).1
    · by_cases hnull : v = .null
      · subst hnull
        exact ⟨.null, .null, rfl, (hmembers m hm).toValue_null, rfl⟩
      · exact ((hroundTrips hm hv hfinite).of_single hnodup hm (hmembers m hm) hsorted hperm
          hnull).2

/-- The values of a type are all read back from their documents exactly when the type is in key
order. -/
theorem forall_roundTrips_iff (ht : t.JsonShaped) :
    (∀ v, t.Conforms v → v.Finite → t.RoundTrips v) ↔ t.InKeyOrder := by
  refine ⟨inKeyOrder_of_roundTrips ht, fun horder v hv hfinite => ?_⟩
  obtain ⟨j, hj⟩ := Value.succeeds_toDocument hv hfinite
  obtain ⟨w, hw, hsame⟩ := exists_toValue ht horder hv hfinite hj
  exact ⟨j, w, hj, hw, hsame⟩

end HostType

/-! ## Stored values -/

/-- A document mapping keeps a value exactly when its document is read back. -/
theorem Mapping.stored_document_iff {m : Mapping} (hconverter : m.converter = some .toJson)
    (hcomposite : m.type.isRecord = true ∨ m.type.isList = true) {v : Value}
    (hv : m.type.Conforms v) :
    (∃ stored w, m.toStored v = .ok stored ∧ m.ofStored stored = .ok w ∧ v.same w = true) ↔
      m.type.RoundTrips v := by
  have hread (j : Json) : m.ofStored (.json j) = j.toValue m.type := by
    simp [ofStored, hconverter, Value.isNull, Converter.ofStored]
  rcases hv.composite_cases hcomposite with rfl | hforms
  · have hnull : Json.toValue m.type .null = .ok .null := by
      cases htype : m.type <;> simp [htype, HostType.isRecord, HostType.isList] at hcomposite <;> rfl
    have hkept : m.ofStored .null = .ok .null := by simp [ofStored, hconverter, Value.isNull]
    have hstored : m.toStored .null = .ok .null := by simp [toStored, hconverter, Value.isNull]
    exact iff_of_true ⟨.null, .null, hstored, hkept, rfl⟩ ⟨.null, .null, rfl, hnull, rfl⟩
  · have hstored : m.toStored v = v.toDocument.map .json := by
      rcases hforms with ⟨entries, rfl⟩ | ⟨items, rfl⟩
      · simp [toStored, hconverter, Value.isNull, Converter.toStored]
      · simp [toStored, hconverter, Value.isNull, Converter.toStored]
    constructor
    · rintro ⟨stored, w, hv, hw, hsame⟩
      rw [hstored] at hv
      obtain ⟨j, hj, rfl⟩ := map_eq_ok.mp hv
      exact ⟨j, w, hj, hread j ▸ hw, hsame⟩
    · rintro ⟨j, w, hj, hw, hsame⟩
      exact ⟨.json j, w, hstored ▸ map_eq_ok.mpr ⟨j, hj, rfl⟩, (hread j).trans hw, hsame⟩

namespace Catalog

/-- Records and lists under the store type of documents are stored as documents. -/
theorem resolve_document (c : Catalog) {t : HostType}
    (hcomposite : t.isRecord = true ∨ t.isList = true) :
    c.resolve (some t) (some "JSON") =
      some ((Builtin.json.mapping.withType t).withConverter .toJson) := by
  have hkey : Key.of (some t) (some "JSON".toList) = ⟨some t, some "JSON".toList⟩ := rfl
  have hpair : c.resolveKey ⟨some t, some "JSON".toList⟩ =
      (scalarNamed? "JSON".toList).bind (scalarPair? t "JSON".toList) := by
    refine resolveKey_pair (parse?_builtin .json) ?_ ?_
    · rintro inner rfl
      simp [HostType.isRecord, HostType.isList] at hcomposite
    · rintro e rfl
      simp [HostType.isRecord, HostType.isList] at hcomposite
  have hne : ¬Builtin.json.mapping.type = t := by
    rintro rfl
    simp [HostType.isRecord, HostType.isList, Builtin.mapping, Mapping.scalar] at hcomposite
  rw [resolve, Option.map_some, hkey, hpair,
    show scalarNamed? "JSON".toList = some Builtin.json.mapping from scalarNamed?_builtin .json,
    Option.bind_some, scalarPair?, if_neg hne, if_pos ⟨rfl, hcomposite⟩]

/-- Records and lists under the store type of documents have a mapping, and all their values are
read back from what is stored for them exactly when the type is in key order. -/
theorem ofStored_toStored_iff (c : Catalog) {t : HostType} (ht : t.JsonShaped)
    (hcomposite : t.isRecord = true ∨ t.isList = true) :
    ∃ m, c.resolve (some t) (some "JSON") = some m ∧
      ((∀ v, t.Conforms v → v.Finite → ∃ stored w,
        m.toStored v = .ok stored ∧ m.ofStored stored = .ok w ∧ v.same w = true) ↔
          t.InKeyOrder) := by
  refine ⟨_, c.resolve_document hcomposite, ?_⟩
  rw [← HostType.forall_roundTrips_iff ht]
  exact forall₃_congr fun v hv _ => Mapping.stored_document_iff rfl hcomposite hv

section Examples

/-- A record with two members whose names differ in case. -/
def caseTwins (first second : String) : HostType :=
  .record ⟨"Twins", false,
    [⟨first, .scalar .i64, true, true⟩, ⟨second, .option (.scalar .i64), true, true⟩]⟩

/-- The members of such a record are written to documents when their names are distinct. -/
theorem jsonShaped_caseTwins (first second : String) (h : first ≠ second) :
    (caseTwins first second).JsonShaped := by
  refine .record (by simpa using h) fun m hm => ?_
  simp only [List.mem_cons, List.not_mem_nil, or_false] at hm
  rcases hm with rfl | rfl
  · exact .scalar (by decide)
  · exact .option (.scalar (by decide))

/-- Members whose names differ in case are read back when they stand in key order. -/
theorem ofStored_toStored_iff_caseTwins :
    ∃ m, (default : Catalog).resolve (some (caseTwins "A" "a")) (some "JSON") = some m ∧
      ((∀ v, (caseTwins "A" "a").Conforms v → v.Finite → ∃ stored w,
        m.toStored v = .ok stored ∧ m.ofStored stored = .ok w ∧ v.same w = true) ↔
          (caseTwins "A" "a").InKeyOrder) ∧ (caseTwins "A" "a").InKeyOrder := by
  obtain ⟨m, hm, hiff⟩ := ofStored_toStored_iff default
    (jsonShaped_caseTwins "A" "a" (by decide)) (.inl rfl)
  refine ⟨m, hm, hiff, .record ?_ fun m hm => ?_⟩
  · refine .cons (fun b hb _ => ?_) (List.pairwise_singleton ..)
    obtain rfl := List.mem_singleton.mp hb
    decide
  · simp only [List.mem_cons, List.not_mem_nil, or_false] at hm
    rcases hm with rfl | rfl
    · exact .scalar
    · exact .option .scalar

/-- Members whose names differ in case are read back with their values exchanged when they stand
against key order. -/
theorem exists_ofStored_toStored_not_same :
    ∃ t v m stored w, t.JsonShaped ∧ t.isRecord = true ∧ t.Conforms v ∧ v.Finite ∧
      (default : Catalog).resolve (some t) (some "JSON") = some m ∧
      m.toStored v = .ok stored ∧ m.ofStored stored = .ok w ∧ v.same w = false := by
  have hm := (default : Catalog).resolve_document (t := caseTwins "a" "A") (.inl rfl)
  have hv : (caseTwins "a" "A").Conforms (.record ⟨[("a", .i64 1), ("A", .i64 2)]⟩) := by
    refine .record (show List.Nodup ["a", "A"] by decide) ?_ ?_ ?_
    · simp only [List.forall_mem_cons]
      exact ⟨rfl, rfl, fun _ h => absurd h List.not_mem_nil⟩
    · intro name hname
      simp only [Entries.names, List.map_cons, List.map_nil, List.mem_cons, List.not_mem_nil,
        or_false] at hname
      rcases hname with rfl | rfl
      · exact ⟨_, List.mem_cons_self .., rfl⟩
      · exact ⟨_, List.mem_cons_of_mem _ (List.mem_cons_self ..), rfl⟩
    · simp only [List.forall_mem_cons]
      refine ⟨fun v hv => ?_, fun v hv => ?_, fun _ h => absurd h List.not_mem_nil⟩
      · cases hv
        exact .scalar rfl
      · cases hv
        exact .option (.scalar rfl)
  exact ⟨caseTwins "a" "A", .record ⟨[("a", .i64 1), ("A", .i64 2)]⟩, _, _, _,
    jsonShaped_caseTwins _ _ (by decide), rfl, hv, ⟨trivial, trivial, trivial⟩, hm, rfl, rfl, rfl⟩

end Examples

end Catalog

end TypedSql
