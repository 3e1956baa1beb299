import TypedSql.Proofs.HostType.Conformance
import TypedSql.Proofs.Value.Equality

/-!
# Documents of equal values

A record compared member by member may have entries that its comparer does not look at, and a
decimal keeps its spelling when it is written. Apart from these, values that are equal under a
comparer have the same JSON document or none.
-/

namespace TypedSql

/-! ## Documents -/

namespace Json

/-- Members in key order without repetition. -/
def KeySorted (members : List (String × Json)) : Prop := members.Pairwise (·.1 < ·.1)

/-- A member under a new key is added. -/
theorem insertMember_perm {key : String} {value : Json} {members : List (String × Json)}
    (h : key ∉ members.map Prod.fst) :
    (insertMember key value members).Perm ((key, value) :: members) := by
  induction members with
  | nil => exact .refl _
  | cons first rest ih =>
    obtain ⟨k, v⟩ := first
    rw [List.map_cons, List.mem_cons, not_or] at h
    rw [insertMember]
    split
    next => exact .refl _
    next =>
      rw [if_neg h.1]
      exact ((ih h.2).cons _).trans (.swap ..)

/-- Adding a member keeps the order of keys. -/
theorem KeySorted.insertMember {key : String} {value : Json} {members : List (String × Json)}
    (h : KeySorted members) (hnew : key ∉ members.map Prod.fst) :
    KeySorted (insertMember key value members) := by
  induction members with
  | nil => exact List.pairwise_singleton ..
  | cons first rest ih =>
    obtain ⟨k, v⟩ := first
    rw [List.map_cons, List.mem_cons, not_or] at hnew
    obtain ⟨hfirst, hrest⟩ := List.pairwise_cons.mp h
    rw [Json.insertMember]
    split
    next hlt =>
      refine List.pairwise_cons.mpr ⟨fun entry hentry => ?_, h⟩
      rcases List.mem_cons.mp hentry with rfl | hentry
      · exact hlt
      · exact String.lt_trans hlt (hfirst entry hentry)
    next hlt =>
      rw [if_neg hnew.1]
      refine List.pairwise_cons.mpr ⟨fun entry hentry => ?_, ih hrest hnew.2⟩
      rcases List.mem_cons.mp ((insertMember_perm hnew.2).mem_iff.mp hentry) with rfl | hentry
      · by_contra hge
        exact hnew.1 (String.le_antisymm (String.not_lt.mp hge) (String.not_lt.mp hlt))
      · exact hfirst entry hentry

/-- The order of keys is determined by the keys. -/
theorem KeySorted.keys_eq {ms ns : List (String × Json)} (hms : KeySorted ms)
    (hns : KeySorted ns) (h : (ms.map Prod.fst).Perm (ns.map Prod.fst)) :
    ms.map Prod.fst = ns.map Prod.fst := by
  have hms' : (ms.map Prod.fst).Pairwise (· < ·) := List.pairwise_map.mpr hms
  have hns' : (ns.map Prod.fst).Pairwise (· < ·) := List.pairwise_map.mpr hns
  exact h.eq_of_pairwise (fun _ _ _ _ hlt hgt => absurd hgt (String.lt_asymm hlt)) hms' hns'

/-- Members are the same when they have the same keys and their values are. -/
theorem sameMembers_of_keys {ms ns : List (String × Json)}
    (hkeys : ms.map Prod.fst = ns.map Prod.fst)
    (h : ∀ key j k, (key, j) ∈ ms → (key, k) ∈ ns → j.same k = true) :
    sameMembers ms ns = true := by
  induction ms generalizing ns with
  | nil =>
    cases ns with
    | nil => rfl
    | cons => cases hkeys
  | cons first rest ih =>
    cases ns with
    | nil => cases hkeys
    | cons second others =>
      obtain ⟨key, j⟩ := first
      obtain ⟨key', k⟩ := second
      obtain ⟨rfl, hrest⟩ := List.cons.inj hkeys
      rw [sameMembers, Bool.and_eq_true, Bool.and_eq_true]
      refine ⟨⟨beq_self_eq_true _, h _ j k (List.mem_cons_self ..) (List.mem_cons_self ..)⟩, ?_⟩
      exact ih hrest fun _ _ _ hj hk =>
        h _ _ _ (List.mem_cons_of_mem _ hj) (List.mem_cons_of_mem _ hk)

end Json

/-! ## Documents of records -/

namespace Value

/-- Entries are added in key order, each with the document of its value. -/
theorem keySorted_of_entryDocuments {entries : List (String × Value)}
    {done members : List (String × Json)} (hdone : Json.KeySorted done)
    (hnames : (done.map Prod.fst ++ entries.map Prod.fst).Nodup)
    (h : entryDocuments done entries = .ok members) :
    Json.KeySorted members ∧
      (members.map Prod.fst).Perm (done.map Prod.fst ++ entries.map Prod.fst) ∧
      ∀ key j, (key, j) ∈ members →
        (key, j) ∈ done ∨ ∃ v, (key, v) ∈ entries ∧ v.toDocument = .ok j := by
  induction entries generalizing done with
  | nil =>
    cases h
    exact ⟨hdone, .of_eq (List.append_nil _).symm, fun _ _ => Or.inl⟩
  | cons first rest ih =>
    obtain ⟨name, value⟩ := first
    rw [entryDocuments] at h
    obtain ⟨document, hdocument, h⟩ := Result.bind_eq_ok.mp h
    have hnew : name ∉ done.map Prod.fst := fun hmem =>
      (List.nodup_append.mp hnames).2.2 _ hmem _ (List.mem_cons_self ..) rfl
    have hadded : (Json.insertMember name document done).Perm ((name, document) :: done) :=
      Json.insertMember_perm hnew
    have hkeys : ((Json.insertMember name document done).map Prod.fst ++ rest.map Prod.fst).Perm
        (done.map Prod.fst ++ name :: rest.map Prod.fst) :=
      ((hadded.map Prod.fst).append_right _).trans List.perm_middle.symm
    obtain ⟨hsorted, hperm, hvalues⟩ :=
      ih (hdone.insertMember hnew) (hkeys.nodup_iff.mpr hnames) h
    refine ⟨hsorted, hperm.trans hkeys, fun key j hmem => ?_⟩
    rcases hvalues key j hmem with hdone | ⟨v, hv, hj⟩
    · rcases List.mem_cons.mp (hadded.mem_iff.mp hdone) with hentry | hdone
      · cases hentry
        exact Or.inr ⟨value, List.mem_cons_self .., hdocument⟩
      · exact Or.inl hdone
    · exact Or.inr ⟨v, List.mem_cons_of_mem _ hv, hj⟩

open Result

/-- Documents that are the same, or none on both sides. -/
abbrev SameDocuments (a b : Value) : Prop :=
  Related (fun j k => j.same k = true) a.toDocument b.toDocument

/-- Records with the same names have the same documents when their values have. -/
theorem sameDocuments_record {r s : Record} (hr : r.Distinct) (hs : s.Distinct)
    (hnames : ∀ name, name ∈ r.names ↔ name ∈ s.names)
    (h : ∀ name a b, (name, a) ∈ r.toList → (name, b) ∈ s.toList → SameDocuments a b) :
    SameDocuments (.record r) (.record s) := by
  have hother {name : String} {r s : Record} (hnames : name ∈ r.names → name ∈ s.names)
      {a : Value} (ha : (name, a) ∈ r.toList) : ∃ b, (name, b) ∈ s.toList := by
    obtain ⟨⟨_, b⟩, hb, rfl⟩ := List.mem_map.mp (hnames (List.mem_map_of_mem ha))
    exact ⟨b, hb⟩
  refine related_of_succeeds ?_ fun j k hj hk => ?_
  · rw [toDocument, toDocument, succeeds_map, succeeds_map, succeeds_entryDocuments,
      succeeds_entryDocuments]
    constructor
    · rintro hall ⟨name, b⟩ hb
      obtain ⟨a, ha⟩ := hother (hnames name).mpr hb
      exact (h name a b ha hb).succeeds_iff.mp (hall _ ha)
    · rintro hall ⟨name, a⟩ ha
      obtain ⟨b, hb⟩ := hother (hnames name).mp ha
      exact (h name a b ha hb).succeeds_iff.mpr (hall _ hb)
  · rw [toDocument] at hj hk
    obtain ⟨ms, hms, rfl⟩ := map_eq_ok.mp hj
    obtain ⟨ns, hns, rfl⟩ := map_eq_ok.mp hk
    obtain ⟨hmsorted, hmkeys, hmvalues⟩ := keySorted_of_entryDocuments .nil hr hms
    obtain ⟨hnsorted, hnkeys, hnvalues⟩ := keySorted_of_entryDocuments .nil hs hns
    have hperm : r.names.Perm s.names := (List.perm_ext_iff_of_nodup hr hs).mpr hnames
    have hkeys := hmsorted.keys_eq hnsorted (hmkeys.trans (hperm.trans hnkeys.symm))
    refine Json.sameMembers_of_keys hkeys fun key j k hj hk => ?_
    obtain ⟨a, ha, haj⟩ := (hmvalues key j hj).resolve_left List.not_mem_nil
    obtain ⟨b, hb, hbk⟩ := (hnvalues key k hk).resolve_left List.not_mem_nil
    have hab := h key a b ha hb
    rw [SameDocuments, haj, hbk] at hab
    cases hab with
    | ok hjk => exact hjk

/-! ## Documents of equal values -/

/-- A float of either width is written as the 64-bit float that it is compared by. -/
theorem toDocument_of_floatBits? {v : Value} {bits : UInt64} (h : v.floatBits? = some bits) :
    ∃ x : Numeral.Binary64, x.canonicalBits = bits ∧ v.toDocument = floatDocument v x := by
  cases v with
  | f32 x => exact ⟨x.widen, Option.some.inj h, by rw [toDocument]⟩
  | f64 x => exact ⟨x, Option.some.inj h, by rw [toDocument]⟩
  | _ => cases h

/-- Floats that are equal have the same document, and NaN and infinities have none. -/
theorem related_floatDocument {v w : Value} {x y : Numeral.Binary64}
    (h : x.canonicalBits = y.canonicalBits) :
    Related (fun j k => j.same k = true) (floatDocument v x) (floatDocument w y) := by
  unfold floatDocument
  rcases Numeral.Binary64.ieeeEq_of_canonicalBits h with ⟨hx, hy⟩ | heq
  · rw [if_neg (Numeral.Binary64.not_isFinite_of_isNaN hx),
      if_neg (Numeral.Binary64.not_isFinite_of_isNaN hy)]
    exact .error _ _
  · rw [Numeral.Binary64.isFinite_of_ieeeEq heq]
    split
    next => exact .ok heq
    next => exact .error _ _

/-- Bytes have a document that is the same as itself. -/
theorem sameItems_bytes (bytes : List UInt8) :
    Json.sameItems (bytes.map fun b => naturalDocument b.toNat)
      (bytes.map fun b => naturalDocument b.toNat) = true := by
  induction bytes with
  | nil => rfl
  | cons first rest ih =>
    rw [List.map_cons, Json.sameItems, Bool.and_eq_true]
    exact ⟨beq_self_eq_true _, ih⟩

/-- A value that equals itself only has a document that is the same as itself. -/
theorem sameDocuments_atom {v : Value} (h : v.isAtom = true) : SameDocuments v v := by
  have hinteger (n : Int64) : (JsonNumber.ofInt64 n).same (JsonNumber.ofInt64 n) = true := by
    unfold JsonNumber.ofInt64
    split <;> exact beq_self_eq_true _
  cases v with
  | bytes bytes =>
    rw [SameDocuments, toDocument]
    exact .ok (sameItems_bytes bytes)
  | i8 | i16 | i32 | i64 | enum => exact .ok (hinteger _)
  | null => exact .ok rfl
  | f32 | f64 | decimal | bigDecimal | zoned | json | list | multi | record => cases h
  | _ => exact .ok (beq_self_eq_true _)

/-- Items are written one by one. -/
theorem itemDocuments_eq (items : List Value) : itemDocuments items = items.mapM toDocument := by
  induction items with
  | nil => rfl
  | cons first rest ih => rw [itemDocuments, List.mapM_cons, ih]

/-- Lists have the same document when their items have. -/
theorem sameDocuments_list {as bs : List Value} (h : List.Forall₂ SameDocuments as bs) :
    SameDocuments (.list as) (.list bs) := by
  rw [SameDocuments, toDocument, toDocument, itemDocuments_eq, itemDocuments_eq]
  refine (related_mapM h).map fun js ks hsame => ?_
  rw [Json.same]
  induction hsame with
  | nil => rfl
  | cons hjk _ ih =>
    rw [Json.sameItems, Bool.and_eq_true]
    exact ⟨hjk, ih⟩

end Value

namespace Comparer

/-- Nothing that is written of two values escapes a comparer of them: decimals have the same digits,
and records have the same names, those that the comparer looks at. -/
def Sees (c : Comparer) : Value → Value → Prop
  | .decimal d, .decimal e | .bigDecimal d, .bigDecimal e => d.text = e.text
  | .record r, .record s => (∀ name, name ∈ r.names ↔ name ∈ s.names) ∧
    ∀ members, c.members? = some members → ∀ name ∈ r.names, name ∈ members.map Prod.fst
  | _, _ => True

/-- Nothing that is written of two values at any depth escapes a comparer. -/
def SeesThrough (c : Comparer) (a b : Value) : Prop :=
  ∀ c' a' b', Paired c a b c' a' b' → c'.Sees a' b'

/-- Values that are equal have the same document, if nothing of them escapes the comparer. -/
theorem sameDocuments_of_equals {c : Comparer} {a b : Value} (h : c.equals a b = true)
    (ha : a.WellFormed) (hb : b.WellFormed) (hsees : c.SeesThrough a b) : a.SameDocuments b := by
  induction a using Value.induct generalizing c b with
  | step a ih =>
    have hwhole := hsees c a b .whole
    cases equated_of_equals h with
    | atom hatom => exact Value.sameDocuments_atom hatom
    | floats hx hy =>
      obtain ⟨x, hxbits, hxwritten⟩ := Value.toDocument_of_floatBits? hx
      obtain ⟨y, hybits, hywritten⟩ := Value.toDocument_of_floatBits? hy
      rw [Value.SameDocuments, hxwritten, hywritten]
      exact Value.related_floatDocument (hxbits.trans hybits.symm)
    | decimals | bigDecimals =>
      rw [Value.SameDocuments, Value.toDocument, Value.toDocument, show _ = _ from hwhole]
      exact .ok (beq_self_eq_true _)
    | zoned hinstant =>
      rw [Value.SameDocuments, Value.toDocument, Value.toDocument, hinstant]
      exact .ok (beq_self_eq_true _)
    | json hsame => exact .ok hsame
    | @lists as bs hitems =>
      obtain ⟨hlength, hzip⟩ := List.forall₂_iff_zip.mp hitems
      refine Value.sameDocuments_list (List.forall₂_iff_zip.mpr ⟨hlength, fun {x y} hxy => ?_⟩)
      obtain ⟨hx, hy⟩ := List.of_mem_zip hxy
      exact ih x hx (hzip hxy) (ha.of_mem hx) (hb.of_mem hy)
        fun _ _ _ hpart => hsees _ _ _ (.item hxy hpart)
    | multi => exact .error _ _
    | @members members r s hc hmembers =>
      obtain ⟨hnames, hread⟩ := hwhole
      refine Value.sameDocuments_record ha.distinct hb.distinct hnames fun name x y hx hy => ?_
      obtain ⟨member, hmember, rfl⟩ :=
        List.mem_map.mp (hread members hc name (List.mem_map_of_mem hx))
      have hx' := Entries.getIgnoringCase?_of_get? (Entries.get?_of_mem ha.distinct hx)
      have hy' := Entries.getIgnoringCase?_of_get? (Entries.get?_of_mem hb.distinct hy)
      have hxy := hmembers member hmember
      rw [hx', hy'] at hxy
      cases hxy with
      | some hxy =>
        exact ih x (List.mem_map_of_mem hx) hxy (ha.of_mem (List.mem_map_of_mem hx))
          (hb.of_mem (List.mem_map_of_mem hy))
          fun _ _ _ hpart => hsees _ _ _ (.member hc hmember hx' hy' hpart)
    | @entries r s hc _ hentries =>
      refine Value.sameDocuments_record ha.distinct hb.distinct hwhole.1 fun name x y hx hy => ?_
      have hx' := Entries.get?_of_mem ha.distinct hx
      have hy' := Entries.get?_of_mem hb.distinct hy
      obtain ⟨y', hget, hxy⟩ := hentries (name, x) hx
      obtain rfl : y = y' := by simpa [hy'] using hget
      exact ih x (List.mem_map_of_mem hx) hxy (ha.of_mem (List.mem_map_of_mem hx))
        (hb.of_mem (List.mem_map_of_mem hy))
        fun _ _ _ hpart => hsees _ _ _ (.entry hc hx' hy' hpart)

end Comparer

end TypedSql
