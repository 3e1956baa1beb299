import TypedSql.Proofs.HostType.Conformance
import TypedSql.Proofs.Json.Rendering
import TypedSql.Proofs.Value.Equality

/-!
# Hashing equal values

Equality under a comparer looks past the width of a float, the sign of a zero in a document and the
order of entries in a record. A hash is fed all three, so values that are equal feed it alike
exactly when they agree in them.
-/

namespace TypedSql

open Value

/-- Pieces in a row are equal, whatever follows, exactly when they are one by one. -/
theorem flatMap_append_iff {α β γ : Type} {f : α → List γ} {g : β → List γ} {P : α → β → Prop}
    {as : List α} {bs : List β}
    (h : List.Forall₂ (fun a b => ∀ x y, f a ++ x = g b ++ y ↔ P a b ∧ x = y) as bs)
    (x y : List γ) : as.flatMap f ++ x = bs.flatMap g ++ y ↔ List.Forall₂ P as bs ∧ x = y := by
  induction h with
  | nil => simp
  | cons hab _ ih =>
    rw [List.flatMap_cons, List.flatMap_cons, List.append_assoc, List.append_assoc, hab, ih,
      List.forall₂_cons, and_assoc]

/-- Entries agree one by one exactly when they have the same names in the same order, and what
stands under each name agrees. -/
theorem Entries.forall₂_iff {α : Type} {R : α → α → Prop} {r s : Entries α} (hr : r.Distinct)
    (hs : s.Distinct) : List.Forall₂ (fun e f => e.1 = f.1 ∧ R e.2 f.2) r.toList s.toList ↔
      r.names = s.names ∧ ∀ name a b, r.get? name = some a → s.get? name = some b → R a b := by
  constructor
  · intro h
    refine ⟨names_eq_iff.mpr (h.imp fun _ _ => And.left), fun name a b ha hb => ?_⟩
    obtain ⟨⟨_, b'⟩, hf, rfl, hR⟩ := Result.exists_mem_of_forall₂ h (mem_of_get? ha)
    obtain rfl : b' = b := by simpa [get?_of_mem hs hf] using hb
    exact hR
  · rintro ⟨hsame, h⟩
    obtain ⟨hlength, hzip⟩ := List.forall₂_iff_zip.mp (names_eq_iff.mp hsame)
    refine List.forall₂_iff_zip.mpr ⟨hlength, fun {e f} hmem => ⟨hzip hmem, ?_⟩⟩
    obtain ⟨he, hf⟩ := List.of_mem_zip hmem
    exact h e.1 e.2 f.2 (get?_of_mem hr he) (get?_of_mem hs (hzip hmem ▸ hf))

/-! ## Feeds -/

namespace Value

/-- Values made of other values. -/
def isComposite : Value → Bool
  | .list _ | .multi .. | .record _ => true
  | _ => false

/-- Items are fed one after the other. -/
theorem feedItems_eq (items : List Value) : feedItems items = items.flatMap feed := by
  induction items with
  | nil => rfl
  | cons first rest ih => rw [feedItems, List.flatMap_cons, ih]

/-- Entries are fed one after the other, each after its name. -/
theorem feedEntries_eq (entries : List (String × Value)) :
    feedEntries entries = entries.flatMap fun entry => .text entry.1 :: entry.2.feed := by
  induction entries with
  | nil => rfl
  | cons first rest ih =>
    obtain ⟨name, value⟩ := first
    rw [feedEntries, List.flatMap_cons, ih, List.cons_append]

end Value

namespace Comparer

/-- Without a comparer for its parts a value is fed by itself. -/
theorem feed_default : Comparer.default.feed = Value.feed := by
  funext v
  rw [feed]

/-- What a comparer feeds for the member of a record; a missing one is fed as null. -/
def feedMember (r : Record) (member : String × Comparer) : Feed :=
  match r.getIgnoringCase? member.1 with
  | some v => member.2.feed v
  | none => Value.null.feed

/-- The members of a record are fed one after the other. -/
theorem feedMembers_eq (members : List (String × Comparer)) (r : Record) :
    feedMembers members r = members.flatMap (feedMember r) := by
  induction members with
  | nil => rfl
  | cons first rest ih =>
    obtain ⟨name, comparer⟩ := first
    rw [feedMembers, List.flatMap_cons, ih]
    rfl

/-- A list is fed after its length, and after its tag if it is fed by itself. -/
theorem feed_list (c : Comparer) : ∃ tag : Feed, ∀ items, c.feed (.list items) =
    tag ++ .word items.length :: items.flatMap c.element.feed := by
  cases c with
  | sequence element => exact ⟨[], fun items => by rw [feed]; rfl⟩
  | _ =>
    refine ⟨[.word 25], fun items => ?_⟩
    rw [feed, Value.feed, feedItems_eq, element, feed_default]
    · rfl
    all_goals simp

/-- Values other than lists and records are fed by themselves. -/
theorem feed_eq {c : Comparer} {v : Value} (hlist : v.items? = none) (hrecord : v.record? = none) :
    c.feed v = v.feed := by
  cases c with
  | sequence =>
    cases v with
    | list => cases hlist
    | _ => rw [feed]; simp
  | record =>
    cases v with
    | record => cases hrecord
    | _ => rw [feed]; simp
  | _ => rw [feed]

/-! ## Layout -/

/-- Two values that are equal under a comparer have what a hash is fed besides in common: the width
of a float, the sign of zeros in a document, and the order of entries in a record that is not read
member by member. -/
def LaidOut (c : Comparer) : Value → Value → Prop
  | .f32 _, .f64 _ | .f64 _, .f32 _ => False
  | .json j, .json k => j = k
  | .record r, .record s => c.members? = none → r.names = s.names
  | _, _ => True

/-- Two values that are equal under a comparer have the same layout at every depth. -/
def SameLayout (c : Comparer) (a b : Value) : Prop :=
  ∀ c' a' b', Paired c a b c' a' b' → c'.LaidOut a' b'

variable {c : Comparer}

/-- Scalars have the same layout when they are laid out alike. -/
theorem sameLayout_scalar {a b : Value} (ha : a.isComposite = false) :
    c.SameLayout a b ↔ c.LaidOut a b := by
  constructor
  · exact fun h => h c a b .whole
  · intro h c' a' b' hpart
    cases hpart with
    | whole => exact h
    | _ => cases ha

/-- Lists have the same layout when their items have. -/
theorem sameLayout_list {as bs : List Value} : c.SameLayout (.list as) (.list bs) ↔
    ∀ pair ∈ as.zip bs, c.element.SameLayout pair.1 pair.2 := by
  constructor
  · exact fun h pair hpair _ _ _ hpart => h _ _ _ (.item hpair hpart)
  · intro h c' a' b' hpart
    cases hpart with
    | whole => trivial
    | item hpair hpart => exact h _ hpair _ _ _ hpart

/-- Rectangular arrays have the same layout when their items have. -/
theorem sameLayout_multi {lengths : List Nat} {as bs : List Value} :
    c.SameLayout (.multi lengths as) (.multi lengths bs) ↔
      ∀ pair ∈ as.zip bs, Comparer.default.SameLayout pair.1 pair.2 := by
  constructor
  · exact fun h pair hpair _ _ _ hpart => h _ _ _ (.cell hpair hpart)
  · intro h c' a' b' hpart
    cases hpart with
    | whole => trivial
    | cell hpair hpart => exact h _ hpair _ _ _ hpart

/-- Records read member by member have the same layout when their members have. -/
theorem sameLayout_members {members : List (String × Comparer)} {r s : Record}
    (hc : c.members? = some members) : c.SameLayout (.record r) (.record s) ↔
      ∀ member ∈ members, ∀ a b, r.getIgnoringCase? member.1 = some a →
        s.getIgnoringCase? member.1 = some b → member.2.SameLayout a b := by
  constructor
  · exact fun h member hmember a b ha hb _ _ _ hpart => h _ _ _ (.member hc hmember ha hb hpart)
  · intro h c' a' b' hpart
    cases hpart with
    | whole => exact fun hnone => by simp [hc] at hnone
    | member hc' hmember ha hb hpart =>
      obtain rfl := Option.some.inj (hc.symm.trans hc')
      exact h _ hmember _ _ ha hb _ _ _ hpart
    | entry hc' => simp [hc] at hc'

/-- Records have the same layout when their entries stand in the same order and have. -/
theorem sameLayout_entries {r s : Record} (hc : c.members? = none) :
    c.SameLayout (.record r) (.record s) ↔ r.names = s.names ∧
      ∀ name a b, r.get? name = some a → s.get? name = some b →
        Comparer.default.SameLayout a b := by
  constructor
  · exact fun h => ⟨h _ _ _ .whole hc,
      fun name a b ha hb _ _ _ hpart => h _ _ _ (.entry hc ha hb hpart)⟩
  · rintro ⟨hnames, h⟩ c' a' b' hpart
    cases hpart with
    | whole => exact fun _ => hnames
    | member hc' => simp [hc] at hc'
    | entry _ ha hb hpart => exact h _ _ _ ha hb _ _ _ hpart

/-! ## Hashing -/

/-- Values feed a hash alike, whatever follows, exactly when they have the same layout. -/
def FeedDetermines (c : Comparer) (a b : Value) : Prop :=
  ∀ x y, c.feed a ++ x = c.feed b ++ y ↔ c.SameLayout a b ∧ x = y

/-- Scalars feed by themselves. -/
theorem feedDetermines_scalar {a b : Value} (ha : a.isComposite = false)
    (hb : b.isComposite = false)
    (h : ∀ x y, a.feed ++ x = b.feed ++ y ↔ c.LaidOut a b ∧ x = y) : c.FeedDetermines a b := by
  have hself {v : Value} (hv : v.isComposite = false) : c.feed v = v.feed := by
    cases v <;> first | exact feed_eq rfl rfl | cases hv
  intro x y
  rw [hself ha, hself hb, h, sameLayout_scalar ha]

/-- Floats that are equal feed alike when they have the same width. -/
theorem feedDetermines_floats {a b : Value} {bits : UInt64} (ha : a.floatBits? = some bits)
    (hb : b.floatBits? = some bits) : c.FeedDetermines a b := by
  cases a with
  | f32 v =>
    have hv : v.widen.canonicalBits = bits := Option.some.inj ha
    cases b with
    | f32 w =>
      have hw : w.widen.canonicalBits = bits := Option.some.inj hb
      exact feedDetermines_scalar rfl rfl fun x y => by simp [Value.feed, LaidOut, hv, hw]
    | f64 w => exact feedDetermines_scalar rfl rfl fun x y => by simp [Value.feed, LaidOut]
    | _ => cases hb
  | f64 v =>
    have hv : v.canonicalBits = bits := Option.some.inj ha
    cases b with
    | f32 w => exact feedDetermines_scalar rfl rfl fun x y => by simp [Value.feed, LaidOut]
    | f64 w =>
      have hw : w.canonicalBits = bits := Option.some.inj hb
      exact feedDetermines_scalar rfl rfl fun x y => by simp [Value.feed, LaidOut, hv, hw]
    | _ => cases hb
  | _ => cases ha

/-- Lists that are equal feed alike when their items do. -/
theorem feedDetermines_list {as bs : List Value}
    (h : List.Forall₂ c.element.FeedDetermines as bs) : c.FeedDetermines (.list as) (.list bs) := by
  intro x y
  obtain ⟨tag, htag⟩ := c.feed_list
  rw [htag, htag, List.append_assoc, List.append_assoc, List.append_cancel_left_eq, h.length_eq,
    List.cons_append, List.cons_append, List.cons.injEq, flatMap_append_iff h, sameLayout_list,
    List.forall₂_iff_zip]
  simp [h.length_eq]

/-- Rectangular arrays that are equal feed alike when their items do. -/
theorem feedDetermines_multi {lengths : List Nat} {as bs : List Value}
    (h : List.Forall₂ Comparer.default.FeedDetermines as bs) :
    c.FeedDetermines (.multi lengths as) (.multi lengths bs) := by
  intro x y
  have hitems := flatMap_append_iff h x y
  rw [feed_default] at hitems
  rw [feed_eq rfl rfl, feed_eq rfl rfl, Value.feed, Value.feed, feedItems_eq, feedItems_eq,
    sameLayout_multi]
  simp [hitems, List.forall₂_iff_zip, h.length_eq]

/-- What is fed for a member that is equal in two records depends on its layout. -/
theorem feedMember_append_iff {member : String × Comparer} {r s : Record}
    (hequal : Option.Rel (fun a b => member.2.equals a b = true) (r.getIgnoringCase? member.1)
      (s.getIgnoringCase? member.1))
    (h : ∀ a b, r.getIgnoringCase? member.1 = some a → s.getIgnoringCase? member.1 = some b →
      member.2.equals a b = true → member.2.FeedDetermines a b) (x y : Feed) :
    feedMember r member ++ x = feedMember s member ++ y ↔
      (∀ a b, r.getIgnoringCase? member.1 = some a → s.getIgnoringCase? member.1 = some b →
        member.2.SameLayout a b) ∧ x = y := by
  unfold feedMember
  cases ha : r.getIgnoringCase? member.1 with
  | none =>
    rw [ha] at hequal
    cases hb : s.getIgnoringCase? member.1 with
    | none => simp
    | some b =>
      rw [hb] at hequal
      cases hequal
  | some a =>
    rw [ha] at hequal
    cases hb : s.getIgnoringCase? member.1 with
    | none =>
      rw [hb] at hequal
      cases hequal
    | some b =>
      rw [hb] at hequal
      cases hequal with
      | some hab => simp [h a b ha hb hab x y]

/-- Records that are equal member by member feed alike when their members do. -/
theorem feedDetermines_members {members : List (String × Comparer)} {r s : Record}
    (hc : c.members? = some members)
    (h : ∀ member ∈ members, ∀ x y, feedMember r member ++ x = feedMember s member ++ y ↔
      (∀ a b, r.getIgnoringCase? member.1 = some a → s.getIgnoringCase? member.1 = some b →
        member.2.SameLayout a b) ∧ x = y) : c.FeedDetermines (.record r) (.record s) := by
  intro x y
  have hfeed (r : Record) : c.feed (.record r) = members.flatMap (feedMember r) := by
    cases c with
    | record =>
      obtain rfl := Option.some.inj hc
      rw [feed, feedMembers_eq]
    | _ => cases hc
  have hpieces := flatMap_append_iff (P := fun (member : String × Comparer) _ => ∀ a b,
    r.getIgnoringCase? member.1 = some a → s.getIgnoringCase? member.1 = some b →
      member.2.SameLayout a b) (List.forall₂_same.mpr h) x y
  rw [hfeed, hfeed, hpieces, List.forall₂_same, sameLayout_members hc]

/-- Entries that are equal feed alike when they stand in the same order and their values do. -/
theorem feedDetermines_entries {r s : Record} (hc : c.members? = none) (hsize : r.size = s.size)
    (hr : r.Distinct) (hs : s.Distinct)
    (h : ∀ name a b, r.get? name = some a → s.get? name = some b →
      Comparer.default.FeedDetermines a b) : c.FeedDetermines (.record r) (.record s) := by
  have hfeed (r : Record) : c.feed (.record r) =
      .word 27 :: r.toList.flatMap fun entry => .text entry.1 :: entry.2.feed := by
    obtain ⟨entries⟩ := r
    cases c with
    | record => cases hc
    | sequence => rw [feed, Value.feed, feedEntries_eq]; simp
    | _ => rw [feed, Value.feed, feedEntries_eq]
  have hentries : List.Forall₂ (fun e f => ∀ x y : Feed, (.text e.1 :: e.2.feed) ++ x =
      (.text f.1 :: f.2.feed) ++ y ↔
        (e.1 = f.1 ∧ Comparer.default.SameLayout e.2 f.2) ∧ x = y) r.toList s.toList := by
    refine List.forall₂_iff_zip.mpr ⟨hsize, fun {e f} hmem x y => ?_⟩
    obtain ⟨name, a⟩ := e
    obtain ⟨name', b⟩ := f
    obtain ⟨ha, hb⟩ := List.of_mem_zip hmem
    by_cases hname : name = name'
    · subst hname
      have hab := h name a b (Entries.get?_of_mem hr ha) (Entries.get?_of_mem hs hb) x y
      rw [feed_default] at hab
      simp [hab]
    · simp [hname]
  intro x y
  rw [hfeed, hfeed, List.cons_append, List.cons_append, List.cons.injEq,
    flatMap_append_iff hentries, sameLayout_entries hc, Entries.forall₂_iff hr hs]
  simp

/-- Values that are equal under a comparer feed a hash alike exactly when they have the same
layout. -/
theorem feedDetermines_of_equals {a b : Value} (h : c.equals a b = true) (ha : a.WellFormed)
    (hb : b.WellFormed) : c.FeedDetermines a b := by
  induction a using Value.induct generalizing c b with
  | step a ih =>
    cases equated_of_equals h with
    | atom hatom =>
      have hcomposite : a.isComposite = false := by cases a <;> first | rfl | cases hatom
      have hlaid : c.LaidOut a a := by cases a <;> trivial
      exact feedDetermines_scalar hcomposite hcomposite fun x y => by simp [hlaid]
    | floats hx hy => exact feedDetermines_floats hx hy
    | decimals hsame =>
      refine feedDetermines_scalar rfl rfl fun x y => ?_
      simp [Value.feed, LaidOut, eq_of_beq hsame]
    | bigDecimals hsame =>
      refine feedDetermines_scalar rfl rfl fun x y => ?_
      simp [Value.feed, LaidOut, eq_of_beq hsame]
    | zoned hinstant =>
      refine feedDetermines_scalar rfl rfl fun x y => ?_
      simp [Value.feed, LaidOut, hinstant]
    | @json j k hsame =>
      refine feedDetermines_scalar rfl rfl fun x y => ?_
      have htext : j.render = k.render ↔ j = k := by
        simpa using Json.textDetermines_of_same hsame [] []
      simp [Value.feed, LaidOut, String.ofList_inj, htext]
    | @lists as bs hitems =>
      obtain ⟨hlength, hzip⟩ := List.forall₂_iff_zip.mp hitems
      refine feedDetermines_list (List.forall₂_iff_zip.mpr ⟨hlength, fun {v w} hvw => ?_⟩)
      obtain ⟨hv, hw⟩ := List.of_mem_zip hvw
      exact ih v hv (hzip hvw) (ha.of_mem hv) (hb.of_mem hw)
    | @multi lengths as bs hitems =>
      obtain ⟨hlength, hzip⟩ := List.forall₂_iff_zip.mp hitems
      refine feedDetermines_multi (List.forall₂_iff_zip.mpr ⟨hlength, fun {v w} hvw => ?_⟩)
      obtain ⟨hv, hw⟩ := List.of_mem_zip hvw
      exact ih v hv (hzip hvw) (ha.of_mem hv) (hb.of_mem hw)
    | @members members r s hc hmembers =>
      refine feedDetermines_members hc fun member hmember => ?_
      refine feedMember_append_iff (hmembers member hmember) fun v w hv hw hvw => ?_
      exact ih v (mem_parts_of_getIgnoringCase? hv) hvw
        (ha.of_mem (mem_parts_of_getIgnoringCase? hv))
        (hb.of_mem (mem_parts_of_getIgnoringCase? hw))
    | @entries r s hc hsize hentries =>
      refine feedDetermines_entries hc hsize ha.distinct hb.distinct fun name v w hv hw => ?_
      obtain ⟨w', hw', hvw⟩ := hentries (name, v) (Entries.mem_of_get? hv)
      obtain rfl : w = w' := by simpa [hw] using hw'
      have hv' := mem_parts_of_getIgnoringCase? (Entries.getIgnoringCase?_of_get? hv)
      have hw'' := mem_parts_of_getIgnoringCase? (Entries.getIgnoringCase?_of_get? hw)
      exact ih v hv' hvw (ha.of_mem hv') (hb.of_mem hw'')

/-- Values that are equal under a comparer feed a hash the same items exactly when they have the
same layout: floats of the same width, identical documents, and records that are not read member by
member with their entries in the same order. -/
theorem feed_eq_iff_sameLayout {a b : Value} (h : c.equals a b = true) (ha : a.WellFormed)
    (hb : b.WellFormed) : c.feed a = c.feed b ↔ c.SameLayout a b := by
  simpa using feedDetermines_of_equals h ha hb [] []

section Examples

open Numeral

/-- A comparer of records with a list and a float. -/
def readings : Comparer := .record [("taken", .sequence .default), ("mean", .float)]

/-- Records that differ in offsets, in the payload of NaN, in the case of a name and in the order of
entries feed alike. -/
theorem feed_eq_iff_sameLayout_readings :
    ∃ a b, readings.equals a b = true ∧ a.WellFormed ∧ b.WellFormed ∧
      readings.feed a = readings.feed b ∧ readings.SameLayout a b := by
  have htaken (offset : Int) : (Value.list [.zoned ⟨⟨0⟩, offset⟩]).WellFormed :=
    wellFormed_list (List.forall_mem_singleton.mpr (wellFormed_scalar rfl rfl))
  have hmean (x : Binary64) : (Value.f64 x).WellFormed := wellFormed_scalar rfl rfl
  have hnames : ["taken", "mean"].Nodup ∧ ["Mean", "taken"].Nodup := by decide
  have ha : (Value.record (.ofList [("taken", .list [.zoned ⟨⟨0⟩, 0⟩]),
      ("mean", .f64 ⟨0x7ff8000000000000⟩)])).WellFormed :=
    wellFormed_record hnames.1
      (List.forall_mem_cons.mpr ⟨htaken _, List.forall_mem_singleton.mpr (hmean _)⟩)
  have hb : (Value.record (.ofList [("Mean", .f64 ⟨0x7ff8000000000001⟩),
      ("taken", .list [.zoned ⟨⟨0⟩, 3600⟩])])).WellFormed :=
    wellFormed_record hnames.2
      (List.forall_mem_cons.mpr ⟨hmean _, List.forall_mem_singleton.mpr (htaken _)⟩)
  exact ⟨_, _, rfl, ha, hb, rfl, (feed_eq_iff_sameLayout rfl ha hb).mp rfl⟩

/-- A float of another width is equal and feeds another tag. -/
theorem exists_equals_feed_ne :
    ∃ a b, Comparer.float.equals a b = true ∧ a.WellFormed ∧ b.WellFormed ∧
      Comparer.float.feed a ≠ Comparer.float.feed b :=
  ⟨.f32 ⟨0x3f800000⟩, .f64 ⟨0x3ff0000000000000⟩, rfl, wellFormed_scalar rfl rfl,
    wellFormed_scalar rfl rfl, by decide⟩

end Examples

end Comparer

end TypedSql
