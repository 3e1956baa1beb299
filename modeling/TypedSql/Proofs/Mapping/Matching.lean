import Mathlib.Data.List.Nodup
import Mathlib.Data.List.Perm.Subperm
import TypedSql.Proofs.HostType.Conformance
import TypedSql.Proofs.Mapping.Documents

/-!
# Members matched with the keys of a document

Each member of a record takes the first key left that agrees with its name up to ASCII case, and a
document has its keys in order. Members whose names agree so take their keys in key order. They
take their own keys exactly when they stand in the order of their names.
-/

namespace TypedSql.Json

/-- The keys that members take, each the first one left that agrees with its name up to ASCII case.
Members that find none are left out. -/
def keysTaken : List Member → List String → List (Member × String)
  | [], _ => []
  | member :: rest, keys =>
    match keys.find? fun key => Text.sameName key member.name with
    | some key =>
      (member, key) :: keysTaken rest (keys.eraseP fun key => Text.sameName key member.name)
    | none => keysTaken rest keys

/-- Members whose names agree up to ASCII case stand in the order of their names. -/
def InKeyOrder (members : List Member) : Prop :=
  members.Pairwise fun a b => Text.sameName a.name b.name = true → a.name < b.name

/-! ## Order -/

/-- A key that is found is taken out where it stands, after keys that do not agree. -/
theorem eraseP_of_find? {α : Type} {p : α → Bool} {items : List α} {found : α}
    (h : items.find? p = some found) : p found = true ∧ ∃ before after,
      items = before ++ found :: after ∧ items.eraseP p = before ++ after ∧
        ∀ item ∈ before, p item = false := by
  obtain ⟨hfound, before, after, rfl, hbefore⟩ := List.find?_eq_some_iff_append.mp h
  have hnone : ∀ item ∈ before, p item = false := by simpa using hbefore
  refine ⟨hfound, before, after, rfl, ?_, hnone⟩
  rw [List.eraseP_append_right _ fun item hitem => by simp [hnone item hitem],
    List.eraseP_cons_of_pos hfound]

/-- What is taken is a key that agrees with the name of its member. -/
theorem of_mem_keysTaken {members : List Member} {keys : List String} {x : Member × String}
    (hx : x ∈ keysTaken members keys) :
    x.1 ∈ members ∧ x.2 ∈ keys ∧ Text.sameName x.2 x.1.name = true := by
  induction members generalizing keys with
  | nil => exact absurd hx List.not_mem_nil
  | cons member rest ih =>
    rw [keysTaken] at hx
    split at hx
    next key hkey =>
      rcases List.mem_cons.mp hx with rfl | hx
      · exact ⟨List.mem_cons_self .., List.mem_of_find?_eq_some hkey,
          (eraseP_of_find? hkey).1⟩
      · obtain ⟨hmember, hmem, hsame⟩ := ih hx
        exact ⟨List.mem_cons_of_mem _ hmember, List.mem_of_mem_eraseP hmem, hsame⟩
    next =>
      obtain ⟨hmember, hrest⟩ := ih hx
      exact ⟨List.mem_cons_of_mem _ hmember, hrest⟩

/-- The members that take a key stand in their order. -/
theorem keysTaken_sublist (members : List Member) (keys : List String) :
    ((keysTaken members keys).map Prod.fst).Sublist members := by
  induction members generalizing keys with
  | nil => exact .slnil
  | cons member rest ih =>
    rw [keysTaken]
    split
    next => exact (ih _).cons_cons member
    next => exact (ih keys).cons member

/-- Members whose names agree up to ASCII case take keys in key order. -/
theorem pairwise_keysTaken {keys : List String} (hkeys : keys.Pairwise (· < ·))
    (members : List Member) : (keysTaken members keys).Pairwise fun x y =>
      Text.sameName x.1.name y.1.name = true → x.2 < y.2 := by
  induction members generalizing keys with
  | nil => exact .nil
  | cons member rest ih =>
    rw [keysTaken]
    split
    next key hkey =>
      refine List.pairwise_cons.mpr ⟨fun x hx hagrees => ?_, ih (hkeys.eraseP _)⟩
      obtain ⟨-, before, after, rfl, herase, hbefore⟩ := eraseP_of_find? hkey
      obtain ⟨-, hmem, hsame⟩ := of_mem_keysTaken hx
      -- a key that agrees with the name of `x` agrees with that of `member`, so it comes later
      have hlater : x.2 ∈ after := by
        rcases List.mem_append.mp (herase ▸ hmem) with hmem | hmem
        · have hagrees' : Text.sameName x.2 member.name = true :=
            Text.sameIgnoringCase_trans hsame (Text.sameIgnoringCase_symm hagrees)
          exact absurd hagrees' (by simp [hbefore _ hmem])
        · exact hmem
      exact (List.pairwise_cons.mp (List.pairwise_append.mp hkeys).2.1).1 _ hlater
    next => exact ih hkeys

/-- Members in key order take their own keys. -/
theorem keysTaken_eq {members : List Member} {keys : List String}
    (hkeys : keys.Pairwise (· < ·)) (hperm : keys.Perm (members.map (·.name)))
    (horder : InKeyOrder members) : keysTaken members keys = members.map fun m => (m, m.name) := by
  induction members generalizing keys with
  | nil => rfl
  | cons member rest ih =>
    obtain ⟨hfirst, hrest⟩ := List.pairwise_cons.mp horder
    have hmem : member.name ∈ keys := hperm.mem_iff.mpr (List.mem_cons_self ..)
    cases hkey : keys.find? fun key => Text.sameName key member.name with
    | none => exact absurd (Text.sameName_refl _) (List.find?_eq_none.mp hkey _ hmem)
    | some key =>
      obtain ⟨hsame, before, after, hsplit, herase, hbefore⟩ := eraseP_of_find? hkey
      -- the key is no later than the own one, and no other key that agrees is earlier
      have hown : key = member.name := by
        have hkeymem : key ∈ keys := List.mem_of_find?_eq_some hkey
        rcases List.mem_cons.mp (hperm.mem_iff.mp hkeymem) with hown | hother
        · exact hown
        · obtain ⟨other, hmember, rfl⟩ := List.mem_map.mp hother
          have hgreater := hfirst other hmember (Text.sameIgnoringCase_symm hsame)
          rw [hsplit] at hmem hkeys
          rcases List.mem_append.mp hmem with hmem | hmem
          · exact absurd (Text.sameName_refl member.name) (by simp [hbefore _ hmem])
          · rcases List.mem_cons.mp hmem with hmem | hmem
            · exact hmem.symm
            · have hless := (List.pairwise_cons.mp (List.pairwise_append.mp hkeys).2.1).1 _ hmem
              exact absurd hless (String.lt_asymm hgreater)
      have hperm' : (keys.eraseP fun key => Text.sameName key member.name).Perm
          (rest.map (·.name)) := by
        rw [hsplit, hown] at hperm
        rw [herase]
        exact (List.perm_middle.symm.trans hperm).cons_inv
      rw [keysTaken, hkey, hown, ih (hkeys.eraseP _) hperm' hrest]
      rfl

/-- Members that all take their own keys are in key order. -/
theorem inKeyOrder_of_keysTaken {members : List Member} {keys : List String}
    (hkeys : keys.Pairwise (· < ·)) (hnodup : (members.map (·.name)).Nodup)
    (h : ∀ m ∈ members, (m, m.name) ∈ keysTaken members keys) : InKeyOrder members := by
  have htaken : (keysTaken members keys).map Prod.fst = members := by
    refine (keysTaken_sublist members keys).eq_of_length_le ?_
    exact (List.subperm_of_subset (List.Nodup.of_map _ hnodup) fun m hm =>
      List.mem_map.mpr ⟨_, h m hm, rfl⟩).length_le
  have hown : ∀ x ∈ keysTaken members keys, x.2 = x.1.name := by
    intro x hx
    have hfst : ((keysTaken members keys).map Prod.fst).Nodup :=
      htaken.symm ▸ List.Nodup.of_map _ hnodup
    have heq := List.inj_on_of_nodup_map hfst hx (h x.1 (of_mem_keysTaken hx).1) rfl
    exact congrArg Prod.snd heq
  rw [InKeyOrder, ← htaken, List.pairwise_map]
  refine (pairwise_keysTaken hkeys members).imp_of_mem fun hx hy hlt hagrees => ?_
  rw [← hown _ hx, ← hown _ hy]
  exact hlt hagrees

/-! ## Entries read from a document -/

open Result

/-- Taking a member finds it and leaves the others. -/
theorem takeMember?_eq (name : String) (entries : List (String × Json)) :
    takeMember? name entries =
      (entries.find? fun entry => Text.sameName entry.1 name).map fun entry =>
        (entry.2, entries.eraseP fun entry => Text.sameName entry.1 name) := by
  induction entries with
  | nil => rfl
  | cons first rest ih =>
    obtain ⟨key, value⟩ := first
    rw [takeMember?]
    split
    next hsame => simp [hsame]
    next hsame =>
      rw [ih, List.find?_cons_of_neg (by exact hsame)]
      cases rest.find? fun entry => Text.sameName entry.1 name with
      | none => rfl
      | some entry => simp [hsame]

/-- The first member takes a key, with what stands under it, or finds none. -/
theorem toEntries_cons (member : Member) (rest : List Member) (entries : List (String × Json))
    (done : Record) :
    (∃ json others, (∃ key, (key, json) ∈ entries ∧ others.Sublist entries ∧
        keysTaken (member :: rest) (entries.map Prod.fst) =
          (member, key) :: keysTaken rest (others.map Prod.fst)) ∧
      toEntries (member :: rest) entries done =
        json.toValue member.type >>= fun value =>
          toEntries rest others (done.insert member.name value)) ∨
    (keysTaken (member :: rest) (entries.map Prod.fst) = keysTaken rest (entries.map Prod.fst) ∧
      toEntries (member :: rest) entries done = toEntries rest entries done) := by
  rw [toEntries, takeMember?_eq, keysTaken, List.find?_map, List.eraseP_map]
  simp only [Function.comp_def]
  cases hfind : entries.find? fun entry => Text.sameName entry.1 member.name with
  | none => exact .inr ⟨rfl, rfl⟩
  | some entry =>
    exact .inl ⟨entry.2, _, ⟨entry.1, List.mem_of_find?_eq_some hfind, List.eraseP_sublist, rfl⟩, rfl⟩

/-- Entries are read when each member can read what stands under its key. -/
theorem succeeds_toEntries {members : List Member} {entries : List (String × Json)} {done : Record}
    (h : ∀ x ∈ keysTaken members (entries.map Prod.fst), ∀ json, (x.2, json) ∈ entries →
      Succeeds (json.toValue x.1.type)) : Succeeds (toEntries members entries done) := by
  induction members generalizing entries done with
  | nil => exact succeeds_ok done
  | cons member rest ih =>
    rcases toEntries_cons member rest entries done with
      ⟨json, others, ⟨key, hmem, hothers, htaken⟩, hstep⟩ | ⟨htaken, hstep⟩
    · rw [htaken, List.forall_mem_cons] at h
      obtain ⟨value, hvalue⟩ := h.1 json hmem
      rw [hstep, hvalue]
      exact ih fun x hx json hjson => h.2 x hx json (hothers.subset hjson)
    · rw [hstep]
      exact ih (htaken ▸ h)

/-- Entries are read in the order of the members, each from what stands under its key. -/
theorem forall₂_of_toEntries {members : List Member} {entries : List (String × Json)}
    {done r : Record} (hnames : (done.names ++ members.map (·.name)).Nodup)
    (h : toEntries members entries done = .ok r) :
    ∃ added, r.toList = done.toList ++ added ∧
      List.Forall₂ (fun x entry => entry.1 = x.1.name ∧
          ∃ json, (x.2, json) ∈ entries ∧ json.toValue x.1.type = .ok entry.2)
        (keysTaken members (entries.map Prod.fst)) added := by
  induction members generalizing entries done with
  | nil =>
    cases h
    exact ⟨[], (List.append_nil _).symm, .nil⟩
  | cons member rest ih =>
    rcases toEntries_cons member rest entries done with
      ⟨json, others, ⟨key, hmem, hothers, htaken⟩, hstep⟩ | ⟨htaken, hstep⟩
    · rw [hstep] at h
      obtain ⟨value, hvalue, h⟩ := bind_eq_ok.mp h
      have hnew : member.name ∉ done.names := fun hmem =>
        (List.nodup_append.mp hnames).2.2 _ hmem _ (List.mem_cons_self ..) rfl
      have hinsert : (done.insert member.name value).toList =
          done.toList ++ [(member.name, value)] := Entries.put_of_not_mem value hnew
      have hnames' : ((done.insert member.name value).names ++ rest.map (·.name)).Nodup := by
        rw [Entries.names, hinsert, List.map_append, List.append_assoc]
        exact hnames
      obtain ⟨added, hadded, hread⟩ := ih hnames' h
      refine ⟨(member.name, value) :: added, ?_, ?_⟩
      · rw [hadded, hinsert, List.append_assoc, List.singleton_append]
      · rw [htaken]
        refine .cons ⟨rfl, json, hmem, hvalue⟩ (hread.imp fun x entry hentry => ?_)
        obtain ⟨hname, json, hjson, hread⟩ := hentry
        exact ⟨hname, json, hothers.subset hjson, hread⟩
    · rw [htaken]
      refine ih ?_ (hstep ▸ h)
      exact hnames.sublist ((List.sublist_cons_self ..).append_left _)

end TypedSql.Json
