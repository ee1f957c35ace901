import SessionPlayback.Event.Reader
import Mathlib.Data.List.Basic
import Mathlib.Data.List.Perm.Basic

/-!
Events from the members of a record. What a type has for members is found wherever it stands, a
member that the type does not have is passed over, and a member that may be missing may also be
there without a value.
-/

namespace SessionPlayback

open Json (Fault Field)

theorem mem_optionalMember {name : String} {value : Option Json} {m : String × Json}
    (h : m ∈ optionalMember name value) : m.1 = name ∧ value = some m.2 := by
  cases value with
  | none => simp [optionalMember] at h
  | some v =>
    obtain rfl : m = (name, v) := by simpa [optionalMember] using h
    exact ⟨rfl, rfl⟩

theorem lookup_optionalMember_append (key name : String) (value : Option Json)
    (rest : List (String × Json)) : (optionalMember name value ++ rest).lookup key =
      if key = name then value.or (rest.lookup key) else rest.lookup key := by
  cases value with
  | none => simp [optionalMember]
  | some v =>
    by_cases h : key = name
    · simp [optionalMember, h]
    · have hb : (key == name) = false := by simpa using h
      simp [optionalMember, List.lookup_cons, h, hb]

theorem lookup_optionalMember (key name : String) (value : Option Json) :
    (optionalMember name value).lookup key = if key = name then value else none := by
  have h := lookup_optionalMember_append key name value []
  simpa using h

namespace Json

/-- Members with different names, none of which is at fault by itself, are not at fault. -/
theorem firstFault_eq_none {fields : List Field} {seen : List String}
    {members : List (String × Json)} (hnames : (members.map (·.1)).Nodup)
    (hseen : ∀ m ∈ members, m.1 ∉ seen)
    (hfields : ∀ m ∈ members, ∀ field, fields.find? (·.name = m.1) = some field →
      field.fault? m.2 = none) : firstFault fields seen members = none := by
  induction members generalizing seen with
  | nil => rfl
  | cons m rest ih =>
    simp only [List.map_cons, List.nodup_cons] at hnames
    have hrest : ∀ m ∈ rest, ∀ field, fields.find? (·.name = m.1) = some field →
        field.fault? m.2 = none := fun m hm => hfields m (by simp [hm])
    simp only [firstFault]
    split
    · exact ih hnames.2 (fun m hm => hseen m (by simp [hm])) hrest
    · rename_i field hf
      rw [if_neg (hseen m (by simp)), hfields m (by simp) field hf]
      refine ih hnames.2 (fun m' hm => ?_) hrest
      simp only [List.mem_cons, not_or]
      refine ⟨fun he => hnames.1 ?_, hseen m' (by simp [hm])⟩
      exact List.mem_map.mpr ⟨m', hm, he⟩

/-- Members that are not expected are passed over. -/
theorem firstFault_filter (fields : List Field) (seen : List String)
    (members : List (String × Json)) :
    firstFault fields seen (members.filter fun m => m.1 ∈ fields.map (·.name)) =
      firstFault fields seen members := by
  induction members generalizing seen with
  | nil => rfl
  | cons m rest ih =>
    cases hf : fields.find? (·.name = m.1) with
    | none =>
      have hm : m.1 ∉ fields.map (·.name) := by
        intro hm
        obtain ⟨field, hfield, hname⟩ := List.mem_map.mp hm
        simpa [hname] using List.find?_eq_none.mp hf field hfield
      simp only [List.filter_cons, hm, decide_false, Bool.false_eq_true, ↓reduceIte, firstFault,
        hf, ih]
    | some field =>
      have hm : m.1 ∈ fields.map (·.name) :=
        List.mem_map.mpr ⟨field, List.mem_of_find?_eq_some hf, by simpa using List.find?_some hf⟩
      simp only [List.filter_cons, hm, decide_true, ↓reduceIte, firstFault, hf, ih]

theorem lookup_filter {key : String} {p : String → Bool} (hp : p key = true)
    (members : List (String × Json)) :
    (members.filter fun m => p m.1).lookup key = members.lookup key := by
  induction members with
  | nil => rfl
  | cons m rest ih =>
    obtain ⟨name, v⟩ := m
    by_cases hm : key = name
    · subst hm
      simp [hp]
    · have hb : (key == name) = false := by simpa using hm
      cases hf : p name <;> simp [hf, List.lookup_cons, hb, ih]

theorem mem_of_lookup {key : String} {v : Json} {members : List (String × Json)}
    (h : members.lookup key = some v) : (key, v) ∈ members := by
  obtain ⟨before, after, rfl, -⟩ := List.lookup_eq_some_iff.mp h
  simp

/-- A member is the one of its name if no other member has the name. -/
theorem lookup_of_mem {key : String} {v : Json} {members : List (String × Json)}
    (hm : (key, v) ∈ members) (hnames : (members.map (·.1)).Nodup) :
    members.lookup key = some v := by
  induction members with
  | nil => cases hm
  | cons m rest ih =>
    obtain ⟨name, w⟩ := m
    simp only [List.map_cons, List.nodup_cons] at hnames
    rcases List.mem_cons.mp hm with he | hm
    · cases he
      exact List.lookup_cons_self
    · have hne : key ≠ name := fun he => hnames.1 (he ▸ List.mem_map.mpr ⟨(key, v), hm, rfl⟩)
      have hb : (key == name) = false := by simpa using hne
      rw [List.lookup_cons, hb]
      exact ih hm hnames.2

theorem decodeInt64_toInt (n : Int64) : decodeInt64 (ofInt n.toInt) = .ok n := by
  have hl : int64Min ≤ n.toInt := n.le_toInt
  have hu : n.toInt ≤ int64Max := by
    have := n.toInt_lt
    simp only [int64Max]
    omega
  simp [decodeInt64, ofInt, hl, hu]

theorem decodeOptionalInt64_toInt (n : Int64) :
    decodeOptionalInt64 (ofInt n.toInt) = .ok (some n) := by
  change (decodeInt64 (ofInt n.toInt)).map some = .ok (some n)
  rw [decodeInt64_toInt]
  rfl

theorem decodeOptionalString_string (s : String) :
    decodeOptionalString (.string s) = .ok (some s) := rfl

theorem decodeUInt32_toNat (n : UInt32) : decodeUInt32 (ofInt n.toNat) = .ok n := by
  have hu : (n.toNat : Int) ≤ uint32Max := by
    have := n.toNat_lt
    simp only [uint32Max]
    omega
  simp [decodeUInt32, ofInt, hu]

end Json

theorem ofRecordName_recordName (d : Direction) : Direction.ofRecordName d.recordName = d := by
  cases d <;> rfl

namespace Event

namespace Kind

def memberNames : Kind → List String
  | .start _ => ["client_host", "server_host", "username", "key", "start"]
  | .resize _ => ["term_rows", "term_cols"]
  | .message _ => ["direction", "data"]
  | .stop => []
  | .request _ => ["request_type", "request_payload"]
  | .unknown => []

def memberFields : Kind → List Field
  | .start _ => startFields
  | .resize _ => resizeFields
  | .message _ => messageFields
  | .stop => []
  | .request _ => requestFields
  | .unknown => []

theorem memberFields_names (k : Kind) : k.memberFields.map (·.name) = k.memberNames := by
  cases k <;> rfl

/-- Members stand in their order, and none stands twice. -/
theorem members_names (k : Kind) : (k.members.map (·.1)).Sublist k.memberNames := by
  have hoptional (name : String) (v : Option Json) :
      ((optionalMember name v).map (·.1)).Sublist [name] := by
    cases v <;> simp [optionalMember]
  cases k with
  | start s =>
    simp only [members, List.map_append]
    exact ((((hoptional _ _).append (hoptional _ _)).append (hoptional _ _)).append
      (hoptional _ _)).append (hoptional _ _)
  | resize r => exact List.Sublist.refl _
  | message m => exact List.Sublist.refl _
  | stop => exact List.Sublist.refl _
  | request r => exact List.Sublist.refl _
  | unknown => exact List.Sublist.refl _

theorem memberNames_nodup (k : Kind) : ("offset" :: "type" :: k.memberNames).Nodup := by
  cases k <;> simp [memberNames]

def absent (k : Kind) : List String := k.memberNames.filter (· ∉ k.members.map (·.1))

/-- Each member of the type is there as it is written, or is missing, or has no value; all others
have other names. -/
structure Among (k : Kind) (members : List (String × Json)) : Prop where
  nodup : ((members.filter (·.1 ∈ k.memberNames)).map (·.1)).Nodup
  written : ∀ m ∈ k.members, m ∈ members
  own : ∀ m ∈ members, m.1 ∈ k.memberNames → m ∈ k.members ∨ m.1 ∈ k.absent ∧ m.2 = .null

theorem mem_memberNames {k : Kind} {m : String × Json} (hm : m ∈ k.members) :
    m.1 ∈ k.memberNames :=
  k.members_names.subset (List.mem_map.mpr ⟨m, hm, rfl⟩)

theorem mem_absent {k : Kind} {name : String} :
    name ∈ k.absent ↔ name ∈ k.memberNames ∧ k.members.lookup name = none := by
  simp only [absent, List.mem_filter, List.mem_map, decide_eq_true_eq, List.lookup_eq_none_iff,
    bne_iff_ne, ne_eq, not_exists, not_and]
  exact and_congr_right fun _ => forall₂_congr fun m _ => not_congr eq_comm

/-- Members in any order among others of other names. -/
theorem among_of_perm {k : Kind} {nulls : List String} {others members : List (String × Json)}
    (hnulls : nulls.Sublist k.absent) (hothers : ∀ m ∈ others, m.1 ∉ k.memberNames)
    (h : members.Perm (k.members ++ nulls.map (·, .null) ++ others)) : k.Among members := by
  have habsent : ∀ name ∈ nulls, name ∈ k.absent := fun _ hn => hnulls.subset hn
  have hnodup : k.memberNames.Nodup := k.memberNames_nodup.sublist
    ((List.sublist_cons_self _ _).trans (List.sublist_cons_self _ _))
  have hnames : (k.members.map (·.1) ++ nulls).Nodup := by
    apply List.nodup_append.mpr
    refine ⟨k.members_names.nodup hnodup, (hnulls.trans List.filter_sublist).nodup hnodup, ?_⟩
    rintro name hname name' hname' rfl
    have hmissing := List.mem_filter.mp (habsent name hname')
    simp [hname] at hmissing
  constructor
  · have hown : (k.members ++ nulls.map (·, Json.null) ++ others).filter (·.1 ∈ k.memberNames) =
        k.members ++ nulls.map (·, .null) := by
      have hnone : others.filter (·.1 ∈ k.memberNames) = [] :=
        List.filter_eq_nil_iff.mpr fun m hm => by simpa using hothers m hm
      rw [List.filter_append, hnone, List.append_nil, List.filter_eq_self]
      intro m hm
      rw [decide_eq_true_eq]
      rcases List.mem_append.mp hm with hm | hm
      · exact mem_memberNames hm
      · obtain ⟨name, hname, rfl⟩ := List.mem_map.mp hm
        exact (mem_absent.mp (habsent name hname)).1
    have hperm := (h.filter (·.1 ∈ k.memberNames)).map (·.1)
    rw [hown] at hperm
    apply hperm.nodup_iff.mpr
    simpa [Function.comp_def] using hnames
  · intro m hm
    exact h.mem_iff.mpr (by simp [hm])
  · intro m hm hname
    have hm := h.mem_iff.mp hm
    simp only [List.mem_append, List.mem_map] at hm
    rcases hm with (hm | ⟨name, hn, rfl⟩) | hm
    · exact .inl hm
    · exact .inr ⟨habsent name hn, rfl⟩
    · exact absurd hname (hothers m hm)

/-- A member that is written for a value is not at fault. -/
theorem optionalMember_fault? {α : Type} {fields : List Field} {name : String}
    {decode : Json → Except Fault (Option α)} {toJson : α → Json} {value : Option α}
    {m : String × Json} {field : Field} (hm : m ∈ optionalMember name (value.map toJson))
    (hdecode : ∀ a, decode (toJson a) = .ok (some a))
    (hname : fields.find? (·.name = name) = some (.of name decode))
    (hf : fields.find? (·.name = m.1) = some field) : field.fault? m.2 = none := by
  obtain ⟨hn, hv⟩ := mem_optionalMember hm
  obtain ⟨a, -, ha⟩ := Option.map_eq_some_iff.mp hv
  rw [hn, hname] at hf
  cases hf
  simp [Field.of, ← ha, hdecode]

/-- What is written for a type is what is expected of it. -/
theorem members_fault? (k : Kind) {m : String × Json} (hm : m ∈ k.members) {field : Field}
    (hf : k.memberFields.find? (·.name = m.1) = some field) : field.fault? m.2 = none := by
  cases k with
  | start s =>
    simp only [members, List.mem_append] at hm
    rcases hm with (((hm | hm) | hm) | hm) | hm
    · exact optionalMember_fault? hm Json.decodeOptionalString_string rfl hf
    · exact optionalMember_fault? hm Json.decodeOptionalString_string rfl hf
    · exact optionalMember_fault? hm Json.decodeOptionalString_string rfl hf
    · exact optionalMember_fault? hm Json.decodeOptionalString_string rfl hf
    · exact optionalMember_fault? hm Json.decodeOptionalInt64_toInt rfl hf
  | resize r =>
    rcases List.mem_pair.mp hm with rfl | rfl
    · cases hf
      simp [Field.of, Json.decodeUInt32_toNat]
    · cases hf
      simp [Field.of, Json.decodeUInt32_toNat]
  | message m =>
    rcases List.mem_pair.mp hm with rfl | rfl
    · cases hf
      rfl
    · cases hf
      rfl
  | stop => cases hm
  | request r =>
    rcases List.mem_pair.mp hm with rfl | rfl
    · cases hf
      rfl
    · cases hf
      rfl
  | unknown => cases hm

/-- A member that may be left out may have no value. -/
theorem absent_fault? {k : Kind} {name : String} (h : name ∈ k.absent) {field : Field}
    (hf : k.memberFields.find? (·.name = name) = some field) : field.fault? .null = none := by
  cases k with
  | start s =>
    have hfield := List.mem_of_find?_eq_some hf
    simp only [memberFields, startFields, List.mem_cons, List.not_mem_nil, or_false] at hfield
    rcases hfield with rfl | rfl | rfl | rfl | rfl
    · rfl
    · rfl
    · rfl
    · rfl
    · rfl
  | resize r => simp [absent, memberNames, members] at h
  | message m => simp [absent, memberNames, members] at h
  | stop => cases h
  | request r => simp [absent, memberNames, members] at h
  | unknown => cases h

namespace Among

variable {k : Kind} {members : List (String × Json)}

theorem firstFault (h : k.Among members) : Json.firstFault k.memberFields [] members = none := by
  rw [← Json.firstFault_filter, k.memberFields_names]
  apply Json.firstFault_eq_none h.nodup
  · intro m _
    exact List.not_mem_nil
  · intro m hm field hf
    obtain ⟨hm, hname⟩ := List.mem_filter.mp hm
    rcases h.own m hm (by simpa using hname) with hm | ⟨habsent, hnull⟩
    · exact k.members_fault? hm hf
    · rw [hnull]
      exact absent_fault? habsent hf

theorem checked_eq (h : k.Among members) {α : Type} (result : Except Fault α) :
    checked k.memberFields members result = result := by
  rw [checked, h.firstFault]

theorem lookup_written (h : k.Among members) {name : String} {v : Json}
    (hm : (name, v) ∈ k.members) : members.lookup name = some v := by
  have hname : decide (name ∈ k.memberNames) = true := by simpa using mem_memberNames hm
  have hown := @Json.lookup_filter name (fun name => decide (name ∈ k.memberNames)) hname members
  rw [← hown]
  exact Json.lookup_of_mem (List.mem_filter.mpr ⟨h.written _ hm, hname⟩) h.nodup

theorem lookup_absent (h : k.Among members) {name : String} (hname : name ∈ k.memberNames)
    (hnone : k.members.lookup name = none) {v : Json} (hv : members.lookup name = some v) :
    v = .null := by
  rcases h.own (name, v) (Json.mem_of_lookup hv) hname with hm | ⟨-, hnull⟩
  · have := List.lookup_eq_none_iff.mp hnone _ hm
    simp at this
  · exact hnull

theorem memberOr_written (h : k.Among members) {α : Type} {default a : α} {name : String}
    {v : Json} {decode : Json → Except Fault α} (hm : (name, v) ∈ k.members)
    (hdecode : decode v = .ok a) : Json.memberOr default name decode members = a := by
  simp only [Json.memberOr, h.lookup_written hm, hdecode]

theorem memberOr_optional (h : k.Among members) {α : Type} {name : String}
    {decode : Json → Except Fault (Option α)} {toJson : α → Json} {value : Option α}
    (hname : name ∈ k.memberNames) (hl : k.members.lookup name = value.map toJson)
    (hdecode : ∀ a, decode (toJson a) = .ok (some a)) (hnull : decode .null = .ok none) :
    Json.memberOr none name decode members = value := by
  cases value with
  | some a => exact h.memberOr_written (Json.mem_of_lookup hl) (hdecode a)
  | none =>
    unfold Json.memberOr
    split
    · rename_i v hv
      rw [h.lookup_absent hname hl hv, hnull]
    · rfl

theorem readKind_start {s : SessionStart} (h : (Kind.start s).Among members) :
    readKind .start members = .ok (.start s) := by
  have hstring {name : String} {value : Option String}
      (hname : name ∈ (Kind.start s).memberNames)
      (hl : (Kind.start s).members.lookup name = value.map .string) :
      Json.memberOr none name Json.decodeOptionalString members = value :=
    h.memberOr_optional hname hl Json.decodeOptionalString_string rfl
  have h₁ := @hstring "client_host" s.clientHost (by simp [memberNames])
    (by simp [Kind.members, lookup_optionalMember_append, lookup_optionalMember])
  have h₂ := @hstring "server_host" s.serverHost (by simp [memberNames])
    (by simp [Kind.members, lookup_optionalMember_append, lookup_optionalMember])
  have h₃ := @hstring "username" s.username (by simp [memberNames])
    (by simp [Kind.members, lookup_optionalMember_append, lookup_optionalMember])
  have h₄ := @hstring "key" s.key (by simp [memberNames])
    (by simp [Kind.members, lookup_optionalMember_append, lookup_optionalMember])
  have h₅ : Json.memberOr none "start" Json.decodeOptionalInt64 members = s.startTime :=
    h.memberOr_optional (by simp [memberNames])
      (by simp [Kind.members, lookup_optionalMember_append, lookup_optionalMember])
      Json.decodeOptionalInt64_toInt rfl
  rw [readKind, h₁, h₂, h₃, h₄, h₅]
  exact h.checked_eq _

theorem readKind_message {m : Message} (h : (Kind.message m).Among members) :
    readKind .message members = .ok (.message m) := by
  have hdirection : members.lookup "direction" = some (.string m.direction.recordName) :=
    h.lookup_written List.mem_cons_self
  have hdata : Json.memberOr "" "data" Json.decodeString members = m.data :=
    h.memberOr_written (List.mem_cons_of_mem _ List.mem_cons_self) rfl
  have hdecode : decodeDirection (.string m.direction.recordName) = .ok m.direction := by
    rw [decodeDirection, ofRecordName_recordName]
  rw [readKind]
  simp only [hdirection, hdata, hdecode]
  exact h.checked_eq _

/-- The members tell what happened, wherever they stand. -/
theorem readKind_eq (h : k.Among members) : readKind (Tag.ofName k.recordType) members = .ok k := by
  cases k with
  | start s => exact h.readKind_start
  | resize r =>
    have hrows : Json.memberOr 0 "term_rows" Json.decodeUInt32 members = r.rows :=
      h.memberOr_written List.mem_cons_self (Json.decodeUInt32_toNat r.rows)
    have hcols : Json.memberOr 0 "term_cols" Json.decodeUInt32 members = r.cols :=
      h.memberOr_written (List.mem_cons_of_mem _ List.mem_cons_self)
        (Json.decodeUInt32_toNat r.cols)
    change checked resizeFields members _ = _
    rw [hrows, hcols]
    exact h.checked_eq _
  | message m => exact h.readKind_message
  | stop => rfl
  | request r =>
    have htype : Json.memberOr "" "request_type" Json.decodeString members = r.type :=
      h.memberOr_written List.mem_cons_self rfl
    have hpayload : Json.memberOr "" "request_payload" Json.decodeString members = r.payload :=
      h.memberOr_written (List.mem_cons_of_mem _ List.mem_cons_self) rfl
    change checked requestFields members _ = _
    rw [htype, hpayload]
    exact h.checked_eq _
  | unknown => rfl

end Among

def typeNames : Kind → List String
  | .message _ => ["new-message", "message"]
  | .request _ => ["new-request", "request"]
  | k => [k.recordType]

theorem ofName_of_mem_typeNames {k : Kind} {type : String} (h : type ∈ k.typeNames) :
    Tag.ofName type = Tag.ofName k.recordType := by
  cases k with
  | message m => rcases List.mem_pair.mp h with rfl | rfl <;> rfl
  | request r => rcases List.mem_pair.mp h with rfl | rfl <;> rfl
  | start s => rw [List.mem_singleton.mp h]
  | resize r => rw [List.mem_singleton.mp h]
  | stop => rw [List.mem_singleton.mp h]
  | unknown => rw [List.mem_singleton.mp h]

end Kind

/-- What the record of an event may have for members: those that are written, in any order, the type
by any of its names. The offset may be left out when it is 0, a member that is left out may be there
without a value, and further members may have any name that the type does not know. -/
def Spelled (e : Event) (members : List (String × Json)) : Prop :=
  ∃ (offset : List (String × Json)) (type : String) (nulls : List String)
      (others : List (String × Json)),
    (offset = [("offset", .ofInt e.offset.toInt)] ∨ offset = [] ∧ e.offset = 0) ∧
    type ∈ e.kind.typeNames ∧ nulls.Sublist e.kind.absent ∧
    (∀ m ∈ others, m.1 ∉ "offset" :: "type" :: e.kind.memberNames) ∧
    members.Perm (offset ++ ("type", .string type) ::
      (e.kind.members ++ nulls.map (·, .null) ++ others))

def fields (e : Event) : List (String × Json) :=
  ("offset", .ofInt e.offset.toInt) :: ("type", .string e.kind.recordType) :: e.kind.members

theorem spelled_fields (e : Event) : e.Spelled e.fields := by
  refine ⟨_, e.kind.recordType, [], [], .inl rfl, ?_, List.nil_sublist _, nofun, ?_⟩
  · cases e.kind <;> simp [Kind.typeNames, Kind.recordType]
  · simp [fields]

def kept (members : List (String × Json)) : List (String × Json) :=
  members.filter (·.1 ≠ "offset")

namespace Spelled

variable {e : Event} {members : List (String × Json)}

/-- Neither the offset nor the type is a member of the type. -/
theorem ne_of_mem {k : Kind} {nulls : List String} {others : List (String × Json)}
    (hnulls : nulls.Sublist k.absent)
    (hothers : ∀ m ∈ others, m.1 ∉ "offset" :: "type" :: k.memberNames) {m : String × Json}
    (hm : m ∈ k.members ++ nulls.map (·, .null) ++ others) : m.1 ≠ "offset" ∧ m.1 ≠ "type" := by
  have hnodup := k.memberNames_nodup
  simp only [List.nodup_cons, List.mem_cons, not_or] at hnodup hothers
  obtain ⟨⟨-, hoffset⟩, htype, -⟩ := hnodup
  have hown {name : String} (h : name ∈ k.memberNames) : name ≠ "offset" ∧ name ≠ "type" :=
    ⟨fun he => hoffset (he ▸ h), fun he => htype (he ▸ h)⟩
  simp only [List.mem_append, List.mem_map] at hm
  rcases hm with (hm | ⟨name, hname, rfl⟩) | hm
  · exact hown (Kind.mem_memberNames hm)
  · exact hown (Kind.mem_absent.mp (hnulls.subset hname)).1
  · exact ⟨(hothers m hm).1, (hothers m hm).2.1⟩

theorem offset (h : e.Spelled members) :
    members.filter (·.1 = "offset") = [("offset", .ofInt e.offset.toInt)] ∨
      members.filter (·.1 = "offset") = [] ∧ e.offset = 0 := by
  obtain ⟨offset, type, nulls, others, hoffset, -, hnulls, hothers, hperm⟩ := h
  have hrest : (("type", Json.string type) ::
      (e.kind.members ++ nulls.map (·, .null) ++ others)).filter (·.1 = "offset") = [] := by
    rw [List.filter_eq_nil_iff]
    intro m hm
    rw [decide_eq_true_eq]
    rcases List.mem_cons.mp hm with rfl | hm
    · simp
    · exact (ne_of_mem hnulls hothers hm).1
  have hfilter := hperm.filter (·.1 = "offset")
  rw [List.filter_append, hrest, List.append_nil] at hfilter
  rcases hoffset with rfl | ⟨rfl, hzero⟩
  · exact .inl (List.perm_singleton.mp hfilter)
  · exact .inr ⟨List.perm_nil.mp hfilter, hzero⟩

theorem kept_perm (h : e.Spelled members) :
    ∃ type ∈ e.kind.typeNames, ∃ (nulls : List String) (others : List (String × Json)),
      nulls.Sublist e.kind.absent ∧
      (∀ m ∈ others, m.1 ∉ "offset" :: "type" :: e.kind.memberNames) ∧
      (kept members).Perm (("type", Json.string type) ::
        (e.kind.members ++ nulls.map (·, Json.null) ++ others)) := by
  obtain ⟨offset, type, nulls, others, hoffset, htype, hnulls, hothers, hperm⟩ := h
  refine ⟨type, htype, nulls, others, hnulls, hothers, ?_⟩
  have hnone : offset.filter (·.1 ≠ "offset") = [] := by
    rcases hoffset with rfl | ⟨rfl, -⟩ <;> rfl
  have hrest : (("type", Json.string type) ::
      (e.kind.members ++ nulls.map (·, .null) ++ others)).filter (·.1 ≠ "offset") =
      ("type", .string type) :: (e.kind.members ++ nulls.map (·, .null) ++ others) := by
    rw [List.filter_eq_self]
    intro m hm
    rw [decide_eq_true_eq]
    rcases List.mem_cons.mp hm with rfl | hm
    · simp
    · exact (ne_of_mem hnulls hothers hm).1
  have hfilter := hperm.filter (·.1 ≠ "offset")
  rwa [List.filter_append, hnone, hrest, List.nil_append] at hfilter

theorem among (h : e.Spelled members) : e.kind.Among (kept members) := by
  obtain ⟨type, -, nulls, others, hnulls, hothers, hperm⟩ := h.kept_perm
  have htype : "type" ∉ e.kind.memberNames :=
    (List.nodup_cons.mp (List.nodup_cons.mp e.kind.memberNames_nodup).2).1
  refine @Kind.among_of_perm _ _ (("type", .string type) :: others) _ hnulls ?_
    (hperm.trans List.perm_middle.symm)
  intro m hm
  rcases List.mem_cons.mp hm with rfl | hm
  · exact htype
  · intro hname
    exact hothers m hm (by simp [hname])

/-- The type is there once, by one of its names. -/
theorem tag (h : e.Spelled members) :
    Tag.ofMembers (kept members) = .ok (Tag.ofName e.kind.recordType) := by
  obtain ⟨type, htype, nulls, others, hnulls, hothers, hperm⟩ := h.kept_perm
  have hrest : (e.kind.members ++ nulls.map (·, Json.null) ++ others).filter (·.1 = "type") =
      [] := by
    rw [List.filter_eq_nil_iff]
    intro m hm
    rw [decide_eq_true_eq]
    exact (ne_of_mem hnulls hothers hm).2
  have hfilter := hperm.filter (·.1 = "type")
  rw [List.filter_cons_of_pos (by simp), hrest] at hfilter
  rw [Tag.ofMembers, List.perm_singleton.mp hfilter]
  simp only [Tag.decode, Kind.ofName_of_mem_typeNames htype]

/-- The members of an event are read as that event. -/
theorem ofDraft_kept (h : e.Spelled members) {offset : Option Int64}
    (hoffset : offset.getD 0 = e.offset) :
    ofDraft { offset, reversed := (kept members).reverse } = .ok e := by
  simp only [ofDraft, List.reverse_reverse, h.tag, bind, Except.bind, h.among.readKind_eq, hoffset]
  rfl

end Spelled

end Event

end SessionPlayback
