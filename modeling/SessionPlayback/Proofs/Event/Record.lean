import SessionPlayback.Proofs.Event.Members
import SessionPlayback.Proofs.Json.Reader

/-!
Events and their records. An object of the members of an event, in whatever order they stand, is
read as that event, and a record that has lost its end is not read at all.
-/

namespace SessionPlayback

open Json (Lexer Token Scalar)

namespace Json

theorem value_scalar {v : Json} (h : Scalar v) (depth : Nat) (rest : List Token) :
    value depth (scalarToken v :: rest) = .ok (v, rest) := by
  cases h with
  | string s => cases depth <;> rfl
  | whole n => cases depth <;> rfl

/-- No other tokens are read as a scalar. -/
theorem eq_of_value_scalar {v : Json} (hv : Scalar v) {depth : Nat} {tokens rest : List Token}
    (h : value depth tokens = .ok (v, rest)) : tokens = scalarToken v :: rest := by
  unfold value at h
  split at h
  · cases h
    cases hv
  · cases h
    cases hv
  · cases h
    rfl
  · cases h
    rfl
  · obtain ⟨reversed, -, rfl⟩ := map_ok (fun items : List Json => Json.array items.reverse) h
    cases hv
  · obtain ⟨reversed, -, rfl⟩ :=
      map_ok (fun items : List (String × Json) => Json.object items.reverse) h
    cases hv
  · cases h

theorem scalar_int64 (n : Int64) : Scalar (ofInt n.toInt) := by
  refine .whole _ n.le_toInt ?_
  have := n.toInt_lt
  simp only [uint64Max]
  omega

theorem scalar_uint32 (n : UInt32) : Scalar (ofInt n.toNat) := by
  refine .whole _ ?_ ?_
  · simp only [int64Min]
    omega
  · have := n.toNat_lt
    simp only [uint64Max]
    omega

theorem member_scalar {m : String × Json} (h : Scalar m.2) (depth : Nat)
    (reversed : List (String × Json)) (rest : List Token) :
    member (value depth) reversed (memberTokens m ++ rest) = .ok (m :: reversed, rest) := by
  simp [member, memberTokens, name, value_scalar h, Except.map]

/-- An object with scalar values. -/
theorem value_object {members : List (String × Json)} (h : ∀ m ∈ members, Scalar m.2) (depth : Nat)
    (rest : List Token) :
    value (depth + 1) (objectTokens members ++ rest) = .ok (.object members, rest) := by
  cases members with
  | nil => rfl
  | cons m members =>
    have hitems : items .closeObject (member (value depth)) []
        (memberTokens m ++ ((members.flatMap fun m => .comma :: memberTokens m) ++
          .closeObject :: rest)) =
        .ok (members.foldl (fun reversed m => m :: reversed) [m], rest) :=
      items_chunks (by simp) (by simp) (member_scalar (h m List.mem_cons_self) depth [])
        (fun m' hm => member_scalar (h m' (List.mem_cons_of_mem m hm)) depth) rest
    have htokens : objectTokens (m :: members) ++ rest = .openObject ::
        (memberTokens m ++ ((members.flatMap fun m => .comma :: memberTokens m) ++
          .closeObject :: rest)) := by
      simp [objectTokens, separated]
    rw [htokens, value_openObject, hitems, List.foldl_flip_cons_eq_append']
    simp [Except.map]

end Json

namespace Event

def recordTokens (e : Event) : List Token := Json.objectTokens e.fields

theorem Kind.members_scalar (k : Kind) : ∀ m ∈ k.members, Scalar m.2 := by
  have hstring {name : String} {s : Option String} {m : String × Json}
      (h : m ∈ optionalMember name (s.map .string)) : Scalar m.2 := by
    obtain ⟨s, -, hs⟩ := Option.map_eq_some_iff.mp (mem_optionalMember h).2
    exact hs ▸ .string s
  have hstart {name : String} {t : Option Int64} {m : String × Json}
      (h : m ∈ optionalMember name (t.map fun t => .ofInt t.toInt)) : Scalar m.2 := by
    obtain ⟨t, -, ht⟩ := Option.map_eq_some_iff.mp (mem_optionalMember h).2
    exact ht ▸ Json.scalar_int64 t
  intro m hm
  cases k with
  | start s =>
    simp only [members, List.mem_append] at hm
    rcases hm with (((h | h) | h) | h) | h
    · exact hstring h
    · exact hstring h
    · exact hstring h
    · exact hstring h
    · exact hstart h
  | resize r =>
    simp only [members, List.mem_cons, List.not_mem_nil, or_false] at hm
    rcases hm with rfl | rfl <;> exact Json.scalar_uint32 _
  | message msg =>
    simp only [members, List.mem_cons, List.not_mem_nil, or_false] at hm
    rcases hm with rfl | rfl <;> exact .string _
  | stop => cases hm
  | request r =>
    simp only [members, List.mem_cons, List.not_mem_nil, or_false] at hm
    rcases hm with rfl | rfl <;> exact .string _
  | unknown => cases hm

theorem fields_scalar (e : Event) : ∀ m ∈ e.fields, Scalar m.2 := by
  intro m hm
  rcases List.mem_cons.mp hm with rfl | hm
  · exact Json.scalar_int64 _
  rcases List.mem_cons.mp hm with rfl | hm
  · exact .string _
  · exact e.kind.members_scalar m hm

theorem toList_render (e : Event) : e.render.toList = Json.renderChars (.object e.fields) :=
  String.toList_ofList

theorem feed_render (e : Event) : Lexer.feed .ready e.render.toList = (e.recordTokens, .ready) := by
  rw [toList_render, Json.feed_object e.fields_scalar]
  rfl

/-- What has become of members, the last of them first. -/
def Draft.keeping (reversed : List (String × Json)) : Draft where
  offset := (reversed.lookup "offset").bind fun v => (Json.decodeInt64 v).toOption
  reversed := kept reversed

def OneOffset (members : List (String × Json)) : Prop :=
  members.filter (·.1 = "offset") = [] ∨
    ∃ n : Int64, members.filter (·.1 = "offset") = [("offset", .ofInt n.toInt)]

theorem keeping_offset {n : Int64} {reversed : List (String × Json)}
    (h : reversed.filter (·.1 = "offset") = [("offset", .ofInt n.toInt)]) :
    (Draft.keeping reversed).offset = some n := by
  have hl := @Json.lookup_filter "offset" (fun name => decide (name = "offset")) (by simp) reversed
  rw [h] at hl
  simp [Draft.keeping, ← hl, Json.decodeInt64_toInt, Except.toOption]

theorem keeping_offset_none {reversed : List (String × Json)}
    (h : reversed.filter (·.1 = "offset") = []) : (Draft.keeping reversed).offset = none := by
  have hl := @Json.lookup_filter "offset" (fun name => decide (name = "offset")) (by simp) reversed
  rw [h] at hl
  simp [Draft.keeping, ← hl]

/-- A record keeps its members as an object does, but for the offset. -/
theorem readMember_mirrors (depth : Nat) :
    Json.Mirrors (Json.member (Json.value depth)) (readMember depth) Draft.keeping OneOffset := by
  intro reversed tokens reversed' rest h hq
  obtain ⟨key, v, more, rfl, hv, rfl⟩ := Json.member_ok h
  by_cases hkey : key = "offset"
  · subst hkey
    rw [OneOffset, List.filter_cons_of_pos (by simp)] at hq
    obtain ⟨n, hn⟩ := hq.resolve_left (List.cons_ne_nil _ _)
    simp only [List.cons.injEq, Prod.mk.injEq, true_and] at hn
    obtain ⟨rfl, hnone⟩ := hn
    refine ⟨.inl hnone, ?_⟩
    have hread : readOffset more = .ok (n, rest) := by
      rw [Json.eq_of_value_scalar (Json.scalar_int64 n) hv]
      change (Json.decodeInt64 (.ofInt n.toInt)).map _ = _
      rw [Json.decodeInt64_toInt]
      rfl
    simp only [readMember, keeping_offset_none hnone, Json.name, hread]
    simp [Draft.keeping, Json.decodeInt64_toInt, Except.map, Except.toOption, kept]
  · rw [OneOffset, List.filter_cons_of_neg (by simpa using hkey)] at hq
    refine ⟨hq, ?_⟩
    have hb : ("offset" == key) = false := by simpa using Ne.symm hkey
    unfold readMember
    split
    · rename_i hoffset
      rw [List.cons.injEq, Token.string.injEq] at hoffset
      exact absurd hoffset.1 hkey
    · simp [Json.name, hv, Except.map, Draft.keeping, List.lookup_cons, hb, kept, hkey]

theorem Spelled.ofDraft_keeping {e : Event} {members : List (String × Json)}
    (h : e.Spelled members) :
    OneOffset members.reverse ∧ ofDraft (Draft.keeping members.reverse) = .ok e := by
  have hfilter : members.reverse.filter (·.1 = "offset") =
      (members.filter (·.1 = "offset")).reverse := List.filter_reverse ..
  have hkept : kept members.reverse = (kept members).reverse := List.filter_reverse ..
  have hoffset {draft : Draft} (hd : draft.offset.getD 0 = e.offset)
      (hk : draft.reversed = (kept members).reverse) : ofDraft draft = .ok e := by
    have hdraft : draft = { offset := draft.offset, reversed := (kept members).reverse } := by
      rw [← hk]
    rw [hdraft]
    exact h.ofDraft_kept hd
  rcases h.offset with ho | ⟨ho, hzero⟩
  · rw [ho] at hfilter
    refine ⟨.inr ⟨_, hfilter⟩, hoffset ?_ hkept⟩
    rw [keeping_offset hfilter]
    rfl
  · rw [ho] at hfilter
    refine ⟨.inl hfilter, hoffset ?_ hkept⟩
    rw [keeping_offset_none hfilter, hzero]
    rfl

/-- An object of the members of an event is read as that event. -/
theorem reader_of_value {e : Event} {members : List (String × Json)} (h : e.Spelled members)
    {depth : Nat} {tokens rest : List Token}
    (hv : Json.value (depth + 1) tokens = .ok (.object members, rest)) :
    reader depth tokens = .ok (e, rest) := by
  obtain ⟨tokens, reversed, rfl, rfl, hitems⟩ := Json.openObject_of_value hv
  obtain ⟨hone, hdraft⟩ := h.ofDraft_keeping
  rw [List.reverse_reverse] at hone hdraft
  have hread := Json.items_mirrors (readMember_mirrors depth) hitems hone
  have hempty : Draft.keeping [] = {} := rfl
  rw [hempty] at hread
  simp only [reader, hread, hdraft]
  rfl

/-- The record of an event is read as that event. -/
theorem reader_record (e : Event) (depth : Nat) (rest : List Token) :
    reader depth (e.recordTokens ++ rest) = .ok (e, rest) :=
  reader_of_value e.spelled_fields (Json.value_object e.fields_scalar depth rest)

theorem readOffset_local : Json.Local readOffset := by
  intro tokens v rest h
  unfold readOffset at h
  split at h
  · rename_i n more
    cases hn : Json.decodeInt64 (.number n) with
    | error fault => simp [hn, Except.map] at h
    | ok m =>
      rw [hn] at h
      cases h
      exact ⟨[.number n], rfl, .of_token rfl fun more => by simp [readOffset, hn, Except.map]⟩
  · cases h

theorem readMember_consumes (depth : Nat) (draft : Draft) :
    Json.Consumes (readMember depth draft) := by
  have hname {key : String} {tokens more rest : List Token}
      (hn : Json.name tokens = .ok (key, more)) (hs : rest <:+ more) : rest <:+ tokens := by
    rw [Json.name_eq hn]
    exact hs.trans ((List.suffix_cons _ _).trans (List.suffix_cons _ _))
  intro tokens v rest h
  unfold readMember at h
  split at h
  · split at h
    · cases h
    · split at h
      · cases h
      · rename_i more hn
        have hoffset := readOffset_local.map fun n => { draft with offset := some n }
        exact hname hn (hoffset.consumes more v rest h)
  · split at h
    · cases h
    · rename_i key more hn
      have hvalue := (Json.value_local depth).map fun v =>
        { draft with reversed := (key, v) :: draft.reversed }
      exact hname hn (hvalue.consumes more v rest h)

theorem reader_endsWith (depth : Nat) : Json.EndsWith .closeObject (reader depth) := by
  intro tokens e rest h
  unfold reader at h
  split at h
  · split at h
    · cases h
    · rename_i members draft more hi
      have hs := Json.items_ok (readMember_consumes depth) hi
      cases hd : ofDraft draft with
      | error fault => simp [hd, Except.map] at h
      | ok e =>
        simp only [hd, Except.map, Except.ok.injEq, Prod.mk.injEq] at h
        exact h.2 ▸ hs.trans (List.suffix_cons _ _)
  · cases h

/-- A record that is not closed is not read. -/
theorem reader_cut {tokens : List Token} (h : .closeObject ∉ tokens) (depth : Nat) :
    ∃ fault, reader depth (.openObject :: tokens) = .error fault := by
  cases hr : reader depth (.openObject :: tokens) with
  | error fault => exact ⟨fault, rfl⟩
  | ok p =>
    have hs := (reader_endsWith depth _ p.1 p.2 hr).subset List.mem_cons_self
    exact absurd ((List.mem_cons.mp hs).resolve_left nofun) h

end Event

end SessionPlayback
