import SessionPlayback.Json.Reader
import SessionPlayback.Proofs.Json.Printed

/-!
Readers of lists. Items that are there one behind the other are read one after the other into the
state, and every reader takes its tokens from the front: a list has been read only if it was closed.
What follows a value makes no difference to how it is read, and two readers of one list that agree
on every item agree on the list.
-/

namespace SessionPlayback.Json

variable {α β : Type}

/-- A whole text is read when nothing is left. -/
theorem readAll_ok_iff {r : Reader α} {text : String} {v : α} :
    readAll r text = .ok v ↔ r (tokens text) = .ok (v, []) := by
  unfold readAll
  constructor
  · intro h
    split at h
    · rename_i v hv
      cases h
      exact hv
    · cases h
    · cases h
  · intro h
    rw [h]

/-- Items behind the first, each behind a comma. -/
theorem moreItems_chunks {close : Token} {item : α → Reader α} {next : α → β → α}
    {chunk : β → List Token} (hclose : close ≠ .comma) {bs : List β}
    (hitem : ∀ b ∈ bs, ∀ state rest, item state (chunk b ++ rest) = .ok (next state b, rest))
    {bound : Nat} (hb : bs.length ≤ bound) (state : α) (rest : List Token) :
    moreItems close item bound state ((bs.flatMap fun b => .comma :: chunk b) ++ rest) =
      moreItems close item (bound - bs.length) (bs.foldl next state) rest := by
  induction bs generalizing bound state with
  | nil => rfl
  | cons b bs ih =>
    obtain ⟨bound, rfl⟩ : ∃ k, bound = k + 1 := ⟨bound - 1, by simp at hb; omega⟩
    have hb' : bs.length ≤ bound := by simpa using hb
    rw [List.flatMap_cons, List.append_assoc, List.cons_append, moreItems, if_neg hclose.symm,
      if_pos rfl, hitem b (by simp)]
    simp only [ih (fun b hb => hitem b (by simp [hb])) hb', List.foldl_cons, List.length_cons,
      Nat.add_sub_add_right]

theorem items_of_first {close : Token} {item : α → Reader α} {token : Token}
    {tokens rest : List Token} {state state' : α} (ht : token ≠ close)
    (h : item state (token :: tokens) = .ok (state', rest)) :
    items close item state (token :: tokens) = moreItems close item rest.length state' rest := by
  simp [items, ht, h]

theorem moreItems_close {close : Token} {item : α → Reader α} {bound : Nat} (hb : 0 < bound)
    (state : α) (rest : List Token) :
    moreItems close item bound state (close :: rest) = .ok (state, rest) := by
  obtain ⟨bound, rfl⟩ : ∃ k, bound = k + 1 := ⟨bound - 1, by omega⟩
  simp [moreItems]

theorem length_le_flatMap_comma (chunk : β → List Token) (bs : List β) :
    bs.length ≤ (bs.flatMap fun b => .comma :: chunk b).length := by
  induction bs with
  | nil => exact Nat.le_refl 0
  | cons b bs ih =>
    simp only [List.flatMap_cons, List.length_append, List.length_cons]
    omega

/-- A closed list of items, the first of which may be read in its own way. -/
theorem items_chunks {close token : Token} {item : α → Reader α} {next : α → β → α}
    {chunk : β → List Token} {tokens : List Token} {state state' : α} {bs : List β}
    (hclose : close ≠ .comma) (ht : token ≠ close)
    (hfirst : ∀ more, item state (token :: tokens ++ more) = .ok (state', more))
    (hitem : ∀ b ∈ bs, ∀ state rest, item state (chunk b ++ rest) = .ok (next state b, rest))
    (rest : List Token) :
    items close item state
        (token :: tokens ++ ((bs.flatMap fun b => .comma :: chunk b) ++ close :: rest)) =
      .ok (bs.foldl next state', rest) := by
  have hlength := length_le_flatMap_comma chunk bs
  simp only [List.cons_append] at hfirst ⊢
  rw [items_of_first ht (hfirst _),
    moreItems_chunks hclose hitem (by simp only [List.length_append]; omega),
    moreItems_close (by simp only [List.length_append, List.length_cons]; omega)]

/-- A list that cannot be read behind a comma cannot be read at all. -/
theorem items_fault {close token : Token} {item : α → Reader α} {next : α → β → α}
    {chunk : β → List Token} {tokens more : List Token} {state state' : α} {bs : List β}
    (hclose : close ≠ .comma) (ht : token ≠ close)
    (hfirst : ∀ more, item state (token :: tokens ++ more) = .ok (state', more))
    (hitem : ∀ b ∈ bs, ∀ state rest, item state (chunk b ++ rest) = .ok (next state b, rest))
    (hmore : ∀ state, ∃ fault, item state more = .error fault) :
    ∃ fault, items close item state
        (token :: tokens ++ ((bs.flatMap fun b => .comma :: chunk b) ++ .comma :: more)) =
      .error fault := by
  have hlength := length_le_flatMap_comma chunk bs
  simp only [List.cons_append] at hfirst ⊢
  rw [items_of_first ht (hfirst _),
    moreItems_chunks hclose hitem (by simp only [List.length_append]; omega)]
  obtain ⟨bound, hb⟩ : ∃ k, ((bs.flatMap fun b => Token.comma :: chunk b) ++
      Token.comma :: more).length - bs.length = k + 1 := by
    refine ⟨((bs.flatMap fun b => Token.comma :: chunk b) ++ more).length - bs.length, ?_⟩
    simp only [List.length_append, List.length_cons]
    omega
  obtain ⟨fault, hf⟩ := hmore (bs.foldl next state')
  exact ⟨fault, by rw [hb, moreItems, if_neg hclose.symm, if_pos rfl, hf]⟩

/-- What a reader gives back was read, and then changed. -/
theorem map_ok (f : α → β) {r : Except Fault (α × List Token)} {v : β} {rest : List Token}
    (h : (r.map fun (x, rest) => (f x, rest)) = .ok (v, rest)) :
    ∃ x, r = .ok (x, rest) ∧ v = f x := by
  cases r with
  | error fault => cases h
  | ok p =>
    cases h
    exact ⟨p.1, rfl, rfl⟩

/-- A reader that takes tokens from the front and leaves the others as they are. -/
def Consumes (r : Reader α) : Prop :=
  ∀ tokens v rest, r tokens = .ok (v, rest) → rest <:+ tokens

section Lists

variable {close : Token} {item : α → Reader α} {bound : Nat} {state state' : α}
  {tokens rest : List Token}

/-- Induction on items that have been read, each behind a comma, up to the token that closes. -/
theorem moreItems_induction {motive : Nat → α → List Token → Prop}
    (h : moreItems close item bound state tokens = .ok (state', rest))
    (closed : ∀ bound, motive (bound + 1) state' (close :: rest))
    (behind : ∀ bound state more next after, close ≠ .comma →
      item state more = .ok (next, after) → motive bound next after →
      motive (bound + 1) state (.comma :: more)) : motive bound state tokens := by
  induction bound generalizing state tokens with
  | zero => cases tokens <;> cases h
  | succ bound ih =>
    cases tokens with
    | nil => cases h
    | cons token tokens =>
      rw [moreItems] at h
      split at h
      · rename_i hc
        cases h
        exact hc ▸ closed bound
      · rename_i hc
        split at h
        · rename_i hcomma
          split at h
          · rename_i next after hi
            subst hcomma
            exact behind bound state tokens next after (Ne.symm hc) hi (ih h)
          · cases h
        · cases h

/-- How a list can have been read: it is empty, or there is a first item. -/
theorem items_cases (h : items close item state tokens = .ok (state', rest)) :
    (tokens = close :: rest ∧ state = state') ∨
      ∃ token more next after, tokens = token :: more ∧ token ≠ close ∧
        item state (token :: more) = .ok (next, after) ∧
        moreItems close item after.length next after = .ok (state', rest) := by
  cases tokens with
  | nil => cases h
  | cons token more =>
    rw [items] at h
    split at h
    · rename_i hc
      cases h
      exact .inl ⟨hc ▸ rfl, rfl⟩
    · rename_i hc
      split at h
      · rename_i next after hi
        exact .inr ⟨token, more, next, after, rfl, hc, hi, h⟩
      · cases h

theorem moreItems_ok (hitem : ∀ state, Consumes (item state))
    (h : moreItems close item bound state tokens = .ok (state', rest)) :
    close :: rest <:+ tokens := by
  refine moreItems_induction (motive := fun _ _ tokens => close :: rest <:+ tokens) h
    (fun _ => List.suffix_refl _) ?_
  intro _ state more next after _ hi ih
  exact (ih.trans (hitem _ _ _ _ hi)).trans (List.suffix_cons _ more)

/-- A list is read up to the token that closes it. -/
theorem items_ok (hitem : ∀ state, Consumes (item state))
    (h : items close item state tokens = .ok (state', rest)) : close :: rest <:+ tokens := by
  rcases items_cases h with ⟨rfl, -⟩ | ⟨token, more, next, after, rfl, -, hi, hmore⟩
  · exact List.suffix_refl _
  · exact (moreItems_ok hitem hmore).trans (hitem _ _ _ _ hi)

end Lists

section Mirrors

variable {item : α → Reader α} {item' : β → Reader β} {image : α → β} {Q : α → Prop}

/-- What `item` reads into a state with `Q`, the other reader reads into the image of that state,
and `Q` held before. -/
def Mirrors (item : α → Reader α) (item' : β → Reader β) (image : α → β) (Q : α → Prop) : Prop :=
  ∀ state tokens state' rest, item state tokens = .ok (state', rest) → Q state' →
    Q state ∧ item' (image state) tokens = .ok (image state', rest)

theorem moreItems_mirrors (hitem : Mirrors item item' image Q) {close : Token} {bound : Nat}
    {state state' : α} {tokens rest : List Token}
    (h : moreItems close item bound state tokens = .ok (state', rest)) (hq : Q state') :
    Q state ∧ moreItems close item' bound (image state) tokens = .ok (image state', rest) := by
  refine moreItems_induction (motive := fun bound state tokens => Q state ∧
    moreItems close item' bound (image state) tokens = .ok (image state', rest)) h ?_ ?_
  · intro bound
    exact ⟨hq, moreItems_close (Nat.succ_pos bound) _ rest⟩
  · rintro bound state more next after hclose hi ⟨hq, hmore⟩
    obtain ⟨hq, hread⟩ := hitem _ _ _ _ hi hq
    refine ⟨hq, ?_⟩
    rw [moreItems, if_neg hclose.symm, if_pos rfl, hread]
    exact hmore

/-- A list that one reader has read to a state with `Q`, the other reads to its image. -/
theorem items_mirrors (hitem : Mirrors item item' image Q) {close : Token} {state state' : α}
    {tokens rest : List Token} (h : items close item state tokens = .ok (state', rest))
    (hq : Q state') : items close item' (image state) tokens = .ok (image state', rest) := by
  rcases items_cases h with ⟨rfl, rfl⟩ | ⟨token, more, next, after, rfl, hc, hi, hmore⟩
  · exact if_pos rfl
  · obtain ⟨hq, hrest⟩ := moreItems_mirrors hitem hmore hq
    obtain ⟨-, hread⟩ := hitem _ _ _ _ hi hq
    rw [items_of_first hc hread, hrest]

end Mirrors

/-- To the reader these tokens are a value, whatever follows them. -/
structure Takes (r : Reader α) (front : List Token) (v : α) : Prop where
  ne_nil : front ≠ []
  unbroken : ∀ token ∈ front, token.isBroken = false
  read : ∀ more, r (front ++ more) = .ok (v, more)

theorem Takes.of_token {r : Reader α} {token : Token} {v : α} (ht : token.isBroken = false)
    (hr : ∀ more, r (token :: more) = .ok (v, more)) : Takes r [token] v := by
  refine ⟨List.cons_ne_nil _ _, fun t hm => ?_, hr⟩
  rw [List.mem_singleton.mp hm, ht]

theorem Takes.map {r : Reader α} {front : List Token} {v : α} (h : Takes r front v) (f : α → β) :
    Takes (fun tokens => (r tokens).map fun (v, rest) => (f v, rest)) front (f v) :=
  ⟨h.ne_nil, h.unbroken, fun more => by simp [h.read, Except.map]⟩

/-- A reader to which what follows a value does not matter. -/
def Local (r : Reader α) : Prop :=
  ∀ tokens v rest, r tokens = .ok (v, rest) → ∃ front, tokens = front ++ rest ∧ Takes r front v

theorem Local.consumes {r : Reader α} (h : Local r) : Consumes r := by
  intro tokens v rest hr
  obtain ⟨front, rfl, -⟩ := h tokens v rest hr
  exact List.suffix_append front rest

theorem Local.map {r : Reader α} (h : Local r) (f : α → β) :
    Local fun tokens => (r tokens).map fun (v, rest) => (f v, rest) := by
  intro tokens v rest hr
  obtain ⟨x, hx, rfl⟩ := map_ok f hr
  obtain ⟨front, hfront, ht⟩ := h tokens x rest hx
  exact ⟨front, hfront, ht.map f⟩

/-- Each round takes tokens of its own, so these bound the rounds. -/
theorem moreItems_local {close : Token} {item : α → Reader α} (hclose : close.isBroken = false)
    (hitem : ∀ state, Local (item state)) {bound : Nat} {state state' : α}
    {tokens rest : List Token}
    (h : moreItems close item bound state tokens = .ok (state', rest)) :
    ∃ front, tokens = front ++ rest ∧
      ∀ bound, front.length ≤ bound → Takes (moreItems close item bound state) front state' := by
  refine moreItems_induction (motive := fun _ state tokens => ∃ front, tokens = front ++ rest ∧
    ∀ bound, front.length ≤ bound → Takes (moreItems close item bound state) front state') h ?_ ?_
  · intro _
    exact ⟨[close], rfl, fun bound hb => .of_token hclose fun more => moreItems_close hb _ more⟩
  · rintro _ state more next after hc hi ⟨front, rfl, hfront⟩
    obtain ⟨first, rfl, hfirst⟩ := hitem _ _ _ _ hi
    refine ⟨.comma :: (first ++ front), by simp, fun bound hb => ?_⟩
    simp only [List.length_cons, List.length_append] at hb
    obtain ⟨bound, rfl⟩ : ∃ k, bound = k + 1 := ⟨bound - 1, by omega⟩
    have hlast := hfront bound (by omega)
    refine ⟨List.cons_ne_nil _ _, fun t hm => ?_, fun more => ?_⟩
    · simp only [List.mem_cons, List.mem_append] at hm
      rcases hm with rfl | hm | hm
      · rfl
      · exact hfirst.unbroken t hm
      · exact hlast.unbroken t hm
    · rw [List.cons_append, List.append_assoc, moreItems, if_neg hc.symm, if_pos rfl, hfirst.read]
      exact hlast.read more

theorem items_local {close : Token} {item : α → Reader α} (hclose : close.isBroken = false)
    (hitem : ∀ state, Local (item state)) (state : α) : Local (items close item state) := by
  intro tokens state' rest h
  rcases items_cases h with ⟨rfl, rfl⟩ | ⟨token, more, next, after, rfl, hc, hi, hmore⟩
  · exact ⟨[close], rfl, .of_token hclose fun more => by simp [items]⟩
  · obtain ⟨first, hfirst, ht⟩ := hitem _ _ _ _ hi
    obtain ⟨front, rfl, hfront⟩ := moreItems_local hclose hitem hmore
    obtain ⟨t, first, rfl⟩ := List.exists_cons_of_ne_nil ht.ne_nil
    rw [List.cons_append, List.cons.injEq] at hfirst
    obtain ⟨rfl, rfl⟩ := hfirst
    refine ⟨token :: first ++ front, by simp, by simp, fun u hm => ?_, fun more => ?_⟩
    · rcases List.mem_append.mp hm with hm | hm
      · exact ht.unbroken u hm
      · exact (hfront _ (Nat.le_refl _)).unbroken u hm
    · have hread := ht.read (front ++ more)
      rw [List.cons_append] at hread
      rw [List.append_assoc, List.cons_append, items_of_first hc hread]
      exact (hfront _ (by simp)).read more

theorem name_eq {key : String} {tokens rest : List Token} (h : name tokens = .ok (key, rest)) :
    tokens = .string key :: .colon :: rest := by
  unfold name at h
  split at h
  · split at h
    · cases h
      rfl
    · cases h
  · cases h

def member (r : Reader Json) (reversed : List (String × Json)) :
    Reader (List (String × Json)) := fun tokens =>
  match name tokens with
  | .ok (key, tokens) => (r tokens).map fun (v, rest) => ((key, v) :: reversed, rest)
  | .error fault => .error fault

theorem value_openObject (depth : Nat) (tokens : List Token) :
    value (depth + 1) (.openObject :: tokens) =
      (items .closeObject (member (value depth)) [] tokens).map
        fun (reversed, rest) => (.object reversed.reverse, rest) := rfl

/-- A member that has been read is a name, a colon and a value. -/
theorem member_ok {r : Reader Json} {reversed reversed' : List (String × Json)}
    {tokens rest : List Token} (h : member r reversed tokens = .ok (reversed', rest)) :
    ∃ key v more, tokens = .string key :: .colon :: more ∧ r more = .ok (v, rest) ∧
      reversed' = (key, v) :: reversed := by
  unfold member at h
  split at h
  · rename_i key more hn
    obtain ⟨v, hv, rfl⟩ := map_ok (fun v => (key, v) :: reversed) h
    exact ⟨key, v, more, name_eq hn, hv, rfl⟩
  · cases h

theorem member_local {r : Reader Json} (h : Local r) (reversed : List (String × Json)) :
    Local (member r reversed) := by
  intro tokens reversed' rest hr
  obtain ⟨key, v, more, rfl, hv, rfl⟩ := member_ok hr
  obtain ⟨front, rfl, hfront⟩ := h more v rest hv
  refine ⟨.string key :: .colon :: front, rfl, List.cons_ne_nil _ _, fun t hm => ?_, fun more => ?_⟩
  · simp only [List.mem_cons] at hm
    rcases hm with rfl | rfl | hm
    · rfl
    · rfl
    · exact hfront.unbroken t hm
  · simp [member, name, hfront.read, Except.map]

theorem value_local (depth : Nat) : Local (value depth) := by
  have hscalar {depth : Nat} {token : Token} {tokens rest : List Token} {v w : Json}
      (ht : token.isBroken = false) (hr : ∀ more, value depth (token :: more) = .ok (w, more))
      (h : value depth (token :: tokens) = .ok (v, rest)) : ∃ front,
        token :: tokens = front ++ rest ∧ Takes (value depth) front v := by
    rw [hr] at h
    cases h
    exact ⟨[token], rfl, .of_token ht hr⟩
  induction depth with
  | zero =>
    intro tokens v rest h
    cases tokens with
    | nil => simp [value] at h
    | cons token tokens =>
      cases token with
      | null => exact hscalar rfl (fun _ => rfl) h
      | bool b => exact hscalar rfl (fun _ => rfl) h
      | number n => exact hscalar rfl (fun _ => rfl) h
      | string s => exact hscalar rfl (fun _ => rfl) h
      | _ => simp [value] at h
  | succ depth ih =>
    intro tokens v rest h
    -- A list is opened by its first token.
    have hlist {token : Token} {tokens : List Token} {r : Reader Json} (hr : Local r)
        (ht : token.isBroken = false) (hv : ∀ more, value (depth + 1) (token :: more) = r more)
        (h : value (depth + 1) (token :: tokens) = .ok (v, rest)) : ∃ front,
          token :: tokens = front ++ rest ∧ Takes (value (depth + 1)) front v := by
      rw [hv] at h
      obtain ⟨front, rfl, hfront⟩ := hr _ _ _ h
      refine ⟨token :: front, rfl, List.cons_ne_nil _ _, fun t hm => ?_, fun more => ?_⟩
      · rcases List.mem_cons.mp hm with rfl | hm
        · exact ht
        · exact hfront.unbroken t hm
      · rw [List.cons_append, hv, hfront.read]
    cases tokens with
    | nil => simp [value] at h
    | cons token tokens =>
      cases token with
      | null => exact hscalar rfl (fun _ => rfl) h
      | bool b => exact hscalar rfl (fun _ => rfl) h
      | number n => exact hscalar rfl (fun _ => rfl) h
      | string s => exact hscalar rfl (fun _ => rfl) h
      | openArray =>
        have hitem (reversed : List Json) := ih.map fun v => v :: reversed
        have hitems := @items_local _ .closeArray _ rfl hitem []
        exact hlist (hitems.map fun reversed => Json.array reversed.reverse) rfl (fun _ => rfl) h
      | openObject =>
        have hitems := @items_local _ .closeObject _ rfl (member_local ih) []
        exact hlist (hitems.map fun reversed => Json.object reversed.reverse) rfl
          (value_openObject depth) h
      | _ => simp [value] at h

/-- What is read as an object is one from its first token on. -/
theorem openObject_of_value {depth : Nat} {members : List (String × Json)}
    {tokens rest : List Token} (h : value (depth + 1) tokens = .ok (.object members, rest)) :
    ∃ more reversed, tokens = .openObject :: more ∧ members = reversed.reverse ∧
      items .closeObject (member (value depth)) [] more = .ok (reversed, rest) := by
  cases tokens with
  | nil => simp [value] at h
  | cons token more =>
    cases token with
    | openObject =>
      obtain ⟨reversed, hitems, hmembers⟩ :=
        map_ok (fun items : List (String × Json) => Json.object items.reverse) h
      cases hmembers
      exact ⟨more, reversed, rfl, rfl, hitems⟩
    | openArray =>
      obtain ⟨reversed, -, harray⟩ := map_ok (fun items : List Json => Json.array items.reverse) h
      cases harray
    | _ => simp [value] at h

def EndsWith (last : Token) (r : Reader α) : Prop :=
  ∀ tokens v rest, r tokens = .ok (v, rest) → last :: rest <:+ tokens

theorem EndsWith.consumes {last : Token} {r : Reader α} (h : EndsWith last r) : Consumes r :=
  fun tokens v rest hr => (List.suffix_cons last rest).trans (h tokens v rest hr)

theorem EndsWith.map {last : Token} {r : Reader α} (h : EndsWith last r) (f : α → β) :
    EndsWith last fun tokens => (r tokens).map fun (v, rest) => (f v, rest) := by
  intro tokens v rest hr
  obtain ⟨x, hx, -⟩ := map_ok f hr
  exact h tokens x rest hx

theorem moreItems_last {close last : Token} {item : α → Reader α}
    (hitem : ∀ state, EndsWith last (item state)) {bound : Nat} {state state' : α}
    {tokens rest : List Token}
    (h : moreItems close item bound state tokens = .ok (state', rest)) :
    tokens = close :: rest ∨ last :: close :: rest <:+ tokens := by
  refine moreItems_induction (motive := fun _ _ tokens =>
    tokens = close :: rest ∨ last :: close :: rest <:+ tokens) h (fun _ => .inl rfl) ?_
  intro _ state more next after _ hi ih
  have hsuffix := (hitem _ _ _ _ hi).trans (List.suffix_cons .comma more)
  rcases ih with rfl | hrest
  · exact .inr hsuffix
  · exact .inr ((hrest.trans (List.suffix_cons _ _)).trans hsuffix)

/-- What closes a list stands right behind an item, unless there is none. -/
theorem items_last {close last : Token} {item : α → Reader α}
    (hitem : ∀ state, EndsWith last (item state)) {state state' : α} {tokens rest : List Token}
    (h : items close item state tokens = .ok (state', rest)) :
    tokens = close :: rest ∨ last :: close :: rest <:+ tokens := by
  rcases items_cases h with ⟨rfl, -⟩ | ⟨token, more, next, after, rfl, -, hi, hmore⟩
  · exact .inl rfl
  · have hsuffix := hitem _ _ _ _ hi
    rcases moreItems_last hitem hmore with rfl | hrest
    · exact .inr hsuffix
    · exact .inr ((hrest.trans (List.suffix_cons _ _)).trans hsuffix)

end SessionPlayback.Json
